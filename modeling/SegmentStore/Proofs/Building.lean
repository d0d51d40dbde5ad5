import SegmentStore.Proofs.Items

/-!
# Vectors that are built call by call

A vector is built by pushing values, by pushing the bytes of texts and by appending vectors that were built before. Some
calls are refused. A vector holds what the other ones have put into it, in order, and its buffers stay in step.

* `BuildCall` is a call of a builder, a tree since what is appended was built by calls of its own. `BuildCall.attempt`
  is what comes of a call, `BuildCall.items` what it should put into the vector.
* `ColumnVector.append_holds` says what a vector holds that another one is appended to.
* `BuildCall.attempt_holds` is the step, from a vector that holds some values, and `BuildCall.callAll_holds` the run.
* `TextVector.Delimited` is what the buffers of a text vector have to do with each other.
* `ColumnVector.built_holds_items` puts the contents and the layout together.
-/

namespace SegmentStore

/-! ### Appending -/

theorem FlatVector.append_holds {α : Type} {filler : α} {v w : FlatVector α} {xs ys : List (Option α)}
    (hv : v.Holds filler xs) (hw : w.Holds filler ys) : (v.append w).Holds filler (xs ++ ys) where
  valid := by rw [append, Array.toList_append, hv.valid, hw.valid, List.map_append]
  slots := by rw [append, Array.toList_append, hv.slots, hw.slots, List.map_append]

namespace TextVector

variable {v w : TextVector} {xs ys : List (Option String)}

theorem Holds.size_bytes (h : v.Holds xs) : v.bytes.size = (xs.flatMap itemBytes).length := by
  rw [← h.bytes, Array.length_toList]

/-- The borders of the second vector go on behind the bytes of the first. -/
theorem append_holds (hv : v.Holds xs) (hw : w.Holds ys) : (v.append w).Holds (xs ++ ys) where
  valid := by rw [append, Array.toList_append, hv.valid, hw.valid, List.map_append]
  bytes := by rw [append, Array.toList_append, hv.bytes, hw.bytes, List.flatMap_append]
  count := by
    simp only [append, ← Array.length_toList, Array.toList_appendList, List.length_append, List.length_map,
      List.length_drop]
    rw [Array.length_toList, Array.length_toList, hv.count, hw.count]
    omega
  offset i hi := by
    rw [List.length_append] at hi
    have hcount : v.offsets.toList.length = xs.length + 1 := hv.count
    rw [append, ← Array.getElem?_toList, Array.toList_appendList]
    by_cases hfirst : i ≤ xs.length
    · rw [List.getElem?_append_left (by omega), Array.getElem?_toList, hv.offset i hfirst,
        List.take_append_of_le_length hfirst]
    · have hback : 1 + (i - (xs.length + 1)) = i - xs.length := by omega
      have htake : (xs ++ ys).take i = xs ++ ys.take (i - xs.length) := by
        rw [List.take_append, List.take_of_length_le (by omega)]
      rw [List.getElem?_append_right (by omega), hcount, List.getElem?_map, List.getElem?_drop, hback,
        Array.getElem?_toList, hw.offset _ (by omega), hv.size_bytes, htake, List.flatMap_append, List.length_append,
        Nat.add_comm]
      rfl

end TextVector

namespace ColumnVector

/-- Vectors of one type are put one behind the other. -/
theorem append_holds {v w : ColumnVector} {xs ys : List Value} (hv : v.Holds xs) (hw : w.Holds ys)
    (htype : w.type = v.type) : ∃ u, v.append? w = some u ∧ u.Holds (xs ++ ys) ∧ u.type = v.type := by
  cases v <;> cases w <;> cases htype
  case varchar.varchar v w =>
    obtain ⟨xs, hxs, rfl⟩ := hv
    obtain ⟨ys, hys, rfl⟩ := hw
    exact ⟨_, rfl, ⟨_, TextVector.append_holds hxs hys, List.map_append.symm⟩, rfl⟩
  all_goals
    obtain ⟨xs, hxs, rfl⟩ := hv
    obtain ⟨ys, hys, rfl⟩ := hw
    exact ⟨_, rfl, ⟨_, FlatVector.append_holds hxs hys, List.map_append.symm⟩, rfl⟩

/-- What is no value of the type is refused. -/
theorem push_refused {v : ColumnVector} {x : Value} (h : v.type.accepts x = false) :
    v.push x = .error (.vectorMismatch x v.type) := by
  cases v <;> cases x <;> first | rfl | cases h

/-- Adds the text with the given bytes to a vector of texts. -/
def pushBytes? (v : ColumnVector) (bs : Bytes) : Option ColumnVector :=
  match v with
  | .varchar v =>
    match v.pushBytes bs with
    | .ok v => some (.varchar v)
    | .error _ => none
  | _ => none

theorem pushBytes?_holds {v : ColumnVector} {xs : List Value} (hv : v.Holds xs) (htype : v.type = .varchar)
    {bs : Bytes} {s : String} (hs : Utf8.decode? bs = some s) :
    ∃ u, v.pushBytes? bs = some u ∧ u.Holds (xs ++ [.string s]) ∧ u.type = v.type := by
  cases v <;> cases htype
  rename_i v
  obtain ⟨ys, hys, rfl⟩ := hv
  refine ⟨.varchar (v.push s), ?_, ⟨_, TextVector.push_holds hys s, by rw [List.map_append]; rfl⟩, rfl⟩
  rw [pushBytes?, TextVector.pushBytes, hs]

theorem pushBytes?_refused (v : ColumnVector) {bs : Bytes} (hbs : Utf8.decode? bs = none) :
    v.pushBytes? bs = none := by
  cases v with
  | varchar v => rw [pushBytes?, TextVector.pushBytes, hbs]
  | _ => rfl

end ColumnVector

/-! ### Calls -/

/-- A call of a builder of some type. What is appended was finished by another builder of the type, after calls of its
own. -/
inductive BuildCall (ty : FieldType) where
  | push (x : Value)
  | pushBytes (htext : ty = .varchar) (bs : Bytes)
  | append (calls : List (BuildCall ty))

namespace BuildCall

variable {ty : FieldType}

mutual

/-- The vector after a call, none if the call is refused. -/
def attempt (v : ColumnVector) : BuildCall ty → Option ColumnVector
  | .push x => (v.push x).toOption
  | .pushBytes _ bs => v.pushBytes? bs
  | .append calls => v.append? (callAll (.empty ty) calls)

/-- The vector after calls, one by one. One that is refused leaves it as it was. -/
def callAll (v : ColumnVector) : List (BuildCall ty) → ColumnVector
  | [] => v
  | c :: cs => callAll ((c.attempt v).getD v) cs

end

/-- The vector that some calls build from nothing. -/
def built (calls : List (BuildCall ty)) : ColumnVector := callAll (.empty ty) calls

/-- The call should not be refused. -/
def accepted : BuildCall ty → Bool
  | .push x => ty.accepts x
  | .pushBytes _ bs => (Utf8.decode? bs).isSome
  | .append _ => true

mutual

/-- The values that a call should add. -/
def items : BuildCall ty → List Value
  | .push x => if ty.accepts x then [x] else []
  | .pushBytes _ bs => (Utf8.decode? bs).toList.map .string
  | .append calls => itemsOf calls

/-- The values that some calls should add, in order. -/
def itemsOf : List (BuildCall ty) → List Value
  | [] => []
  | c :: cs => c.items ++ itemsOf cs

end

/-- What comes of a call of a builder that holds the values `xs`: the values of the call are added, or it is refused. -/
def Outcome (v : ColumnVector) (xs : List Value) (c : BuildCall ty) : Prop :=
  if c.accepted then ∃ u, c.attempt v = some u ∧ u.Holds (xs ++ c.items) ∧ u.type = ty
  else c.attempt v = none ∧ c.items = []

/-- A call leads on to a vector that holds the values of the call as well, be it refused or not. -/
theorem Outcome.holds {v : ColumnVector} {xs : List Value} {c : BuildCall ty} (h : Outcome v xs c) (hv : v.Holds xs)
    (htype : v.type = ty) :
    ((c.attempt v).getD v).Holds (xs ++ c.items) ∧ ((c.attempt v).getD v).type = ty := by
  rw [Outcome] at h
  split at h
  · obtain ⟨u, hu, hholds⟩ := h
    rw [hu]
    exact hholds
  · obtain ⟨hnone, hitems⟩ := h
    rw [hnone, hitems, List.append_nil]
    exact ⟨hv, htype⟩

mutual

/-- By the kinds of calls. What is appended is built by calls of its own. -/
theorem attempt_holds {v : ColumnVector} {xs : List Value} (hv : v.Holds xs) (htype : v.type = ty) :
    (c : BuildCall ty) → Outcome v xs c
  | .push x => by
    rw [Outcome, accepted, items, attempt]
    split
    · rename_i hx
      obtain ⟨u, hpush, hu, hutype⟩ := ColumnVector.push_holds hv (htype ▸ hx)
      exact ⟨u, by rw [hpush]; rfl, hu, hutype.trans htype⟩
    · rename_i hx
      rw [ColumnVector.push_refused (htype ▸ Bool.eq_false_iff.mpr hx)]
      exact ⟨rfl, rfl⟩
  | .pushBytes htext bs => by
    rw [Outcome, accepted, items, attempt]
    cases hbs : Utf8.decode? bs with
    | none => exact ⟨v.pushBytes?_refused hbs, rfl⟩
    | some s =>
      obtain ⟨u, hpush, hu, hutype⟩ := ColumnVector.pushBytes?_holds hv (htype.trans htext) hbs
      exact ⟨u, hpush, hu, hutype.trans htype⟩
  | .append calls => by
    rw [Outcome, accepted, items, attempt]
    obtain ⟨hw, hwtype⟩ := callAll_holds (ColumnVector.holds_empty ty) (ColumnVector.type_empty ty) calls
    obtain ⟨u, happend, hu, hutype⟩ := ColumnVector.append_holds hv hw (hwtype.trans htype.symm)
    exact ⟨u, happend, hu, hutype.trans htype⟩

theorem callAll_holds {v : ColumnVector} {xs : List Value} (hv : v.Holds xs) (htype : v.type = ty) :
    (calls : List (BuildCall ty)) →
      (callAll v calls).Holds (xs ++ itemsOf calls) ∧ (callAll v calls).type = ty
  | [] => by
    rw [callAll, itemsOf, List.append_nil]
    exact ⟨hv, htype⟩
  | c :: cs => by
    obtain ⟨hnext, hnextType⟩ := (attempt_holds hv htype c).holds hv htype
    rw [callAll, itemsOf, ← List.append_assoc]
    exact callAll_holds hnext hnextType cs

end

end BuildCall

/-! ### Layout -/

namespace TextVector

/-- What the buffers of a text vector have to do with each other: the offsets delimit the bytes from the first to the
last, and what they delimit for an item that is not null is a text. -/
structure Delimited (v : TextVector) : Prop where
  count : v.offsets.size = v.size + 1
  first : v.offsets[0]? = some 0
  ascending : v.offsets.toList.Pairwise (· ≤ ·)
  last : v.offsets[v.size]? = some v.bytes.size
  text : ∀ i, v.valid[i]? = some true → ∃ s, Utf8.decode? (v.slice i) = some s ∧ v.get i = some s

variable {v : TextVector} {xs : List (Option String)}

/-- Offsets ascend, since each is the length of what stands before its item. -/
theorem Holds.ascending (h : v.Holds xs) : v.offsets.toList.Pairwise (· ≤ ·) := by
  rw [List.pairwise_iff_getElem]
  intro i j hi hj hij
  rw [Array.length_toList, h.count] at hi hj
  have hoffset : ∀ k (hk : k < v.offsets.toList.length),
      v.offsets.toList[k] = ((xs.take k).flatMap itemBytes).length := by
    intro k hk
    have hle : k ≤ xs.length := by
      rw [Array.length_toList, h.count] at hk
      omega
    rw [← Option.some_inj, ← List.getElem?_eq_getElem hk, Array.getElem?_toList, h.offset k hle]
  rw [hoffset, hoffset, ← List.take_append_drop i (xs.take j), List.take_take, min_eq_left (Nat.le_of_lt hij),
    List.flatMap_append, List.length_append]
  exact Nat.le_add_right _ _

theorem Holds.delimited (h : v.Holds xs) : v.Delimited where
  count := by rw [h.count, h.size]
  first := h.offset 0 (Nat.zero_le _)
  ascending := h.ascending
  last := by rw [h.size, h.offset _ (Nat.le_refl _), List.take_length, h.size_bytes]
  text i hi := by
    rw [← Array.getElem?_toList, h.valid, List.getElem?_map, Option.map_eq_some_iff] at hi
    obtain ⟨x, hx, hsome⟩ := hi
    obtain ⟨s, rfl⟩ := Option.isSome_iff_exists.mp hsome
    obtain ⟨hlt, hitem⟩ := List.getElem?_eq_some_iff.mp hx
    refine ⟨s, ?_, by rw [h.get hlt, hitem]⟩
    rw [h.slice hlt, hitem]
    exact Utf8.decode?_encode s

end TextVector

namespace ColumnVector

/-- The slots of a vector of fixed-width items, those of nulls included. -/
def rawSlots : ColumnVector → List Value
  | .bool v => v.slots.toList.map .bool
  | .int32 v => v.slots.toList.map .int32
  | .int64 v => v.slots.toList.map .int64
  | .float64 v => v.slots.toList.map .float64
  | .varchar _ => []

/-- One step of going through a vector: the item at a position and the next position, none at the end. -/
def next? (v : ColumnVector) (pos : Nat) : Option (Value × Nat) :=
  if v.size ≤ pos then none else some (v.get pos, pos + 1)

variable {v : ColumnVector} {xs : List Value}

/-- A slot holds its item, and the default of the type where the item is null. -/
theorem Holds.rawSlots (h : v.Holds xs) (htype : v.type ≠ .varchar) :
    v.rawSlots = xs.map fun x => if x.isNull then v.type.default else x := by
  cases v with
  | varchar v => exact absurd rfl htype
  | _ =>
    obtain ⟨ys, hys, rfl⟩ := h
    rw [ColumnVector.rawSlots, hys.slots, List.map_map, List.map_map]
    refine List.map_congr_left fun y _ => ?_
    cases y <;> rfl

theorem Holds.next? (h : v.Holds xs) (pos : Nat) : v.next? pos = xs[pos]?.map fun x => (x, pos + 1) := by
  rw [ColumnVector.next?, h.size]
  by_cases hend : xs.length ≤ pos
  · rw [if_pos hend, List.getElem?_eq_none hend]
    rfl
  · rw [if_neg hend, h.get (Nat.lt_of_not_le hend), List.getElem?_eq_getElem (Nat.lt_of_not_le hend)]
    rfl

end ColumnVector

namespace BuildCall

variable {ty : FieldType}

theorem built_holds (calls : List (BuildCall ty)) :
    (built calls).Holds (itemsOf calls) ∧ (built calls).type = ty :=
  callAll_holds (ColumnVector.holds_empty ty) (ColumnVector.type_empty ty) calls

theorem callAll_concat (v : ColumnVector) (calls : List (BuildCall ty)) (c : BuildCall ty) :
    callAll v (calls ++ [c]) = (c.attempt (callAll v calls)).getD (callAll v calls) := by
  induction calls generalizing v with
  | nil => rfl
  | cons c' calls ih =>
    rw [List.cons_append, callAll, callAll]
    exact ih _

end BuildCall

/-- A vector that was built holds the values of the calls that were not refused, and nothing else, whichever way it is
read. A call of a builder is refused just if its value is of another type or its bytes are no text, and then the vector
stays as it was. The slots of nulls hold the default of the type, and the offsets of texts delimit texts. -/
theorem ColumnVector.built_holds_items (ty : FieldType) (calls : List (BuildCall ty)) :
    let v := BuildCall.built calls
    let xs := BuildCall.itemsOf calls
    v.type = ty ∧ v.size = xs.length ∧ v.toList = xs
      ∧ (∀ i (hi : i < xs.length), v.get i = xs[i])
      ∧ (∀ pos, v.next? pos = xs[pos]?.map fun x => (x, pos + 1))
      ∧ (∀ c : BuildCall ty, if c.accepted then c.attempt v = some (BuildCall.built (calls ++ [c]))
          else c.attempt v = none ∧ BuildCall.built (calls ++ [c]) = v)
      ∧ (ty ≠ .varchar → v.rawSlots = xs.map fun x => if x.isNull then ty.default else x)
      ∧ ∀ t, v = .varchar t → t.Delimited := by
  intro v xs
  obtain ⟨hholds, htype⟩ : v.Holds xs ∧ v.type = ty := BuildCall.built_holds calls
  refine ⟨htype, hholds.size, toList_of_holds hholds, fun i hi => hholds.get hi, hholds.next?, ?_, ?_, ?_⟩
  · intro c
    have hbuilt : BuildCall.built (calls ++ [c]) = (c.attempt v).getD v := BuildCall.callAll_concat _ calls c
    have hstep := BuildCall.attempt_holds hholds htype c
    rw [BuildCall.Outcome] at hstep
    split at hstep
    · rename_i haccepted
      obtain ⟨u, hu, -⟩ := hstep
      rw [if_pos haccepted, hbuilt, hu, Option.getD_some]
    · rename_i hrefused
      rw [if_neg hrefused, hbuilt, hstep.1, Option.getD_none]
      exact ⟨rfl, rfl⟩
  · intro hflat
    rw [hholds.rawSlots (htype ▸ hflat), htype]
  · intro t ht
    rw [ht] at hholds
    obtain ⟨ys, hys, -⟩ := hholds
    exact hys.delimited

/-- Texts with a number and a broken byte among them, which are refused, and numbers with a null. -/
theorem ColumnVector.built_holds_items_texts :
    let texts : List (BuildCall .varchar) :=
      [.push (.string "ab"), .push (.int32 5), .pushBytes rfl [0xFF], .pushBytes rfl [0xC3, 0xA9],
        .append [.push .null, .push (.string "c")]]
    let numbers : List (BuildCall .int32) := [.push .null, .append [.push (.int32 7), .push (.bool true)]]
    (BuildCall.built texts).toList = [.string "ab", .string "é", .null, .string "c"]
      ∧ (∃ t, BuildCall.built texts = .varchar t ∧ t.Delimited)
      ∧ (BuildCall.built numbers).toList = [.null, .int32 7]
      ∧ (BuildCall.built numbers).rawSlots = [.int32 0, .int32 7] := by
  intro texts numbers
  obtain ⟨-, -, htexts, -, -, -, -, hdelimited⟩ := built_holds_items .varchar texts
  obtain ⟨-, -, hnumbers, -, -, -, hslots, -⟩ := built_holds_items .int32 numbers
  exact ⟨htexts.trans (by decide), ⟨_, rfl, hdelimited _ rfl⟩, hnumbers, hslots (by decide)⟩

end SegmentStore
