import SegmentStore.Proofs.Bounds
import SegmentStore.Vector.Basic

/-!
# The items of a column vector

* `FlatVector.Holds` and `TextVector.Holds` relate the buffers of a vector to its list of items,
  `ColumnVector.Holds` does so for a vector of any type.
* `ColumnVector.push_holds` says that a value of the type is added at the end.
* `ColumnVector.toList_of_holds` reads the items back.
-/

namespace SegmentStore

namespace FlatVector

variable {α : Type} {filler : α}

/-- The buffers hold the items `xs`, with the filler in the slots of nulls. -/
structure Holds (filler : α) (v : FlatVector α) (xs : List (Option α)) : Prop where
  valid : v.valid.toList = xs.map Option.isSome
  slots : v.slots.toList = xs.map fun x => x.getD filler

theorem holds_empty : Holds filler empty [] := ⟨rfl, rfl⟩

theorem push_holds {v : FlatVector α} {xs : List (Option α)} (h : Holds filler v xs)
    (x : Option α) : Holds filler (v.push filler x) (xs ++ [x]) := by
  constructor
  · simp [push, h.valid]
  · simp [push, h.slots]

theorem Holds.size {v : FlatVector α} {xs : List (Option α)} (h : Holds filler v xs) :
    v.size = xs.length := by
  rw [FlatVector.size, ← Array.length_toList, h.valid, List.length_map]

theorem Holds.get {v : FlatVector α} {xs : List (Option α)} (h : Holds filler v xs) {i : Nat}
    (hi : i < xs.length) : v.get i = xs[i] := by
  have hvalid : v.valid[i]? = some xs[i].isSome := by
    rw [← Array.getElem?_toList, h.valid, List.getElem?_map, List.getElem?_eq_getElem hi]
    rfl
  have hslot : v.slots[i]? = some (xs[i].getD filler) := by
    rw [← Array.getElem?_toList, h.slots, List.getElem?_map, List.getElem?_eq_getElem hi]
    rfl
  rw [FlatVector.get, hvalid, hslot]
  cases xs[i] <;> rfl

end FlatVector

namespace TextVector

/-- The bytes that an item takes, none for a null. -/
def itemBytes (x : Option String) : Bytes := x.elim [] Utf8.encode

/-- The buffers hold the items `xs`: their bytes one after the other, and an offset at each border. -/
structure Holds (v : TextVector) (xs : List (Option String)) : Prop where
  valid : v.valid.toList = xs.map Option.isSome
  bytes : v.bytes.toList = xs.flatMap itemBytes
  count : v.offsets.size = xs.length + 1
  offset : ∀ i, i ≤ xs.length → v.offsets[i]? = some ((xs.take i).flatMap itemBytes).length

theorem holds_empty : Holds empty [] where
  valid := rfl
  bytes := rfl
  count := rfl
  offset i hi := by
    obtain rfl : i = 0 := by simpa using hi
    rfl

theorem bytes_push (v : TextVector) (x : Option String) :
    (v.push x).bytes.toList = v.bytes.toList ++ itemBytes x := by
  cases x <;> simp [push, itemBytes]

theorem push_holds {v : TextVector} {xs : List (Option String)} (h : v.Holds xs)
    (x : Option String) : (v.push x).Holds (xs ++ [x]) where
  valid := by simp [push, h.valid]
  bytes := by rw [bytes_push, h.bytes, List.flatMap_append, List.flatMap_singleton]
  count := by simp [push, h.count]
  offset i hi := by
    rw [List.length_append, List.length_singleton] at hi
    have hlast : (v.push x).bytes.size = ((xs ++ [x]).flatMap itemBytes).length := by
      rw [← Array.length_toList, bytes_push, h.bytes, List.flatMap_append, List.flatMap_singleton]
    have hoffsets : (v.push x).offsets = v.offsets.push (v.push x).bytes.size := by
      simp [push]
    rw [hoffsets, Array.getElem?_push]
    -- the new border is behind everything, the others have not moved
    by_cases hnew : i = v.offsets.size
    · rw [if_pos hnew, hlast, List.take_of_length_le]
      rw [hnew, h.count, List.length_append, List.length_singleton]
    · rw [h.count] at hnew
      have hold : i ≤ xs.length := by omega
      rw [if_neg (by rw [h.count]; exact hnew), h.offset i hold, List.take_append_of_le_length hold]

theorem Holds.size {v : TextVector} {xs : List (Option String)} (h : v.Holds xs) :
    v.size = xs.length := by
  rw [TextVector.size, ← Array.length_toList, h.valid, List.length_map]

theorem Holds.slice {v : TextVector} {xs : List (Option String)} (h : v.Holds xs) {i : Nat}
    (hi : i < xs.length) : v.slice i = itemBytes xs[i] := by
  have hsplit : xs.flatMap itemBytes
      = (xs.take i).flatMap itemBytes ++ (itemBytes xs[i] ++ (xs.drop (i + 1)).flatMap itemBytes) := by
    rw [← List.flatMap_cons, List.getElem_cons_drop, ← List.flatMap_append, List.take_append_drop]
  have htake : xs.take (i + 1) = xs.take i ++ [xs[i]] := by
    rw [List.take_add_one, List.getElem?_eq_getElem hi]
    rfl
  rw [TextVector.slice, h.offset i (by omega), h.offset (i + 1) (by omega), Option.getD_some,
    Option.getD_some, Array.toList_extract, List.extract, h.bytes, htake, List.flatMap_append,
    List.flatMap_singleton, List.length_append, Nat.add_sub_cancel_left, hsplit, List.drop_left,
    List.take_left]

theorem Holds.get {v : TextVector} {xs : List (Option String)} (h : v.Holds xs) {i : Nat}
    (hi : i < xs.length) : v.get i = xs[i] := by
  have hvalid : v.valid[i]? = some xs[i].isSome := by
    rw [← Array.getElem?_toList, h.valid, List.getElem?_map, List.getElem?_eq_getElem hi]
    rfl
  rw [TextVector.get, hvalid, h.slice hi]
  cases xs[i] <;> simp [itemBytes]

end TextVector

namespace ColumnVector

/-- The vector holds the values `xs`. -/
def Holds : ColumnVector → List Value → Prop
  | .bool v, xs => ∃ ys, v.Holds false ys ∧ xs = ys.map fun y => y.elim .null .bool
  | .int32 v, xs => ∃ ys, v.Holds 0 ys ∧ xs = ys.map fun y => y.elim .null .int32
  | .int64 v, xs => ∃ ys, v.Holds 0 ys ∧ xs = ys.map fun y => y.elim .null .int64
  | .float64 v, xs => ∃ ys, v.Holds .zero ys ∧ xs = ys.map fun y => y.elim .null .float64
  | .varchar v, xs => ∃ ys, v.Holds ys ∧ xs = ys.map fun y => y.elim .null .string

theorem holds_empty (ty : FieldType) : (empty ty).Holds [] := by
  cases ty
  case varchar => exact ⟨[], TextVector.holds_empty, rfl⟩
  all_goals exact ⟨[], FlatVector.holds_empty, rfl⟩

@[simp]
theorem type_empty (ty : FieldType) : (empty ty).type = ty := by
  cases ty <;> rfl

/-- A value that the column can hold is added at the end. -/
theorem push_holds {v : ColumnVector} {xs : List Value} {x : Value} (h : v.Holds xs)
    (hx : v.type.accepts x = true) :
    ∃ w, v.push x = .ok w ∧ w.Holds (xs ++ [x]) ∧ w.type = v.type := by
  cases v with
  | bool v =>
    obtain ⟨ys, hys, rfl⟩ := h
    cases x <;> simp [type, FieldType.accepts] at hx
    case null => exact ⟨_, rfl, ⟨_, FlatVector.push_holds hys none, by simp⟩, rfl⟩
    case bool b => exact ⟨_, rfl, ⟨_, FlatVector.push_holds hys (some b), by simp⟩, rfl⟩
  | int32 v =>
    obtain ⟨ys, hys, rfl⟩ := h
    cases x <;> simp [type, FieldType.accepts] at hx
    case null => exact ⟨_, rfl, ⟨_, FlatVector.push_holds hys none, by simp⟩, rfl⟩
    case int32 n => exact ⟨_, rfl, ⟨_, FlatVector.push_holds hys (some n), by simp⟩, rfl⟩
  | int64 v =>
    obtain ⟨ys, hys, rfl⟩ := h
    cases x <;> simp [type, FieldType.accepts] at hx
    case null => exact ⟨_, rfl, ⟨_, FlatVector.push_holds hys none, by simp⟩, rfl⟩
    case int64 n => exact ⟨_, rfl, ⟨_, FlatVector.push_holds hys (some n), by simp⟩, rfl⟩
  | float64 v =>
    obtain ⟨ys, hys, rfl⟩ := h
    cases x <;> simp [type, FieldType.accepts] at hx
    case null => exact ⟨_, rfl, ⟨_, FlatVector.push_holds hys none, by simp⟩, rfl⟩
    case float64 y => exact ⟨_, rfl, ⟨_, FlatVector.push_holds hys (some y), by simp⟩, rfl⟩
  | varchar v =>
    obtain ⟨ys, hys, rfl⟩ := h
    cases x <;> simp [type, FieldType.accepts] at hx
    case null => exact ⟨_, rfl, ⟨_, TextVector.push_holds hys none, by simp⟩, rfl⟩
    case string s => exact ⟨_, rfl, ⟨_, TextVector.push_holds hys (some s), by simp⟩, rfl⟩

theorem Holds.size {v : ColumnVector} {xs : List Value} (h : v.Holds xs) : v.size = xs.length := by
  cases v <;> obtain ⟨ys, hys, rfl⟩ := h <;> rw [ColumnVector.size, hys.size, List.length_map]

theorem Holds.get {v : ColumnVector} {xs : List Value} (h : v.Holds xs) {i : Nat}
    (hi : i < xs.length) : v.get i = xs[i] := by
  cases v <;> obtain ⟨ys, hys, rfl⟩ := h <;>
    simp only [ColumnVector.get, hys.get (by simpa using hi), List.getElem_map]

/-- The items are read back in order. -/
theorem toList_of_holds {v : ColumnVector} {xs : List Value} (h : v.Holds xs) : v.toList = xs := by
  apply List.ext_getElem
  · simp [toList, h.size]
  · intro i _ hi
    simp [toList, h.get hi]

end ColumnVector

end SegmentStore
