import SegmentStore.Proofs.Cursor
import SegmentStore.Proofs.Items
import SegmentStore.Scan.ColumnReader
import SegmentStore.Segment.Writer

/-!
# Reading the values of a column

* `Value.stored` and `Value.nullByte` are the bytes of a value in the two streams of a column,
  `startWords` is the position of a block in them.
* `PlainReader.Ahead` says which values lie ahead of a reader; the streams of the reader hold all values
  of the column.
* `PlainReader.seek_ahead` leads to a block, `PlainReader.readCells_ahead` reads values off the front and
  leaves the rest ahead.
-/

namespace SegmentStore

open StreamWriter Decoder

/-! ### The streams of a column -/

namespace Value

/-- The bytes of a value in a data stream, a default standing for a null. -/
def stored (ty : FieldType) (v : Value) : Bytes := if v.isNull then ty.default.plain else v.plain

/-- The byte of a value in a present stream. -/
def nullByte (v : Value) : UInt8 := flagByte v.isNull

/-- Every value takes some bytes of the data stream, so a block that is not empty has data ahead. -/
theorem stored_ne_nil {ty : FieldType} {v : Value} : v.stored ty ≠ [] := by
  unfold stored
  split
  · cases ty <;> simp [FieldType.default, plain, u32Bytes, u64Bytes, leBytes]
  · rename_i hnull
    cases v <;> simp [plain, u32Bytes, u64Bytes, leBytes, isNull] at hnull ⊢

end Value

/-- The position of a block in the streams of a column, in words, given the values before it. -/
def startWords (compress? : Option (Bytes → Bytes)) (limit : Nat) (nullable : Bool) (ty : FieldType)
    (before : List Value) : List UInt64 :=
  (if nullable then
    ColumnWriter.words ((empty compress? limit).write (before.map Value.nullByte)).position
  else []) ++ ColumnWriter.words ((empty compress? limit).write (before.flatMap (Value.stored ty))).position

/-! ### Numbers and texts -/

theorem leNat_u32Bytes (x : UInt32) : leNat (u32Bytes x) = x.toNat := by
  rw [u32Bytes, leNat_leBytes]
  exact Nat.mod_eq_of_lt x.toNat_lt

theorem leNat_u64Bytes (x : UInt64) : leNat (u64Bytes x) = x.toNat := by
  rw [u64Bytes, leNat_leBytes]
  exact Nat.mod_eq_of_lt x.toNat_lt

namespace PlainReader

theorem length_stored {ty : FieldType} {v : Value} (hty : ty ≠ .varchar)
    (hv : ty.accepts v = true) : (v.stored ty).length = fixedWidth ty := by
  cases ty <;> cases v <;>
    simp_all [FieldType.accepts, Value.stored, Value.isNull, Value.plain, FieldType.default, fixedWidth,
      u32Bytes, u64Bytes]

theorem fixedValue_stored {ty : FieldType} {v : Value} (hty : ty ≠ .varchar)
    (hv : ty.accepts v = true) :
    (if v.isNull then Value.null else fixedValue ty (v.stored ty)) = v := by
  cases ty <;> cases v <;>
    simp_all [FieldType.accepts, Value.stored, Value.isNull, Value.plain, fixedValue, leNat_u32Bytes,
      leNat_u64Bytes]
  case bool.bool b => cases b <;> rfl

/-- A text stands behind its length, an empty one for a null. -/
theorem stored_varchar {v : Value} (hv : FieldType.varchar.accepts v = true) (hfits : v.Fits) :
    ∃ text, v.stored .varchar = u32Bytes (UInt32.ofNat text.length) ++ text
      ∧ text.length < 2 ^ 32
      ∧ (if v.isNull then .ok .null else textValue text) = .ok v := by
  cases v with
  | null =>
    refine ⟨[], ?_, by simp, rfl⟩
    simp [Value.stored, Value.isNull, FieldType.default, Value.plain, Utf8.encode]
  | string s =>
    refine ⟨Utf8.encode s, rfl, hfits, ?_⟩
    simp [Value.isNull, textValue]
  | _ => simp [FieldType.accepts] at hv

/-! ### What lies ahead of a reader -/

variable {f : SegmentFile} {compress? : Option (Bytes → Bytes)} {limit : Nat}
variable {vs : List Value} {r : PlainReader}

/-- The streams of the reader are those of a column with the values `vs`. -/
structure Stores (r : PlainReader) (f : SegmentFile) (compress? : Option (Bytes → Bytes))
    (limit : Nat) (vs : List Value) : Prop where
  data : r.data.Stores f compress? (pieces (max limit 1) (vs.flatMap (Value.stored r.type)))
  present : ∀ p, r.present? = some p →
    p.Stores f compress? (pieces (max limit 1) (vs.map Value.nullByte))
  /-- Without a present stream there are no nulls. -/
  nulls : r.present? = none → ∀ v ∈ vs, v.isNull = false
  accepts : ∀ v ∈ vs, r.type.accepts v = true
  fits : ∀ v ∈ vs, v.Fits

/-- What a reader keeps whatever its streams do. -/
def SameColumn (r s : PlainReader) : Prop :=
  s.uniqueId = r.uniqueId ∧ s.type = r.type ∧ s.present?.isSome = r.present?.isSome

/-- The values `ahead` are the next ones of the column. -/
structure Ahead (r : PlainReader) (f : SegmentFile) (compress? : Option (Bytes → Bytes))
    (limit : Nat) (vs ahead : List Value) : Prop where
  stores : r.Stores f compress? limit vs
  subset : ahead ⊆ vs
  data : r.data.Delivers f compress? (pieces (max limit 1) (vs.flatMap (Value.stored r.type)))
    (ahead.flatMap (Value.stored r.type))
  present : ∀ p, r.present? = some p →
    p.Delivers f compress? (pieces (max limit 1) (vs.map Value.nullByte)) (ahead.map Value.nullByte)

/-- The flag of the next value is read. -/
theorem readNull_ahead {v : Value} {ahead : List Value}
    (h : r.Ahead f compress? limit vs (v :: ahead)) :
    ∃ p?, r.readNull f = (.ok v.isNull, { r with present? := p? })
      ∧ p?.isSome = r.present?.isSome
      ∧ ∀ p, p? = some p →
        p.Delivers f compress? (pieces (max limit 1) (vs.map Value.nullByte))
          (ahead.map Value.nullByte) := by
  rcases hp : r.present? with _ | p
  · have hnull := h.stores.nulls hp v (h.subset List.mem_cons_self)
    have hr : { r with present? := none } = r := by rw [← hp]
    refine ⟨none, ?_, rfl, by simp⟩
    rw [hr]
    simp only [readNull, hp, hnull]
  · obtain ⟨p', hread, hp'⟩ := StreamReader.readByte_delivers (h.present p hp)
    refine ⟨some p', ?_, rfl, fun q hq => ?_⟩
    · have hflag : (v.nullByte != 0) = v.isNull := flagByte_bne_zero v.isNull
      simp only [readNull, hp, hread, Except.map, hflag]
    · rwa [← Option.some.inj hq]

/-- Some bytes of the data stream are read. -/
theorem readData_delivers {cs : List Bytes} {x data : Bytes}
    (h : r.data.Delivers f compress? cs (x ++ data)) :
    ∃ d, r.readData f x.length = (.ok x, { r with data := d }) ∧ d.Delivers f compress? cs data := by
  obtain ⟨d, hread, hd⟩ := StreamReader.read_delivers h
  exact ⟨d, by simp only [readData, hread], hd⟩

/-- The next value is read, and the others are then ahead. -/
theorem readCell_ahead {v : Value} {ahead : List Value}
    (h : r.Ahead f compress? limit vs (v :: ahead)) :
    ∃ s, r.readCell f = (.ok v, s) ∧ s.Ahead f compress? limit vs ahead ∧ r.SameColumn s := by
  have hv : v ∈ vs := h.subset List.mem_cons_self
  have hsub : ahead ⊆ vs := List.Subset.trans (List.subset_cons_self v ahead) h.subset
  have hdata := h.data
  rw [List.flatMap_cons] at hdata
  obtain ⟨p?, hnull, hsome, hp⟩ := readNull_ahead h
  -- whatever is read of the data, the reader left behind is `r` with streams moved
  have hleft : ∀ d : StreamReader,
      d.Delivers f compress? (pieces (max limit 1) (vs.flatMap (Value.stored r.type)))
        (ahead.flatMap (Value.stored r.type)) →
      Ahead { r with present? := p?, data := d } f compress? limit vs ahead
        ∧ r.SameColumn { r with present? := p?, data := d } := by
    intro d hd
    refine ⟨⟨⟨hd.1, fun p hpp => (hp p hpp).1, fun hnone => ?_, h.stores.accepts, h.stores.fits⟩, hsub, hd,
      hp⟩, rfl, rfl, hsome⟩
    have hnone' : p? = none := hnone
    rw [hnone'] at hsome
    exact h.stores.nulls (by simpa using hsome.symm)
  by_cases hty : r.type = .varchar
  · obtain ⟨text, hstored, htext, hvalue⟩ :=
      stored_varchar (hty ▸ h.stores.accepts v hv) (h.stores.fits v hv)
    rw [hty, hstored, List.append_assoc] at hdata
    have hwidth : (u32Bytes (UInt32.ofNat text.length)).length = fixedWidth r.type := by
      rw [hty]
      simp [u32Bytes, fixedWidth]
    obtain ⟨d, hread, hd⟩ := readData_delivers (r := { r with present? := p? }) hdata
    obtain ⟨e, hread', he⟩ := readData_delivers (r := { r with present? := p?, data := d }) hd
    rw [hwidth] at hread
    have hlen : leNat (u32Bytes (UInt32.ofNat text.length)) = text.length := by
      rw [leNat_u32Bytes, toNat_ofNat_u32 htext]
    rw [← hty] at he
    refine ⟨_, ?_, hleft e he⟩
    simp only [readCell, hnull, hread]
    rw [if_pos hty]
    simp only [hlen, hread', hvalue]
  · have hwidth := length_stored hty (h.stores.accepts v hv)
    obtain ⟨d, hread, hd⟩ := readData_delivers (r := { r with present? := p? }) hdata
    rw [hwidth] at hread
    refine ⟨_, ?_, hleft d hd⟩
    simp only [readCell, hnull, hread, hty, if_false, fixedValue_stored hty (h.stores.accepts v hv)]

/-- Values are read off the front into a vector of their type. -/
theorem readCells_ahead {xs ahead items : List Value} {v : ColumnVector}
    (h : r.Ahead f compress? limit vs (xs ++ ahead)) (hv : v.Holds items) (hty : v.type = r.type) :
    ∃ w s, r.readCells f xs.length v = (.ok w, s) ∧ w.Holds (items ++ xs) ∧ w.type = v.type
      ∧ s.Ahead f compress? limit vs ahead ∧ r.SameColumn s := by
  induction xs generalizing r v items with
  | nil => exact ⟨v, r, rfl, by simpa using hv, rfl, h, rfl, rfl, rfl⟩
  | cons x xs ih =>
    obtain ⟨s, hread, hs, hid, htype, hsome⟩ := readCell_ahead h
    have hx : v.type.accepts x = true :=
      hty ▸ h.stores.accepts x (h.subset List.mem_cons_self)
    obtain ⟨w, hpush, hw, hwtype⟩ := ColumnVector.push_holds hv hx
    obtain ⟨w', t, hrest, hw', hwtype', ht, hid', htype', hsome'⟩ :=
      ih hs hw (by rw [hwtype, hty, htype])
    refine ⟨w', t, ?_, by simpa using hw', by rw [hwtype', hwtype], ht, ?_⟩
    · rw [List.length_cons, readCells, hread]
      simp only [hpush, hrest]
    · exact ⟨by rw [hid', hid], by rw [htype', htype], by rw [hsome', hsome]⟩

/-! ### Going to a block -/

theorem seekStream_words {s : StreamReader} {p : Nat × Nat} {rest : List UInt64} :
    seekStream f s (ColumnWriter.words p ++ rest)
      = ((s.seek f (UInt64.ofNat p.1) (UInt64.ofNat p.2)).1.map fun _ => rest,
          (s.seek f (UInt64.ofNat p.1) (UInt64.ofNat p.2)).2) := rfl

/-- A stream goes to what was written after some bytes. -/
theorem seekStream_delivers (rest : List UInt64) {s : StreamReader} {data more : Bytes}
    (hmore : more ≠ []) (h : s.Stores f compress? (pieces (max limit 1) (data ++ more))) :
    ∃ t, seekStream f s (ColumnWriter.words ((empty compress? limit).write data).position ++ rest)
        = (.ok rest, t)
      ∧ t.Delivers f compress? (pieces (max limit 1) (data ++ more)) more := by
  obtain ⟨t, hseek, ht⟩ := StreamReader.seek_delivers hmore h
  refine ⟨t, ?_, ht⟩
  rw [seekStream_words, hseek]
  rfl

/-- The position of a block leads to its values, wherever the reader was. -/
theorem seek_ahead {before ahead : List Value} (h : r.Stores f compress? limit (before ++ ahead))
    (hahead : ahead ≠ []) :
    ∃ s, r.seek f (startWords compress? limit r.present?.isSome r.type before) = (.ok (), s)
      ∧ s.Ahead f compress? limit (before ++ ahead) ahead ∧ r.SameColumn s := by
  have hsub : ahead ⊆ before ++ ahead := List.subset_append_right before ahead
  have hdataNe : ahead.flatMap (Value.stored r.type) ≠ [] := by
    obtain ⟨v, hv⟩ := List.exists_mem_of_ne_nil ahead hahead
    intro hnil
    exact Value.stored_ne_nil (List.flatMap_eq_nil_iff.mp hnil v hv)
  have hdata := h.data
  rw [List.flatMap_append] at hdata
  obtain ⟨d, hseekData, hd⟩ := seekStream_delivers [] hdataNe hdata
  rw [← List.flatMap_append] at hd
  rw [List.append_nil] at hseekData
  rcases hp : r.present? with _ | p
  · refine ⟨{ r with data := d }, ?_, ⟨⟨hd.1, by simp [hp], ?_, h.accepts, h.fits⟩, hsub, hd, by simp [hp]⟩,
      rfl, rfl, rfl⟩
    · simp only [PlainReader.seek, seekNulls, hp, startWords, Option.isSome_none, Bool.false_eq_true,
        if_false, List.nil_append, hseekData, Except.map]
    · exact fun _ => h.nulls hp
  · have hpresent := h.present p hp
    rw [List.map_append] at hpresent
    have hpresentNe : ahead.map Value.nullByte ≠ [] := by simpa using hahead
    obtain ⟨q, hseekNulls, hq⟩ := seekStream_delivers
      (ColumnWriter.words
        ((empty compress? limit).write (before.flatMap (Value.stored r.type))).position)
      hpresentNe hpresent
    rw [← List.map_append] at hq
    have hmoved : ∀ q', some q = some q' →
        q'.Delivers f compress? (pieces (max limit 1) ((before ++ ahead).map Value.nullByte))
          (ahead.map Value.nullByte) := by
      rintro q' hq'
      rwa [← Option.some.inj hq']
    refine ⟨{ r with present? := some q, data := d }, ?_,
      ⟨⟨hd.1, fun q' hq' => (hmoved q' hq').1, by simp, h.accepts, h.fits⟩, hsub, hd, hmoved⟩, rfl, rfl,
      by simp [hp]⟩
    simp only [PlainReader.seek, seekNulls, hp, startWords, Option.isSome_some, if_true, hseekNulls,
      hseekData, Except.map]

end PlainReader

end SegmentStore
