import SegmentStore.Proofs.Cells
import SegmentStore.Proofs.Membership

/-!
# What the writer of a column holds

* `ColumnWriter.Holds` describes the writer of a column by the values of its finished blocks and of the
  block begun: its streams, its zone map, its statistic and its bloom filters.
* `ColumnWriter.holds_startBlock`, `ColumnWriter.holds_add` and `ColumnWriter.holds_finishBlock` are the
  steps; `ColumnWriter.holds_step` is all that a row does to a column.
* `Column.zoneEntries` and `Column.bloomBytes` are the indexes of a column with the given blocks.
-/

namespace SegmentStore

open StreamWriter

namespace Column

/-- The column as a segment stores it. -/
def stored (c : Column) : StoredColumn := ⟨c.uniqueId, c.type, c.isNullable, .plain⟩

/-- The segment records which values of the column are null. -/
def recordsNulls (c : Column) (o : WriterOptions) : Bool := o.nullSupported && c.isNullable

/-- The segment keeps bloom filters of the column. -/
def hasBloom (c : Column) (o : WriterOptions) : Bool := o.bloomColumns.contains c.uniqueId

/-- The position of a block, given the values before it. -/
def blockStart (c : Column) (o : WriterOptions) (before : List Value) : List UInt64 :=
  startWords o.compressor? o.bufferSize.toNat (c.recordsNulls o) c.type before

/-- The zone map of some blocks that follow the values `before`. -/
def zoneEntries (c : Column) (o : WriterOptions) : List Value → List (List Value) → List ZoneMapEntry
  | _, [] => []
  | before, b :: bs => ⟨c.blockStart o before, .ofValues b⟩ :: zoneEntries c o (before ++ b) bs

/-- The bloom filter of a block, which leaves nulls out. -/
def blockBloom (o : WriterOptions) (b : List Value) : BloomFilter :=
  .ofValues o.bloomBits.toNat o.bloomHashes.toNat (b.filter fun v => !v.isNull)

/-- The bloom filters of some blocks. -/
def bloomBytes (o : WriterOptions) (bs : List (List Value)) : Bytes :=
  bs.flatMap fun b => (blockBloom o b).encode

variable {c : Column} {o : WriterOptions}

theorem zoneEntries_append (before : List Value) (bs cs : List (List Value)) :
    c.zoneEntries o before (bs ++ cs)
      = c.zoneEntries o before bs ++ c.zoneEntries o (before ++ bs.flatten) cs := by
  induction bs generalizing before with
  | nil => simp [zoneEntries]
  | cons b bs ih => simp [zoneEntries, ih]

@[simp]
theorem length_zoneEntries (before : List Value) (bs : List (List Value)) :
    (c.zoneEntries o before bs).length = bs.length := by
  induction bs generalizing before with
  | nil => rfl
  | cons b bs ih => simp [zoneEntries, ih]

theorem getElem_zoneEntries (bs : List (List Value)) {i : Nat} (hi : i < bs.length) :
    (c.zoneEntries o [] bs)[i]? = some ⟨c.blockStart o (bs.take i).flatten, .ofValues bs[i]⟩ := by
  have hsplit : bs = bs.take i ++ (bs[i] :: bs.drop (i + 1)) := by
    rw [List.getElem_cons_drop, List.take_append_drop]
  have hentries := congrArg (c.zoneEntries o []) hsplit
  rw [zoneEntries_append, List.nil_append, zoneEntries] at hentries
  have hlength : (c.zoneEntries o [] (bs.take i)).length = i := by
    rw [length_zoneEntries, List.length_take_of_le hi.le]
  rw [hentries, List.getElem?_append_right (by omega), hlength, Nat.sub_self]
  rfl

end Column

namespace ColumnWriter

/-- The writer of a column that has finished the blocks `done` and begun a block with `current`. -/
structure Holds (w : ColumnWriter) (o : WriterOptions) (c : Column) (done : List (List Value))
    (current : List Value) : Prop where
  column : w.column = c.stored
  present : w.present? = if c.recordsNulls o then
    some ((empty o.compressor? o.bufferSize.toNat).write
      ((done.flatten ++ current).map Value.nullByte)) else none
  data : w.data = (empty o.compressor? o.bufferSize.toNat).write
    ((done.flatten ++ current).flatMap (Value.stored c.type))
  zoneMap : w.zoneMap.toList = c.zoneEntries o [] done
  statistic : w.statistic = .ofValues current
  /-- A block that has begun knows where it starts. -/
  positions : current ≠ [] → w.positions = c.blockStart o done.flatten
  bloom : w.bloom? = if c.hasBloom o then
    some ⟨Column.blockBloom o current, (Column.bloomBytes o done).toArray⟩ else none
  accepts : ∀ v ∈ done.flatten ++ current, c.type.accepts v = true
  nulls : c.recordsNulls o = false → ∀ v ∈ done.flatten ++ current, v.isNull = false

variable {w : ColumnWriter} {o : WriterOptions} {c : Column}
variable {done : List (List Value)} {current : List Value} {v : Value}

theorem holds_columnWriter (o : WriterOptions) (c : Column) :
    (SegmentWriter.columnWriter o c).Holds o c [] [] where
  column := rfl
  present := rfl
  data := rfl
  zoneMap := rfl
  statistic := rfl
  positions h := absurd rfl h
  bloom := rfl
  accepts := by simp
  nulls := by simp

/-- A value is refused unless the column can hold it and can record it. -/
theorem fault?_eq_none (h : w.Holds o c done current) :
    w.fault? v = none ↔ c.type.accepts v = true ∧ (c.recordsNulls o = false → v.isNull = false) := by
  have hpresent : w.present?.isNone = !c.recordsNulls o := by
    rw [h.present]
    cases c.recordsNulls o <;> rfl
  rw [fault?, h.column, hpresent]
  cases haccepts : c.type.accepts v <;> cases hnull : v.isNull <;> cases hrec : c.recordsNulls o <;>
    simp [Column.stored, haccepts]

/-- Noting where a block starts changes nothing else, whatever was noted before. -/
theorem holds_startBlock (h : w.Holds o c done []) :
    w.startBlock.Holds o c done [] ∧ w.startBlock.positions = c.blockStart o done.flatten := by
  have hdata := h.data
  have hpresent := h.present
  rw [List.append_nil] at hdata hpresent
  refine ⟨⟨h.column, h.present, h.data, h.zoneMap, h.statistic, fun hne => absurd rfl hne, h.bloom,
    h.accepts, h.nulls⟩, ?_⟩
  rw [startBlock, hdata, hpresent, Column.blockStart, startWords]
  cases c.recordsNulls o <;> rfl

/-- One more value in a block that knows where it starts. -/
theorem holds_add (h : w.Holds o c done current)
    (hpositions : w.positions = c.blockStart o done.flatten) (hfault : w.fault? v = none) :
    (w.add v).Holds o c done (current ++ [v]) := by
  obtain ⟨haccepts, hnull⟩ := (fault?_eq_none h).mp hfault
  have hstored : (if v.isNull then w.column.type.default.plain else v.plain) = v.stored c.type := by
    rw [h.column]
    rfl
  have hbytes : (done.flatten ++ (current ++ [v])).map Value.nullByte
      = (done.flatten ++ current).map Value.nullByte ++ [flagByte v.isNull] := by simp [Value.nullByte]
  have hdata : (done.flatten ++ (current ++ [v])).flatMap (Value.stored c.type)
      = (done.flatten ++ current).flatMap (Value.stored c.type) ++ v.stored c.type := by simp
  refine ⟨h.column, ?_, ?_, h.zoneMap, ?_, fun _ => hpositions, ?_, ?_, ?_⟩
  · show w.present?.map (·.writeByte (flagByte v.isNull)) = _
    rw [h.present, hbytes, write_append, write_singleton]
    cases c.recordsNulls o <;> rfl
  · show w.data.write _ = _
    rw [hstored, h.data, hdata, write_append]
  · show w.statistic.add v = _
    rw [h.statistic, Statistic.ofValues_concat]
  · show (if v.isNull then w.bloom? else w.bloom?.map (·.add v)) = _
    rw [h.bloom]
    cases hbloom : c.hasBloom o <;> cases hv : v.isNull <;>
      simp [Column.blockBloom, hv, BloomFilter.ofValues, BloomWriter.add]
  · intro x hx
    rw [← List.append_assoc] at hx
    rcases List.mem_append.mp hx with hx | hx
    · exact h.accepts x hx
    · rwa [List.mem_singleton.mp hx]
  · intro hrec x hx
    rw [← List.append_assoc] at hx
    rcases List.mem_append.mp hx with hx | hx
    · exact h.nulls hrec x hx
    · rw [List.mem_singleton.mp hx]
      exact hnull hrec

/-- The block that has begun becomes a finished one. -/
theorem holds_finishBlock (h : w.Holds o c done current) (hne : current ≠ []) :
    w.finishBlock.Holds o c (done ++ [current]) [] := by
  have hflat : (done ++ [current]).flatten ++ [] = done.flatten ++ current := by simp
  refine ⟨h.column, ?_, ?_, ?_, rfl, fun hnil => absurd rfl hnil, ?_, ?_, ?_⟩
  · rw [hflat]
    exact h.present
  · rw [hflat]
    exact h.data
  · show (w.zoneMap.push ⟨w.positions, w.statistic⟩).toList = _
    rw [Array.toList_push, h.zoneMap, h.positions hne, h.statistic, Column.zoneEntries_append]
    rfl
  · show w.bloom?.map BloomWriter.finishBlock = _
    rw [h.bloom]
    cases c.hasBloom o with
    | false => rfl
    | true =>
      have hshape := BloomFilter.shape_ofValues o.bloomBits.toNat o.bloomHashes.toNat
        (current.filter fun v => !v.isNull)
      rw [if_pos rfl, if_pos rfl, Option.map_some, BloomWriter.finishBlock, Column.blockBloom,
        hshape.bitCount, hshape.hashes]
      simp [Column.bloomBytes, Column.blockBloom, BloomFilter.ofValues]
  · rw [hflat]
    exact h.accepts
  · rw [hflat]
    exact h.nulls

/-! ### What a row does to a column -/

/-- A row starts a block where there is none, and ends one that is full. -/
def step (rowsPerBlock rowsInBlock : Nat) (w : ColumnWriter) (v : Value) : ColumnWriter :=
  let w := (if rowsInBlock = 0 then w.startBlock else w).add v
  if rowsInBlock + 1 = rowsPerBlock then w.finishBlock else w

/-- A row goes to the block that has begun, which is put away once it is full. -/
theorem holds_step (rowsPerBlock : Nat) (h : w.Holds o c done current) (hfault : w.fault? v = none) :
    (w.step rowsPerBlock current.length v).Holds o c
      (cutStep rowsPerBlock (done, current) v).1 (cutStep rowsPerBlock (done, current) v).2 := by
  have hadd : ((if current.length = 0 then w.startBlock else w).add v).Holds o c done
      (current ++ [v]) := by
    by_cases hempty : current = []
    · subst hempty
      obtain ⟨hstart, hpositions⟩ := holds_startBlock h
      rw [List.length_nil, if_pos rfl]
      exact holds_add hstart hpositions hfault
    · rw [if_neg (by simpa using hempty)]
      exact holds_add h (h.positions hempty) hfault
  rw [step, cutStep, List.length_append, List.length_singleton]
  by_cases hfull : current.length + 1 = rowsPerBlock
  · rw [if_pos hfull, if_pos hfull]
    exact holds_finishBlock hadd (by simp)
  · rw [if_neg hfull, if_neg hfull]
    exact hadd

end ColumnWriter

end SegmentStore
