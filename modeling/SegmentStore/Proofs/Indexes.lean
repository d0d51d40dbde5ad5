import SegmentStore.Proofs.Bounds
import SegmentStore.Proofs.Columns
import SegmentStore.Proofs.Header

/-!
# Indexes read back

* `ZoneMap.decode_encode` is the round trip of zone maps with bounds of the type of the column;
  `Column.decode_zoneEntries` is that of the zone map of a written column.
* `BloomFilter.decode_flatMap` cuts a stream of filters into these, `Column.decode_bloomBytes` does so with that of a
  written column.
-/

namespace SegmentStore

open Decoder

/-! ### Zone maps -/

namespace ZoneMapEntry

/-- The entry can be written: its count fits a byte, and its bounds are of the type. -/
structure Writable (e : ZoneMapEntry) (type : FieldType) : Prop where
  positions : e.positions.length < 256
  acceptsMin : type.accepts e.statistic.min = true
  acceptsMax : type.accepts e.statistic.max = true
  fitsMin : e.statistic.min.Fits
  fitsMax : e.statistic.max.Fits

theorem reads_encode {e : ZoneMapEntry} {type : FieldType} (h : e.Writable type) :
    Reads (decode type) e e.encode := by
  have henc : e.encode = [UInt8.ofNat e.positions.length] ++ (e.positions.flatMap u64Bytes
      ++ (e.statistic.min.encode ++ (e.statistic.max.encode ++ [flagByte e.statistic.hasNull]))) := by
    simp [encode]
  have hcount : (UInt8.ofNat e.positions.length).toNat = e.positions.length := by
    rw [UInt8.toNat_ofNat']
    exact Nat.mod_eq_of_lt h.positions
  have hflag : (!type.accepts e.statistic.min || !type.accepts e.statistic.max) = false := by
    rw [h.acceptsMin, h.acceptsMax]
    rfl
  rw [henc]
  refine (reads_u8 _).bind ?_
  rw [hcount]
  refine (Reads.many fun x _ => reads_u64 x).bind ?_
  refine (Value.reads_encode h.fitsMin).bind ((Value.reads_encode h.fitsMax).bind ?_)
  simp only [hflag, Bool.false_eq_true, if_false]
  exact (reads_flag e.statistic.hasNull).map

end ZoneMapEntry

namespace ZoneMap

theorem decode_encode {type : FieldType} {entries : List ZoneMapEntry}
    (h : ∀ e ∈ entries, e.Writable type) (hlength : entries.length < 2 ^ 32) :
    decode type (encode entries) = .ok entries := by
  have hmany : Reads (many (ZoneMapEntry.decode type) (UInt32.ofNat entries.length).toNat) entries
      (entries.flatMap ZoneMapEntry.encode) := by
    rw [toNat_ofNat_u32 hlength]
    exact Reads.many fun e he => ZoneMapEntry.reads_encode (h e he)
  exact ((reads_u32 _).bind hmany).whole _

end ZoneMap

namespace Column

variable {c : Column} {o : WriterOptions}

/-- A block has at most two positions of two numbers each. -/
theorem length_blockStart (c : Column) (o : WriterOptions) (before : List Value) :
    (c.blockStart o before).length ≤ 4 := by
  rw [blockStart, startWords]
  cases c.recordsNulls o <;> simp [ColumnWriter.words]

/-- Bounds are null or values of the block. -/
theorem bound_of_values {P : Value → Prop} {b : List Value} (hnull : P .null) (h : ∀ v ∈ b, P v) :
    P (Statistic.ofValues b).min ∧ P (Statistic.ofValues b).max := by
  have hdescribes := Statistic.describes_ofValues b
  constructor
  · cases hmin : (Statistic.ofValues b).min.isNull with
    | true =>
      rw [Value.eq_null hmin]
      exact hnull
    | false => exact h _ (hdescribes.min_mem hmin)
  · cases hmax : (Statistic.ofValues b).max.isNull with
    | true =>
      rw [Value.eq_null hmax]
      exact hnull
    | false => exact h _ (hdescribes.max_mem hmax)

theorem writable_zoneEntries {bs : List (List Value)} (before : List Value)
    (haccepts : ∀ v ∈ bs.flatten, c.type.accepts v = true) (hfits : ∀ v ∈ bs.flatten, v.Fits) :
    ∀ e ∈ c.zoneEntries o before bs, e.Writable c.type := by
  induction bs generalizing before with
  | nil => simp [zoneEntries]
  | cons b bs ih =>
    simp only [List.flatten_cons, List.mem_append] at haccepts hfits
    intro e he
    rcases List.mem_cons.mp he with rfl | he
    · have hstart := c.length_blockStart o before
      have htype : c.type.accepts .null = true := by cases c.type <;> rfl
      obtain ⟨hmin, hmax⟩ := bound_of_values (P := fun v => c.type.accepts v = true) htype
        fun v hv => haccepts v (.inl hv)
      obtain ⟨hminFits, hmaxFits⟩ := bound_of_values (P := Value.Fits) trivial
        fun v hv => hfits v (.inl hv)
      exact ⟨by simp only; omega, hmin, hmax, hminFits, hmaxFits⟩
    · exact ih (before ++ b) (fun v hv => haccepts v (.inr hv)) (fun v hv => hfits v (.inr hv)) e he

/-- The zone map of a written column is read back. -/
theorem decode_zoneEntries {bs : List (List Value)}
    (haccepts : ∀ v ∈ bs.flatten, c.type.accepts v = true) (hfits : ∀ v ∈ bs.flatten, v.Fits)
    (hlength : bs.length < 2 ^ 32) :
    ZoneMap.decode c.type (ZoneMap.encode (c.zoneEntries o [] bs)) = .ok (c.zoneEntries o [] bs) :=
  ZoneMap.decode_encode (writable_zoneEntries [] haccepts hfits) (by rwa [length_zoneEntries])

end Column

/-! ### Bloom filters -/

namespace BloomFilter

/-- Filters of one size are cut apart again. -/
theorem split_flatMap {bits hashes : Nat} {fs : List BloomFilter} (h : ∀ f ∈ fs, f.Shape bits hashes) :
    split bits hashes ((bits + 7) / 8) fs.length (fs.flatMap encode) = fs := by
  induction fs with
  | nil => rfl
  | cons f fs ih =>
    obtain ⟨rfl, rfl, hsize⟩ := h f List.mem_cons_self
    have hlength : f.encode.length = (f.bitCount + 7) / 8 := by rw [encode, Array.length_toList, hsize]
    rw [List.length_cons, split, List.flatMap_cons, ← hlength, List.take_left, List.drop_left, hlength,
      ih fun g hg => h g (List.mem_cons_of_mem f hg)]
    rfl

/-- A stream of filters is cut into these. -/
theorem decode_flatMap {bits hashes : Nat} (hvalid : validParameters bits hashes = true) {fs : List BloomFilter}
    (h : ∀ f ∈ fs, f.Shape bits hashes) : decode bits hashes (fs.flatMap encode) = .ok fs := by
  have hbits : bits ≠ 0 ∧ bits % 8 = 0 := by
    simp only [validParameters, Bool.and_eq_true, bne_iff_ne, beq_iff_eq] at hvalid
    exact hvalid.1
  have hwhole : (bits + 7) / 8 = bits / 8 := by omega
  have hpos : 0 < bits / 8 := by omega
  have hsize : ∀ f ∈ fs, f.encode.length = bits / 8 := fun f hf => by
    rw [encode, Array.length_toList, (h f hf).size, hwhole]
  have hlength : (fs.flatMap encode).length = bits / 8 * fs.length := by
    rw [List.length_flatMap, List.map_congr_left hsize, List.map_const', List.sum_replicate_nat, Nat.mul_comm]
  have hsplit := split_flatMap h
  rw [hwhole] at hsplit
  simp only [decode, hvalid, hlength, Nat.mul_mod_right, Nat.mul_div_cancel_left _ hpos, Bool.not_true,
    Bool.false_eq_true, if_false, bne_self_eq_false, hsplit]

end BloomFilter

namespace Column

/-- The bloom filters of a written column are read back. -/
theorem decode_bloomBytes {o : WriterOptions} (bs : List (List Value))
    (hvalid : BloomFilter.validParameters o.bloomBits.toNat o.bloomHashes.toNat = true) :
    BloomFilter.decode o.bloomBits.toNat o.bloomHashes.toNat (bloomBytes o bs)
      = .ok (bs.map (blockBloom o)) := by
  have hshape : ∀ f ∈ bs.map (blockBloom o), f.Shape o.bloomBits.toNat o.bloomHashes.toNat := by
    intro f hf
    obtain ⟨b, -, rfl⟩ := List.mem_map.mp hf
    exact BloomFilter.shape_ofValues _ _ _
  rw [bloomBytes, ← List.flatMap_map, BloomFilter.decode_flatMap hvalid hshape]

end Column

end SegmentStore
