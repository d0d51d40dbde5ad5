import SegmentStore.Compression.Kind
import SegmentStore.Proofs.Cursor
import SegmentStore.Proofs.Words

/-!
# Zstandard frames read back

A frame is written as raw blocks and blocks that repeat one byte. The decoder knows many more kinds of blocks.

* `Zstd.IsBlock` says of bytes that they are a block of some content. `Zstd.isBlock_encodeBlock` says so of each block
  that is written, and `Zstd.decodeBlocks?_encodeBlocks` reads the blocks of a frame by induction.
* `Zstd.decompress_compress` and `Zstd.undoes` are about whole payloads.
-/

namespace SegmentStore.Zstd

variable {content : Bytes}

/-! ### Blocks -/

/-- The bytes are a block of some content, the last one or not: they are not
empty, and what is read of them is put behind any output. -/
structure IsBlock (last : Bool) (content block : Bytes) : Prop where
  length_pos : 0 < block.length
  decoded : ∀ {origin capacity limit fuel : Nat} {state : BlockState} {out : Array UInt8} {rest : Bytes},
    out.size + content.length ≤ capacity →
      decodeBlocks? origin capacity limit state (block ++ rest) out (fuel + 1)
        = if last then some (out ++ content, rest)
          else decodeBlocks? origin capacity limit state rest (out ++ content) fuel

theorem isBlock_raw (last : Bool) (hcontent : content.length ≤ blockLimit) :
    IsBlock last content (leBytes 3 (content.length * 8 + last.toNat) ++ content) where
  length_pos := by
    rw [List.length_append, length_leBytes]
    omega
  decoded {origin capacity limit fuel state out rest} hroom := by
    have hlast := last.toNat_le
    rw [blockLimit] at hcontent
    have hheader : leNat (leBytes 3 (content.length * 8 + last.toNat)) = content.length * 8 + last.toNat := by
      rw [leNat_leBytes, Nat.mod_eq_of_lt (by omega)]
    have hkind : (content.length * 8 + last.toNat) / 2 % 4 = 0 := by omega
    have hsize : (content.length * 8 + last.toNat) / 8 = content.length := by omega
    have hmark : (content.length * 8 + last.toNat) % 2 = last.toNat := by omega
    have happend : appendLiterals? capacity out content = some (out ++ content) := by
      rw [appendLiterals?, size_appendList, if_neg (Nat.not_lt.mpr hroom)]
    rw [List.append_assoc, decodeBlocks?, splitExact?_leBytes]
    simp only [Option.bind_eq_bind, Option.bind_some, hheader, hkind, hsize, hmark, splitExact?_append, happend]
    cases last <;> rfl

theorem isBlock_repeated (last : Bool) (b : UInt8) {n : Nat} (hn : n ≤ blockLimit) :
    IsBlock last (.replicate n b) (leBytes 3 (n * 8 + last.toNat + 2) ++ [b]) where
  length_pos := by
    rw [List.length_append, length_leBytes]
    omega
  decoded {origin capacity limit fuel state out rest} hroom := by
    have hlast := last.toNat_le
    rw [blockLimit] at hn
    rw [List.length_replicate] at hroom
    have hheader : leNat (leBytes 3 (n * 8 + last.toNat + 2)) = n * 8 + last.toNat + 2 := by
      rw [leNat_leBytes, Nat.mod_eq_of_lt (by omega)]
    have hkind : (n * 8 + last.toNat + 2) / 2 % 4 = 1 := by omega
    have hsize : (n * 8 + last.toNat + 2) / 8 = n := by omega
    have hmark : (n * 8 + last.toNat + 2) % 2 = last.toNat := by omega
    have happend : out ++ Array.replicate n b = out ++ List.replicate n b := by
      apply Array.toList_inj.mp
      rw [Array.toList_append, Array.toList_appendList, Array.toList_replicate]
    rw [List.append_assoc, List.singleton_append, decodeBlocks?, splitExact?_leBytes]
    simp only [Option.bind_eq_bind, Option.bind_some, hheader, hkind, hsize, hmark, if_neg (Nat.not_lt.mpr hroom),
      happend]
    cases last <;> rfl

theorem isBlock_encodeBlock (last : Bool) (hcontent : content.length ≤ blockLimit) :
    IsBlock last content (encodeBlock last content) := by
  cases content with
  | nil => exact isBlock_raw last hcontent
  | cons b tail =>
    rw [encodeBlock.eq_def]
    dsimp only
    split
    · rename_i hsame
      have hrepeated : b :: tail = .replicate (b :: tail).length b := by
        rw [List.eq_replicate_iff]
        refine ⟨rfl, List.forall_mem_cons.mpr ⟨rfl, fun c hc => ?_⟩⟩
        exact of_decide_eq_true (List.all_eq_true.mp hsame c hc)
      have hblock := isBlock_repeated last b hcontent
      rwa [← hrepeated] at hblock
    · exact isBlock_raw last hcontent

/-- Content that is written as blocks is read back, if there may be as many blocks as it fills. -/
theorem decodeBlocks?_encodeBlocks {origin capacity limit fuel : Nat} {state : BlockState} {out : Array UInt8}
    {rest : Bytes} {n : Nat} (hn : content.length / blockLimit ≤ n) (hfuel : (encodeBlocks n content).length < fuel)
    (hroom : out.size + content.length ≤ capacity) :
    decodeBlocks? origin capacity limit state (encodeBlocks n content ++ rest) out fuel
      = some (out ++ content, rest) := by
  obtain ⟨fuel, rfl⟩ := Nat.exists_eq_succ_of_ne_zero (Nat.ne_zero_of_lt hfuel)
  induction n generalizing content out fuel with
  | zero =>
    have hcontent : content.length ≤ blockLimit :=
      Nat.le_of_lt ((Nat.div_eq_zero_iff_lt (by decide)).mp (Nat.le_zero.mp hn))
    exact (isBlock_encodeBlock true hcontent).decoded hroom
  | succ n ih =>
    rw [encodeBlocks] at hfuel ⊢
    split at hfuel
    · rename_i hcontent
      rw [if_pos hcontent]
      exact (isBlock_encodeBlock true hcontent).decoded hroom
    · rename_i hlong
      have htake : (content.take blockLimit).length = blockLimit := by
        rw [List.length_take]
        omega
      have hdrop : (content.drop blockLimit).length = content.length - blockLimit := List.length_drop
      have hblocks : (content.drop blockLimit).length / blockLimit ≤ n := by
        rw [Nat.div_eq_sub_div (by decide) (Nat.le_of_not_le hlong)] at hn
        rw [hdrop]
        exact Nat.le_of_succ_le_succ hn
      have hfirst := isBlock_encodeBlock false (Nat.le_of_eq htake)
      have hpos := hfirst.length_pos
      rw [List.length_append] at hfuel
      obtain ⟨fuel, rfl⟩ := Nat.exists_eq_succ_of_ne_zero (show fuel ≠ 0 by omega)
      have hroom' : (out ++ content.take blockLimit).size + (content.drop blockLimit).length ≤ capacity := by
        rw [size_appendList]
        omega
      rw [if_neg hlong, List.append_assoc, hfirst.decoded (by omega), if_neg (by decide),
        ih hblocks hroom' fuel (by omega), appendList_appendList, List.take_append_drop]

/-! ### Frames -/

/-- A header with a size of eight bytes and nothing else. -/
theorem readHeader?_append {n : Nat} (hn : n < 2 ^ 64 - 1) (rest : Bytes) :
    readHeader? (0xE0 :: (leBytes 8 n ++ rest)) = some (⟨n, some n, false⟩, rest) := by
  have hsize : leNat (leBytes 8 n) = n := by
    rw [leNat_leBytes, Nat.mod_eq_of_lt (by omega)]
  have hknown : n ≠ 0xFFFFFFFFFFFFFFFF := by omega
  have hnone : splitExact? (at0 [0, 1, 2, 4] 0) (leBytes 8 n ++ rest) = some ([], leBytes 8 n ++ rest) :=
    splitExact?_append [] _
  have hdictionary : leNat [] = 0 := rfl
  simp [readHeader?, hnone, splitExact?_leBytes, hsize, hknown, hdictionary]

/-- A frame that is written is read back. -/
theorem decodeFrame?_encodeBlocks (hcontent : content.length < 2 ^ 64 - 1) {capacity : Nat}
    (hroom : content.length ≤ capacity) :
    decodeFrame? capacity (0xE0 :: (leBytes 8 content.length ++ encodeBlocks (content.length / blockLimit) content)) #[]
      = some (content.toArray, []) := by
  have hempty : (#[] : Array UInt8) ++ content = content.toArray := by
    apply Array.toList_inj.mp
    rw [Array.toList_appendList]
    rfl
  have hblocks : ∀ state limit, decodeBlocks? 0 capacity limit state
      (encodeBlocks (content.length / blockLimit) content) #[]
      ((encodeBlocks (content.length / blockLimit) content).length + 1) = some (content.toArray, []) := by
    intro state limit
    rw [← hempty, ← List.append_nil (encodeBlocks _ content)]
    refine decodeBlocks?_encodeBlocks (Nat.le_refl _) ?_ (by simpa)
    rw [List.append_nil]
    exact Nat.lt_succ_self _
  have hlong : ¬(0xE0 :: (leBytes 8 content.length
      ++ encodeBlocks (content.length / blockLimit) content)).length < 5 := by
    rw [List.length_cons, List.length_append, length_leBytes]
    omega
  rw [decodeFrame?, if_neg hlong, readHeader?_append hcontent]
  simp only [Option.bind_eq_bind, Option.bind_some]
  rw [show (#[] : Array UInt8).size = 0 from rfl, hblocks]
  simp

/-! ### Payloads -/

theorem compress_eq (content : Bytes) :
    compress content = leBytes 4 frameMagic
      ++ (0xE0 :: (leBytes 8 content.length ++ encodeBlocks (content.length / blockLimit) content)) := by
  simp [compress, encodeFrame]

theorem five_le_length_compress (content : Bytes) : 5 ≤ (compress content).length := by
  rw [compress_eq, List.length_append, length_leBytes, List.length_cons]
  omega

/-- What is compressed is decompressed, if there is room for it and its size can be stated. -/
theorem decompress_compress {limit : Nat} (hroom : content.length ≤ limit) (hcontent : content.length < 2 ^ 64 - 1) :
    decompress limit (compress content) = .ok content := by
  have hmagic : leNat (leBytes 4 frameMagic) = frameMagic := by decide
  have hskip : ¬frameMagic / 16 = skipMagic / 16 := by decide
  have hlength := five_le_length_compress content
  have hne : (compress content).isEmpty = false := by
    rw [List.isEmpty_eq_false_iff, ← List.length_pos_iff]
    omega
  have hread : ∀ fuel, decodeFrames? limit (compress content) #[] (fuel + 1 + 1) = some content.toArray := by
    intro fuel
    rw [decodeFrames?, hne, if_neg (by decide), if_neg (by omega), compress_eq, splitExact?_leBytes]
    simp only [Option.bind_eq_bind, Option.bind_some, hmagic, if_neg hskip, if_true,
      decodeFrame?_encodeBlocks hcontent hroom]
    rfl
  obtain ⟨fuel, hfuel⟩ := Nat.exists_eq_succ_of_ne_zero (show (compress content).length ≠ 0 by omega)
  rw [decompress, hfuel, hread]

/-- What becomes smaller when it is compressed is made again from it. -/
theorem undoes {limit : Nat} (hlimit : limit < 2 ^ 64 - 1) : Undoes (some compress) (some decompress) limit := by
  intro compress' hcompress
  obtain rfl := Option.some.inj hcompress
  refine ⟨decompress, rfl, fun content hcontent hsmaller => ?_⟩
  have hlength := five_le_length_compress content
  exact decompress_compress (by omega) (by omega)

end SegmentStore.Zstd
