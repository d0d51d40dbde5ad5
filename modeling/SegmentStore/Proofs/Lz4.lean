import SegmentStore.Compression.Lz4
import SegmentStore.Proofs.Cursor
import SegmentStore.Proofs.Words

/-!
# LZ4 blocks read back

A block is written as sequences that were planned ahead. Each copies what stands earlier in the content, and a hash map
tells where.

* `Lz4.Sequence.Reads` says of a sequence that the content has its literals at a place and repeats itself behind them,
  `Lz4.Plans` says so of sequences one behind the other.
* `Lz4.plans_planFrom` says that what is planned reads the content. The invariant is `Lz4.Seen`: places in the hash map
  lie behind, under their own words.
* `Lz4.decodeSequences_append` reads the sequences of a block by induction, `Lz4.decodeBlock_encodeBlock` whole blocks.
* `Lz4.decompress_compress` and `Lz4.undoes` are about whole payloads.
-/

namespace SegmentStore.Lz4

variable {content : Bytes} {start stop fuel : Nat} {s : Sequence} {ss : List Sequence}

/-! ### What sequences say -/

/-- The literals of a sequence are the content from a place on, and its copy is what follows them. -/
structure Sequence.Reads (s : Sequence) (content : Bytes) (start : Nat) : Prop where
  literals : (content.drop start).take s.literals.length = s.literals
  offset_pos : 0 < s.offset
  offset_le : s.offset ≤ start + s.literals.length
  offset_lt : s.offset < 65536
  four_le : 4 ≤ s.matchLength
  within : start + s.literals.length + s.matchLength ≤ content.length
  repeats : ∀ k < s.matchLength, content[start + s.literals.length + k]?
    = content[start + s.literals.length + k - s.offset]?

/-- Sequences, one behind the other, are read from one place of the content to another. -/
inductive Plans (content : Bytes) : Nat → List Sequence → Nat → Prop
  | none (start : Nat) : Plans content start [] start
  | more {start stop : Nat} {s : Sequence} {ss : List Sequence} (hs : s.Reads content start)
      (hss : Plans content (start + s.literals.length + s.matchLength) ss stop) : Plans content start (s :: ss) stop

theorem Plans.concat (h : Plans content start ss stop) (hs : s.Reads content stop) :
    Plans content start (ss ++ [s]) (stop + s.literals.length + s.matchLength) := by
  induction h with
  | none start => exact .more hs (.none _)
  | more hs' _ ih => exact .more hs' (ih hs)

/-! ### Reading -/

/-- A copy of what stands earlier in the content makes the content grow. -/
theorem copyBack_take {i offset n : Nat} (hpos : 0 < offset) (hle : offset ≤ i) (hwithin : i + n ≤ content.length)
    (hrepeats : ∀ k < n, content[i + k]? = content[i + k - offset]?) :
    copyBack offset n (content.take i).toArray = (content.take (i + n)).toArray := by
  induction n generalizing i with
  | zero => rfl
  | succ n ih =>
    have hlength : (content.take i).length = i := List.length_take_of_le (by omega)
    have hbyte : (content.take i).toArray[(content.take i).toArray.size - offset]?.getD 0 = content[i] := by
      have hsame := hrepeats 0 (Nat.succ_pos n)
      rw [Nat.add_zero, List.getElem?_eq_getElem (by omega)] at hsame
      rw [List.size_toArray, hlength, List.getElem?_toArray, List.getElem?_take_of_lt (by omega), ← hsame]
      rfl
    have hgrown : (content.take i).toArray.push content[i] = (content.take (i + 1)).toArray := by
      rw [List.push_toArray, List.take_append_getElem (by omega)]
    rw [copyBack, hbyte, hgrown, ih (by omega) (by omega), Nat.add_assoc, Nat.add_comm 1]
    intro k hk
    have h := hrepeats (k + 1) (by omega)
    rwa [Nat.add_comm k, ← Nat.add_assoc] at h

theorem readExtension_replicate (n q : Nat) {b : UInt8} (hb : b ≠ 255) (rest : Bytes) :
    readExtension n (.replicate q 255 ++ b :: rest) = some (n + 255 * q + b.toNat, rest) := by
  induction q generalizing n with
  | zero => exact if_neg hb
  | succ q ih =>
    rw [List.replicate_succ, List.cons_append, readExtension, if_pos rfl, ih]
    congr 2
    omega

/-- A length that is written in four bits and more bytes is read back. -/
theorem readLength_extension (n : Nat) (rest : Bytes) :
    readLength (min n 15) (extension n ++ rest) = some (n, rest) := by
  rw [extension, readLength]
  by_cases hshort : n < 15
  · rw [if_pos hshort, Nat.min_eq_left (by omega), if_neg (by omega), List.nil_append]
  · have hlast : UInt8.ofNat ((n - 15) % 255) ≠ 255 := by
      intro h
      have hnat := congrArg UInt8.toNat h
      rw [UInt8.toNat_ofNat'] at hnat
      have : (255 : UInt8).toNat = 255 := rfl
      omega
    rw [if_neg hshort, Nat.min_eq_right (by omega), if_pos rfl, List.append_assoc, List.singleton_append,
      readExtension_replicate _ _ hlast, UInt8.toNat_ofNat']
    congr 2
    omega

/-- What is read of the literals. -/
theorem append_literals (hlits : (content.drop start).take s.literals.length = s.literals) :
    (content.take start).toArray ++ s.literals = (content.take (start + s.literals.length)).toArray := by
  apply Array.toList_inj.mp
  rw [Array.toList_appendList, List.take_add, hlits]

/-- A sequence that is written is read back, and what it says is put behind the content before it. -/
theorem decodeSequence_encodeSequence (hs : s.Reads content start) (rest : Bytes) :
    decodeSequence content.length (content.take start).toArray (encodeSequence s ++ rest)
      = some (.more (content.take (start + s.literals.length + s.matchLength)).toArray rest) := by
  obtain ⟨hlits, hpos, hle, hlt, hfour, hwithin, hrepeats⟩ := hs
  have htoken : (UInt8.ofNat (min s.literals.length 15 * 16 + min (s.matchLength - 4) 15)).toNat
      = min s.literals.length 15 * 16 + min (s.matchLength - 4) 15 := by
    rw [UInt8.toNat_ofNat', Nat.mod_eq_of_lt (by omega)]
  have hhigh : (min s.literals.length 15 * 16 + min (s.matchLength - 4) 15) / 16 = min s.literals.length 15 := by omega
  have hlow : (min s.literals.length 15 * 16 + min (s.matchLength - 4) 15) % 16 = min (s.matchLength - 4) 15 := by omega
  have hoffset : leBytes 2 s.offset = [UInt8.ofNat s.offset, UInt8.ofNat (s.offset / 256)] := rfl
  have hword : (UInt8.ofNat s.offset).toNat + 256 * (UInt8.ofNat (s.offset / 256)).toNat = s.offset := by
    rw [UInt8.toNat_ofNat', UInt8.toNat_ofNat']
    omega
  have hsize : (content.take (start + s.literals.length)).toArray.size = start + s.literals.length := by
    rw [List.size_toArray, List.length_take_of_le (by omega)]
  have hmatch : s.matchLength - 4 + 4 = s.matchLength := by omega
  have hroom : ¬content.length < start + s.literals.length := by omega
  have hroom' : ¬content.length < start + s.literals.length + (s.matchLength - 4) + 4 := by omega
  have hoff : (decide (s.offset = 0) || decide (start + s.literals.length < s.offset)) = false := by
    rw [decide_eq_false (by omega), decide_eq_false (by omega)]
    rfl
  rw [encodeSequence, hoffset]
  simp only [List.append_assoc, List.cons_append, List.nil_append, decodeSequence, htoken, hhigh, hlow,
    readLength_extension, Option.bind_eq_bind, Option.bind_some, splitExact?_append, append_literals hlits, hsize,
    if_neg hroom, hword, if_neg hroom', hoff, hmatch, copyBack_take hpos hle hwithin hrepeats]
  rfl

/-- The literals at the end of a block. -/
theorem decodeSequence_encodeLast (content : Bytes) (start : Nat) :
    decodeSequence content.length (content.take start).toArray (encodeLast (content.drop start))
      = some (.done content.toArray) := by
  have htoken : (UInt8.ofNat (min (content.drop start).length 15 * 16)).toNat / 16
      = min (content.drop start).length 15 := by
    rw [UInt8.toNat_ofNat', Nat.mod_eq_of_lt (by omega), Nat.mul_div_cancel _ (by omega)]
  have hsplit : splitExact? (content.drop start).length (content.drop start) = some (content.drop start, []) := by
    have h := splitExact?_append (content.drop start) []
    rwa [List.append_nil] at h
  have hall : (content.take start).toArray ++ content.drop start = content.toArray := by
    apply Array.toList_inj.mp
    rw [Array.toList_appendList, List.take_append_drop]
  have hroom : ¬content.length < content.toArray.size := Nat.lt_irrefl _
  rw [encodeLast]
  simp only [List.cons_append, decodeSequence, htoken, readLength_extension, Option.bind_eq_bind, Option.bind_some,
    hsplit, hall, if_neg hroom]

/-- Sequences and the literals behind them give the content that they were made from. -/
theorem decodeSequences_append (h : Plans content start ss stop) (hfuel : ss.length < fuel) :
    decodeSequences content.length fuel (content.take start).toArray
      (ss.flatMap encodeSequence ++ encodeLast (content.drop stop)) = some content.toArray := by
  obtain ⟨fuel, rfl⟩ := Nat.exists_eq_succ_of_ne_zero (Nat.ne_zero_of_lt hfuel)
  induction h generalizing fuel with
  | none start =>
    rw [List.flatMap_nil, List.nil_append, decodeSequences, decodeSequence_encodeLast]
  | more hs hss ih =>
    rw [List.length_cons] at hfuel
    obtain ⟨fuel, rfl⟩ := Nat.exists_eq_succ_of_ne_zero (show fuel ≠ 0 by omega)
    rw [List.flatMap_cons, List.append_assoc, decodeSequences, decodeSequence_encodeSequence hs]
    exact ih fuel (by omega)

/-! ### Planning -/

theorem between_toArray (content : Bytes) (i j : Nat) :
    between content.toArray i j = (content.drop i).take (j - i) := by
  rw [between, Array.toList_extract, List.extract_eq_take_drop]

theorem length_between {i j : Nat} (hj : j ≤ content.length) :
    (between content.toArray i j).length = j - i := by
  rw [between_toArray, List.length_take, List.length_drop]
  omega

theorem agreement_le (input : Array UInt8) (i j limit : Nat) : agreement input i j limit ≤ limit := by
  induction limit generalizing i j with
  | zero => exact Nat.le_refl 0
  | succ limit ih =>
    rw [agreement]
    split
    · exact Nat.succ_le_succ (ih _ _)
    · exact Nat.zero_le _

/-- Two places agree as far as was found. -/
theorem getElem?_of_lt_agreement {input : Array UInt8} {i j limit k : Nat} (hk : k < agreement input i j limit) :
    input[i + k]? = input[j + k]? := by
  induction limit generalizing i j k with
  | zero => exact absurd hk (Nat.not_lt_zero k)
  | succ limit ih =>
    rw [agreement] at hk
    split at hk
    · rename_i hsame
      cases k with
      | zero => exact hsame
      | succ k =>
        have h := ih (Nat.lt_of_succ_lt_succ hk)
        rwa [Nat.add_assoc, Nat.add_comm 1, Nat.add_assoc, Nat.add_comm 1] at h
    · exact absurd hk (Nat.not_lt_zero k)

/-- Places with the same word have the same four bytes. -/
theorem getElem?_of_wordAt {i j : Nat} (hi : i + 4 ≤ content.length) (hj : j + 4 ≤ content.length)
    (h : wordAt content.toArray i = wordAt content.toArray j) {k : Nat} (hk : k < 4) :
    content[i + k]? = content[j + k]? := by
  have hbytes : between content.toArray i (i + 4) = between content.toArray j (j + 4) := by
    rw [← leBytes_leNat (between content.toArray i (i + 4)), ← leBytes_leNat (between content.toArray j (j + 4)),
      length_between hi, length_between hj, Nat.add_sub_cancel_left, Nat.add_sub_cancel_left]
    exact congrArg (leBytes 4) h
  have hget : ∀ p, (between content.toArray p (p + 4))[k]? = content[p + k]? := by
    intro p
    rw [between_toArray, List.getElem?_take_of_lt (by omega), List.getElem?_drop]
  rw [← hget, ← hget, hbytes]

/-- Places with the same word agree on it and as far as was found behind it. -/
theorem getElem?_of_agreement {i j limit k : Nat} (hi : i + 4 ≤ content.length) (hj : j + 4 ≤ content.length)
    (h : wordAt content.toArray i = wordAt content.toArray j)
    (hk : k < 4 + agreement content.toArray (i + 4) (j + 4) limit) : content[i + k]? = content[j + k]? := by
  by_cases hword : k < 4
  · exact getElem?_of_wordAt hi hj h hword
  · have hrest := getElem?_of_lt_agreement (Nat.sub_lt_left_of_lt_add (Nat.le_of_not_lt hword) hk)
    rwa [List.getElem?_toArray, List.getElem?_toArray, Nat.add_assoc, Nat.add_assoc,
      Nat.add_sub_cancel' (Nat.le_of_not_lt hword)] at hrest

/-- The places that were seen lie before the one at hand, and have the words under which they are noted. -/
def Seen (content : Bytes) (i : Nat) (seen : Std.HashMap Nat Nat) : Prop :=
  ∀ w j, seen[w]? = some j → j < i ∧ wordAt content.toArray j = w

theorem Seen.insert {i : Nat} {seen : Std.HashMap Nat Nat} (h : Seen content i seen) :
    Seen content (i + 1) (seen.insert (wordAt content.toArray i) i) := by
  intro w j hj
  rw [Std.HashMap.getElem?_insert] at hj
  split at hj
  · rename_i hw
    obtain rfl := Option.some.inj hj
    exact ⟨Nat.lt_succ_self _, beq_iff_eq.mp hw⟩
  · obtain ⟨hlt, hword⟩ := h w j hj
    exact ⟨Nat.lt_succ_of_lt hlt, hword⟩

theorem Seen.mono {i i' : Nat} {seen : Std.HashMap Nat Nat} (h : Seen content i seen) (hle : i ≤ i') :
    Seen content i' seen := fun w j hj => ⟨Nat.lt_of_lt_of_le (h w j hj).1 hle, (h w j hj).2⟩

/-- A place whose word was seen before starts a copy of what stands there. -/
theorem reads_of_seen {anchor i j : Nat} (hanchor : anchor ≤ i) (hlt : j < i)
    (hfar : i + 12 ≤ content.length) (hword : wordAt content.toArray j = wordAt content.toArray i)
    (hnear : i - j ≤ 65535) :
    Sequence.Reads ⟨between content.toArray anchor i, i - j,
      4 + agreement content.toArray (j + 4) (i + 4) (content.toArray.size - 5 - (i + 4))⟩ content anchor := by
  have hlength : (between content.toArray anchor i).length = i - anchor := length_between (by omega)
  have hplace : anchor + (between content.toArray anchor i).length = i := by omega
  have hlimit := agreement_le content.toArray (j + 4) (i + 4) (content.toArray.size - 5 - (i + 4))
  rw [List.size_toArray] at hlimit
  constructor
  case literals =>
    dsimp only
    rw [hlength, between_toArray]
  case offset_pos => exact Nat.sub_pos_of_lt hlt
  case offset_le =>
    dsimp only
    omega
  case offset_lt => exact Nat.lt_succ_of_le hnear
  case four_le => exact Nat.le_add_right 4 _
  case within =>
    dsimp only
    rw [hplace, List.size_toArray]
    omega
  case repeats =>
    dsimp only
    rw [hplace]
    intro k hk
    have hback : i + k - (i - j) = j + k := by omega
    rw [hback]
    exact (getElem?_of_agreement (by omega) (by omega) hword hk).symm

/-- The sequences that are planned say what the content is, up to where the last literals start. -/
theorem plans_planFrom {anchor i : Nat} {seen : Std.HashMap Nat Nat} {acc : Array Sequence}
    (hacc : Plans content 0 acc.toList anchor) (hanchor : anchor ≤ i) (hseen : Seen content i seen) :
    Plans content 0 (planFrom content.toArray fuel anchor i seen acc).1.toList
      (planFrom content.toArray fuel anchor i seen acc).2 := by
  induction fuel generalizing anchor i seen acc with
  | zero => exact hacc
  | succ fuel ih =>
    rw [planFrom]
    split
    · exact hacc
    · rename_i hfar
      rw [List.size_toArray, Nat.not_lt] at hfar
      dsimp only
      split
      · rename_i j hj
        obtain ⟨hlt, hword⟩ := hseen _ _ hj
        split
        · rename_i hnear
          have hreads := reads_of_seen hanchor hlt hfar hword hnear
          have hplans := hacc.concat hreads
          dsimp only at hplans
          rw [length_between (by omega), Nat.add_sub_cancel' hanchor, ← Array.toList_push] at hplans
          exact ih hplans (Nat.le_refl _) (hseen.insert.mono (by omega))
        · exact ih hacc (by omega) hseen.insert
      · exact ih hacc (by omega) hseen.insert

/-! ### Blocks -/

theorem length_encodeSequence_pos (s : Sequence) : 0 < (encodeSequence s).length := by
  rw [encodeSequence, List.cons_append, List.cons_append, List.cons_append, List.length_cons]
  exact Nat.succ_pos _

/-- There are no more sequences than bytes of them. -/
theorem length_le_flatMap (ss : List Sequence) : ss.length ≤ (ss.flatMap encodeSequence).length := by
  induction ss with
  | nil => exact Nat.le_refl 0
  | cons s ss ih =>
    have hpos := length_encodeSequence_pos s
    rw [List.flatMap_cons, List.length_append, List.length_cons]
    omega

theorem encodeBlock_eq (content : Bytes) :
    encodeBlock content = (plan content.toArray).1.toList.flatMap encodeSequence
      ++ encodeLast (content.drop (plan content.toArray).2) := by
  rw [encodeBlock]
  dsimp only
  rw [between_toArray, List.size_toArray, List.take_of_length_le (Nat.le_of_eq List.length_drop)]

/-- A block that is written is read back. -/
theorem decodeBlock_encodeBlock (content : Bytes) :
    decodeBlock content.length (encodeBlock content) = some content := by
  have hplans : Plans content 0 (plan content.toArray).1.toList (plan content.toArray).2 :=
    plans_planFrom (.none 0) (Nat.le_refl 0) fun w j hj => by simp at hj
  have hfuel : (plan content.toArray).1.toList.length < (encodeBlock content).length + 1 := by
    have hsequences := length_le_flatMap (plan content.toArray).1.toList
    rw [encodeBlock_eq, List.length_append]
    omega
  have h := decodeSequences_append hplans hfuel
  rw [List.take_zero, ← encodeBlock_eq] at h
  rw [decodeBlock, h]
  rfl

/-- What is compressed is decompressed, if there is room for it and its size can be stated. -/
theorem decompress_compress {limit : Nat} (hroom : content.length ≤ limit) (hcontent : content.length < 2 ^ 32) :
    decompress limit (compress content) = .ok content := by
  have hsize : leNat (leBytes 4 content.length) = content.length := by
    rw [leNat_leBytes, Nat.mod_eq_of_lt (by omega)]
  rw [decompress, compress, splitExact?_leBytes]
  simp only [hsize, if_neg (Nat.not_lt.mpr hroom), decodeBlock_encodeBlock, if_true]

/-- What becomes smaller when it is compressed is made again from it. -/
theorem undoes {limit : Nat} (hlimit : limit < 2 ^ 32) : Undoes (some compress) (some decompress) limit := by
  intro compress' hcompress
  obtain rfl := Option.some.inj hcompress
  refine ⟨decompress, rfl, fun content hcontent hsmaller => ?_⟩
  rw [compress, List.length_append, length_leBytes] at hsmaller
  exact decompress_compress (by omega) (by omega)

end SegmentStore.Lz4
