import SegmentStore.Proofs.Framing

/-!
# Headers written, read and written again

A header is read without suspicion: any byte but zero is a true flag, and bytes of the body behind the last stream are
ignored. What comes out is a header like any other.

* `SegmentHeader.laid_of_readFrom` says how a file starts that a header was read from.
* `SegmentHeader.takes_decodeBody` says that the body of the header that is read is as long as what was taken to read it.
* `SegmentHeader.encode_reads_back` is the round trip of headers, from the header and from the file.
-/

namespace SegmentStore

open Decoder

namespace Decoder

/-- Values of one width, over and over. -/
theorem Takes.many_width {α : Type} {d : Decoder α} {width : Nat} (hd : Takes d fun front _ => front.length = width)
    (n : Nat) : Takes (Decoder.many d n) fun front xs => front.length = width * xs.length := by
  apply (hd.many (R := fun front xs => front.length = width * xs.length) rfl _ n).mono And.right
  intro front x back xs hfront hback
  rw [List.length_append, hfront, hback, List.length_cons, Nat.mul_succ, Nat.add_comm]

end Decoder

namespace SegmentHeader

/-! ### What is taken of the bytes -/

theorem takes_decodeColumn : Takes decodeColumn fun front _ => front.length = 7 := by
  apply takes_u32.bind
  rintro _ uid rfl
  apply takes_u8.bind
  rintro _ typeTag rfl
  apply (takes_named _ _).bind
  rintro _ type ⟨rfl, -⟩
  apply takes_flag.bind
  rintro _ isNullable ⟨mark, rfl, -⟩
  apply takes_u8.bind
  rintro _ encodingTag rfl
  apply (takes_named _ _).map
  rintro _ encoding ⟨rfl, -⟩
  simp [u32Bytes]

theorem takes_decodeStream : Takes decodeStream fun front _ => front.length = 13 := by
  apply takes_u32.bind
  rintro _ uid rfl
  apply takes_u8.bind
  rintro _ kindTag rfl
  apply (takes_named _ _).bind
  rintro _ kind ⟨rfl, -⟩
  apply takes_u64.map
  rintro _ length rfl
  simp [u32Bytes, u64Bytes]

/-- Flags may have been written in other ways, but never in more bytes or in fewer. -/
theorem takes_decodeBody (magic : Vector UInt8 11) (version : UInt32) :
    Takes (decodeBody magic version) fun front h => front.length = h.encodeBody.length := by
  apply takes_u64.bind
  rintro _ rowCount rfl
  apply takes_u32.bind
  rintro _ rowsPerBlock rfl
  apply takes_u32.bind
  rintro _ compression rfl
  apply takes_u32.bind
  rintro _ bufferSize rfl
  apply takes_u32.bind
  rintro _ bloomHashes rfl
  apply takes_u32.bind
  rintro _ bloomBits rfl
  apply takes_flag.bind
  rintro _ nullSupported ⟨mark, rfl, -⟩
  apply takes_u32.bind
  rintro _ columnCount rfl
  apply (takes_decodeColumn.many_width columnCount.toNat).bind
  intro front columns hcolumns
  apply takes_u32.bind
  rintro _ streamCount rfl
  apply (takes_decodeStream.many_width streamCount.toNat).map
  intro back streams hstreams
  rw [length_encodeBody]
  simp only [List.length_append, List.length_cons, List.length_nil, u32Bytes, u64Bytes, length_leBytes, hcolumns,
    hstreams]
  omega

/-- The bytes before the body are those of the front that they are read as. -/
theorem takes_decodeFront : Takes decodeFront fun bs x => bs = x.encode := by
  apply (takes_bytes 11 .endOfBuffer).bind
  rintro magic _ ⟨rfl, hmagic⟩
  apply takes_u32.bind
  rintro _ version rfl
  apply takes_u32.bind
  rintro _ bodyLength rfl
  apply takes_u32.map
  rintro _ checksum rfl
  have hlist : (Vector.ofFn fun i : Fin 11 => magic[i]?.getD 0).toList = magic := by
    have h := ofFn_toList ⟨magic.toArray, by rw [List.size_toArray, hmagic]⟩
    exact congrArg Vector.toList h
  rw [Front.encode, hlist]

/-! ### Files that a header is read from -/

/-- A file that a header was read from starts with a front, a body that has the checksum of the front, and whatever
follows. -/
theorem laid_of_readFrom {file : SegmentFile} {h : SegmentHeader} {length : UInt64}
    (hread : readFrom file = .ok (h, length)) :
    ∃ x body rest, Laid file x body rest ∧ verify .header x.checksum body = .ok ()
      ∧ (∃ left, decodeBody x.magic x.version body = .ok (h, left))
      ∧ length = UInt64.ofNat (prefixSize + body.length) := by
  have hwhole := hread
  rw [readFrom] at hread
  by_cases hsmall : file.size < prefixSize
  · rw [if_pos hsmall] at hread
    cases hread
  simp only [hsmall, if_false] at hread
  obtain ⟨start, hstart, hread⟩ := bind_eq_ok.mp hread
  obtain ⟨⟨x, behind⟩, hfront, hread⟩ := bind_eq_ok.mp hread
  by_cases hlong : file.size < prefixSize + x.bodyLength.toNat
  · simp only [hlong, if_true] at hread
    cases hread
  rw [SegmentFile.readAt_eq_ok file (by omega) (by omega), List.drop_zero] at hstart
  obtain ⟨front, hbehind, hencode, -⟩ := takes_decodeFront (ok_of_liftFault hfront)
  subst hencode
  have hsize := file.length_toList
  -- the front takes all of the bytes before the body
  obtain rfl : behind = [] := by
    have hlength := congrArg List.length (Except.ok.inj hstart)
    rw [List.length_take, hbehind, List.length_append, x.length_encode] at hlength
    exact List.eq_nil_of_length_eq_zero (by omega)
  rw [List.append_nil] at hbehind
  have hlaid : Laid file x ((file.toList.drop prefixSize).take x.bodyLength.toNat)
      ((file.toList.drop prefixSize).drop x.bodyLength.toNat) := by
    constructor
    · rw [List.take_append_drop, ← hbehind, ← Except.ok.inj hstart, List.take_append_drop]
    · rw [List.length_take, List.length_drop]
      omega
  rw [hlaid.readFrom] at hwhole
  obtain ⟨⟨⟩, hverify, hwhole⟩ := bind_eq_ok.mp hwhole
  obtain ⟨⟨h', left⟩, hdecode, hwhole⟩ := bind_eq_ok.mp hwhole
  obtain ⟨rfl, rfl⟩ := Prod.mk.inj (Except.ok.inj hwhole)
  exact ⟨x, _, _, hlaid, ok_of_liftFault hverify, ⟨left, ok_of_liftFault hdecode⟩, rfl⟩

/-- A header that was read is no longer than what it was read from. -/
theorem length_encode_le {file : SegmentFile} {h : SegmentHeader} {length : UInt64}
    (hread : readFrom file = .ok (h, length)) :
    h.encodeBody.length < 2 ^ 32 ∧ h.encode.length ≤ length.toNat := by
  obtain ⟨x, body, rest, hlaid, -, ⟨left, hdecode⟩, rfl⟩ := laid_of_readFrom hread
  obtain ⟨taken, rfl, htaken, -⟩ := takes_decodeBody x.magic x.version hdecode
  have hnarrow := x.bodyLength.toNat_lt
  have hbody := hlaid.bodyLength
  rw [List.length_append, htaken] at hbody
  rw [List.length_append, htaken, toNat_ofNat_u64 (by rw [prefixSize]; omega), length_encode]
  exact ⟨by omega, by omega⟩

/-- The number of bytes of a header that can be written fits a word. -/
theorem toNat_length_encode {h : SegmentHeader} (hbody : h.encodeBody.length < 2 ^ 32) :
    (UInt64.ofNat h.encode.length).toNat = h.encode.length := by
  rw [length_encode, toNat_ofNat_u64 (by rw [prefixSize]; omega)]

/-- A header is read back from its bytes, whatever follows them. What is read from any file is a header that is read back
from its own bytes, and these are no more than it was read from. -/
theorem encode_reads_back :
    (∀ (h : SegmentHeader) (file : SegmentFile) (rest : Bytes), h.encodeBody.length < 2 ^ 32 →
      file.toList = h.encode ++ rest →
      ∃ length, readFrom file = .ok (h, length) ∧ length.toNat = h.encode.length) ∧
    ∀ (file : SegmentFile) (h : SegmentHeader) (length : UInt64), readFrom file = .ok (h, length) →
      ∀ (again : SegmentFile) (rest : Bytes), again.toList = h.encode ++ rest →
        ∃ length', readFrom again = .ok (h, length') ∧ length'.toNat = h.encode.length ∧ length' ≤ length := by
  constructor
  · intro h file rest hbody hfile
    exact ⟨_, readFrom_encode hfile hbody, toNat_length_encode hbody⟩
  · intro file h length hread again rest hagain
    obtain ⟨hbody, hle⟩ := length_encode_le hread
    have hlength := toNat_length_encode hbody
    refine ⟨_, readFrom_encode hagain hbody, hlength, ?_⟩
    rw [UInt64.le_iff_toNat_le, hlength]
    exact hle

/-- A segment of one column of whole numbers, with an index and the values. -/
def numbersHeader : SegmentHeader :=
  { magic := segmentMagic, version := currentVersion, rowCount := 4096, rowsPerBlock := 1024, compression := 1,
    bufferSize := 65536, bloomHashes := 4, bloomBits := 4096, nullSupported := true,
    columns := [⟨7, .int64, true, .plain⟩], streams := [⟨7, .rowIndex, 100⟩, ⟨7, .data, 200⟩] }

theorem encode_reads_back_numbers :
    ∃ length, readFrom ⟨.positioned, ⟨(numbersHeader.encode ++ [0, 0]).toArray⟩⟩ = .ok (numbersHeader, length)
      ∧ ∃ length', readFrom ⟨.memory, ⟨numbersHeader.encode.toArray⟩⟩ = .ok (numbersHeader, length')
        ∧ length'.toNat = 93 ∧ length' ≤ length := by
  have hbody : numbersHeader.encodeBody.length = 70 := by rw [length_encodeBody]; rfl
  obtain ⟨length, hread, -⟩ := encode_reads_back.1 numbersHeader
    ⟨.positioned, ⟨(numbersHeader.encode ++ [0, 0]).toArray⟩⟩ [0, 0] (by omega) rfl
  have hagain := encode_reads_back.2 _ _ _ hread ⟨.memory, ⟨numbersHeader.encode.toArray⟩⟩ []
    (List.append_nil _).symm
  rw [length_encode, hbody] at hagain
  exact ⟨length, hread, hagain⟩

end SegmentHeader

end SegmentStore
