import SegmentStore.Proofs.Chains
import SegmentStore.Proofs.Checksums
import SegmentStore.Proofs.Reencoding
import SegmentStore.Proofs.StoredChunks

/-!
# One byte changed in a file

A header and a chunk look alike to the one who checks them: some bytes, the checksum, and the bytes that it is of. Lengths
stand before the checksum, so that a change of the checksum or of the bytes behind it changes nothing of what is read, only
of what it is compared with.

* `Altered.checked` is this common part: whichever of the two was changed, they no longer fit each other.
* `SegmentHeader.readFrom_altered` and `StreamReader.readChunk_altered` are headers and chunks, read through any backend.
* `altered_byte_refused` is about headers that were written, and about every way to bring in a chunk.
-/

namespace SegmentStore

open Decoder

/-! ### Bytes behind their checksum -/

theorem Altered.u32Bytes {place : Nat} {x : UInt32} {ys : Bytes} (h : Altered place (u32Bytes x) ys) :
    ∃ y, y ≠ x ∧ ys = SegmentStore.u32Bytes y := by
  have hlength : ys.length = 4 := h.length_eq.trans (length_leBytes 4 x.toNat)
  have hys := u32Bytes_leNat hlength
  refine ⟨UInt32.ofNat (leNat ys), ?_, hys.symm⟩
  intro hsame
  rw [hsame] at hys
  exact h.ne hys.symm

/-- Of a checksum and the bytes that it is of one was changed, and they do not fit any more. -/
theorem Altered.checked {place : Nat} {lead covered ys : Bytes} {stored : UInt32} {what : Checked}
    (h : Altered place (lead ++ (SegmentStore.u32Bytes stored ++ covered)) ys) (hplace : lead.length ≤ place)
    (hstored : verify what stored covered = .ok ()) :
    ∃ stored' covered', ys = lead ++ (SegmentStore.u32Bytes stored' ++ covered') ∧ covered'.length = covered.length
      ∧ verify what stored' covered' = .error (.checksum what stored' (crc32 covered')) := by
  have hcrc := crc32_of_verify hstored
  -- the byte does not stand before the checksum, so it is one of the checksum or one behind it
  rcases h.append with ⟨lead', hlead, -⟩ | ⟨-, checked, hchecked, rfl⟩
  · exact absurd hlead.place_lt (Nat.not_lt.mpr hplace)
  rcases hchecked.append with ⟨word, hword, rfl⟩ | ⟨-, covered', hcovered, rfl⟩
  · obtain ⟨stored', hne, rfl⟩ := hword.u32Bytes
    exact ⟨stored', covered, rfl, rfl, verify_of_ne (hcrc ▸ hne.symm)⟩
  · exact ⟨stored, covered', rfl, hcovered.length_eq, verify_of_ne (hcrc ▸ crc32_altered hcovered)⟩

namespace SegmentFile

variable {f f' : SegmentFile}

theorem size_of_altered {place : Nat} (h : Altered place f.toList f'.toList) : f'.size = f.size := by
  rw [← length_toList, ← length_toList, h.length_eq]

/-- A byte was changed among some bytes of the file, and the others stand where they stood. -/
theorem HasAt.altered {offset place : Nat} {bs : Bytes} (hbs : f.HasAt offset bs)
    (h : Altered place f.toList f'.toList) (hstart : offset ≤ place) (hend : place < offset + bs.length) :
    ∃ bs', Altered (place - offset) bs bs' ∧ f'.HasAt offset bs' := by
  obtain ⟨before, after, hf, rfl⟩ := hbs
  rw [hf] at h
  rcases h.append with ⟨before', hbefore, -⟩ | ⟨-, rest, hrest, hf'⟩
  · exact absurd hbefore.place_lt (Nat.not_lt.mpr hstart)
  rcases hrest.append with ⟨bs', hbs, rfl⟩ | ⟨hafter, -⟩
  · exact ⟨bs', hbs, before, after, hf', rfl⟩
  · omega

end SegmentFile

/-! ### Headers -/

namespace SegmentHeader

variable {file file' : SegmentFile} {x : Front} {body rest : Bytes} {place : Nat}

/-- Where the checksum of a header starts. The magic, the version and the length of the body stand before it. -/
def checksumStart : Nat := 19

/-- What stands before the checksum. -/
def Front.lead (x : Front) : Bytes := x.magic.toList ++ (u32Bytes x.version ++ u32Bytes x.bodyLength)

theorem Front.length_lead (x : Front) : x.lead.length = checksumStart := by
  simp [lead, u32Bytes, checksumStart]

theorem Front.encode_append (x : Front) (bs : Bytes) : x.encode ++ bs = x.lead ++ (u32Bytes x.checksum ++ bs) := by
  simp [encode, lead, List.append_assoc]

/-- The altered file is laid out as before, with another checksum or another body. -/
theorem Laid.altered (hlaid : Laid file x body rest) (hverify : verify .header x.checksum body = .ok ())
    (h : Altered place file.toList file'.toList) (hstart : checksumStart ≤ place)
    (hend : place < prefixSize + body.length) :
    ∃ stored body', Laid file' { x with checksum := stored } body' rest
      ∧ verify .header stored body' = .error (.checksum .header stored (crc32 body')) := by
  have hcontent := hlaid.content
  rw [← List.append_assoc] at hcontent
  rw [hcontent] at h
  rcases h.append with ⟨checked, hchecked, hfile⟩ | ⟨hbehind, -⟩
  · rw [x.encode_append] at hchecked
    obtain ⟨stored, body', rfl, hlength, herror⟩ := hchecked.checked (by rwa [x.length_lead]) hverify
    refine ⟨stored, body', ⟨?_, hlaid.bodyLength.trans hlength.symm⟩, herror⟩
    rw [hfile, Front.encode_append, List.append_assoc, List.append_assoc]
    rfl
  · rw [List.length_append, x.length_encode] at hbehind
    omega

/-- A header that was read is not read any more when a byte of its body or of its checksum was changed. -/
theorem readFrom_altered {h : SegmentHeader} {length : UInt64} (hread : readFrom file = .ok (h, length))
    (haltered : Altered place file.toList file'.toList) (hstart : checksumStart ≤ place) (hend : place < length.toNat) :
    ∃ stored found, readFrom file' = .error (.format (.checksum .header stored found)) := by
  obtain ⟨x, body, rest, hlaid, hverify, -, rfl⟩ := laid_of_readFrom hread
  have hnarrow := x.bodyLength.toNat_lt
  rw [hlaid.bodyLength] at hnarrow
  rw [toNat_ofNat_u64 (by rw [prefixSize]; omega)] at hend
  obtain ⟨stored, body', hlaid', herror⟩ := hlaid.altered hverify haltered hstart hend
  refine ⟨stored, crc32 body', ?_⟩
  rw [hlaid'.readFrom, herror]
  rfl

end SegmentHeader

/-! ### Chunks -/

namespace StreamReader

variable {f f' : SegmentFile} {s u : StreamReader} {chunk : UInt64} {x : ChunkHead} {mark : UInt8}
variable {payload : Bytes} {place : Nat}

/-- Where the checksum of a chunk starts. The length of the payload and the mark stand before it. -/
def checksumStart : Nat := 5

/-- The altered chunk is read as before, with another checksum or another payload. -/
theorem HoldsChunk.altered (hholds : s.HoldsChunk f chunk x mark payload)
    (hverify : verify .chunk x.checksum payload = .ok ()) (h : Altered place f.toList f'.toList)
    (hstart : s.offset.toNat + chunk.toNat + checksumStart ≤ place)
    (hend : place < s.offset.toNat + chunk.toNat + chunkHeadSize + payload.length) :
    ∃ stored payload', s.HoldsChunk f' chunk { x with checksum := stored } mark payload'
      ∧ verify .chunk stored payload' = .error (.checksum .chunk stored (crc32 payload')) := by
  have hhead : x.encode mark ++ payload
      = (u32Bytes x.payloadLength ++ [mark]) ++ (u32Bytes x.checksum ++ payload) := by
    simp [ChunkHead.encode, List.append_assoc]
  have hlead : (u32Bytes x.payloadLength ++ [mark]).length = checksumStart := by simp [u32Bytes, checksumStart]
  obtain ⟨chunkBytes, hbytes, hheld⟩ := hholds.held.altered h (by omega)
    (by rwa [List.length_append, x.length_encode, ← Nat.add_assoc])
  rw [hhead] at hbytes
  obtain ⟨stored, payload', rfl, hlength, herror⟩ := hbytes.checked (by rw [hlead]; omega) hverify
  refine ⟨stored, payload', ⟨?_, ?_, hholds.marked, hholds.payloadLength.trans hlength.symm, ?_⟩, herror⟩
  · rw [SegmentFile.size_of_altered h]
    exact hholds.bounded
  · rw [ChunkHead.encode]
    rwa [List.append_assoc] at hheld ⊢
  · rw [hlength]
    exact hholds.inside

theorem readChunk_altered (hbounded : f.size < 2 ^ 63) {content : Bytes} {n : UInt64}
    (hread : s.readChunk f chunk = .ok (content, n)) (h : Altered place f.toList f'.toList)
    (hstart : s.offset.toNat + chunk.toNat + checksumStart ≤ place)
    (hend : place < s.offset.toNat + (chunk + 9 + n).toNat) :
    ∃ stored found, s.readChunk f' chunk = .error (.format (.checksum .chunk stored found)) := by
  have hnext := (readChunk_extent hbounded hread).1
  obtain ⟨x, mark, payload, hholds, hverify, rfl⟩ := holdsChunk_of_readChunk hbounded hread
  rw [hnext, UInt32.toNat_toUInt64, hholds.payloadLength] at hend
  obtain ⟨stored, payload', hholds', herror⟩ := hholds.altered hverify h hstart (by omega)
  refine ⟨stored, crc32 payload', ?_⟩
  rw [hholds'.readChunk, herror]
  rfl

/-- Whatever would bring in the chunk fails. A read has then taken what was pending before it, and nothing else of the
stream changes. -/
structure Refuses (u : StreamReader) (f : SegmentFile) (chunk : UInt64) (e : StorageError) : Prop where
  load : u.load f chunk = .error e
  seek : ∀ byte, u.seek f chunk byte = (.error e, u)
  read : ∀ n, u.nextChunk = chunk → u.pending.length < n → u.read f n = (.error e, u.consumed n)
  readChunks : ∀ acc fuel, u.readChunks f acc chunk (fuel + 1) = (.error e, u)

theorem load_of_readChunk_error {e : StorageError} (hhome : u.home = s.home) (hread : s.readChunk f chunk = .error e) :
    u.load f chunk = .error e := by
  rw [load_eq, readChunk_congr hhome, hread]
  rfl

theorem refuses_of_readChunk {e : StorageError} (hread : u.readChunk f chunk = .error e) (hchunk : chunk < u.length) :
    u.Refuses f chunk e := by
  have hload : u.load f chunk = .error e := load_of_readChunk_error rfl hread
  constructor
  · exact hload
  · intro byte
    rw [seek, hload]
  · intro n hnext hpending
    have hmissing : n - (u.pending.take n).length ≠ 0 := by
      rw [List.length_take]
      omega
    have hconsumed : (u.consumed n).load f chunk = .error e := load_of_readChunk_error rfl hread
    rw [read, readFrom_succ, if_neg hmissing, hnext, hconsumed]
  · intro acc fuel
    rw [readChunks, if_pos hchunk, hload]

end StreamReader

open StreamReader in
/-- A header, and a chunk that is brought in, are refused after any change of one byte of what their checksums are of, or
of the checksums, wherever the stream stands that would bring in the chunk. -/
theorem altered_byte_refused :
    (∀ (h : SegmentHeader) (rest : Bytes) (file file' : SegmentFile) (place : Nat),
      h.encodeBody.length < 2 ^ 32 → file.toList = h.encode ++ rest → SegmentHeader.checksumStart ≤ place →
      place < h.encode.length → Altered place file.toList file'.toList →
      ∃ stored found, SegmentHeader.readFrom file' = .error (.format (.checksum .header stored found))) ∧
    ∀ (s t : StreamReader) (f f' : SegmentFile) (chunk : UInt64) (place : Nat),
      f.size < 2 ^ 63 → s.load f chunk = .ok t → (s.offset + chunk).toNat + checksumStart ≤ place →
      place < (s.offset + t.nextChunk).toNat → Altered place f.toList f'.toList →
      ∃ stored found, ∀ u : StreamReader, u.home = s.home →
        u.Refuses f' chunk (.format (.checksum .chunk stored found)) := by
  constructor
  · intro h rest file file' place hbody hfile hstart hend haltered
    have hread := SegmentHeader.readFrom_encode hfile hbody
    rw [← SegmentHeader.toNat_length_encode hbody] at hend
    exact SegmentHeader.readFrom_altered hread haltered hstart hend
  · intro s t f f' chunk place hbounded hload hstart hend haltered
    rw [load_eq] at hload
    cases hread : s.readChunk f chunk with
    | error e =>
      rw [hread] at hload
      cases hload
    | ok r =>
      obtain ⟨content, n⟩ := r
      rw [hread] at hload
      obtain rfl := Except.ok.inj hload
      obtain ⟨hnext, hinside, hwithin⟩ := readChunk_extent hbounded hread
      -- the chunk ends within the file, so that its places are words
      rw [chunkHeadSize] at hnext
      rw [toNat_add_u64 (by omega)] at hstart
      dsimp only at hend
      rw [toNat_add_u64 (by omega)] at hend
      have hchunk : chunk < s.length := UInt64.lt_iff_toNat_lt.mpr (by omega)
      obtain ⟨stored, found, herror⟩ := readChunk_altered hbounded hread haltered hstart hend
      refine ⟨stored, found, ?_⟩
      intro u hhome
      have hlength : u.length = s.length := congrArg (·.length) hhome
      exact refuses_of_readChunk ((readChunk_congr hhome chunk).trans herror) (hlength ▸ hchunk)

/-- The first byte of a body, and the last byte of a payload. -/
theorem altered_byte_refused_first :
    (∃ stored found, SegmentHeader.readFrom ⟨.memory, ⟨(SegmentHeader.numbersHeader.encode.set 23 1).toArray⟩⟩
        = .error (.format (.checksum .header stored found)))
      ∧ ∃ stored found,
        StreamReader.brokenStream.Refuses ⟨.seeking, ⟨(StreamReader.brokenFile.toList.set 11 9).toArray⟩⟩ 0
          (.format (.checksum .chunk stored found)) := by
  constructor
  · have hbody : SegmentHeader.numbersHeader.encodeBody.length = 70 := by
      rw [SegmentHeader.length_encodeBody]
      rfl
    exact altered_byte_refused.1 SegmentHeader.numbersHeader []
      ⟨.memory, ⟨SegmentHeader.numbersHeader.encode.toArray⟩⟩ _ 23 (by omega) (List.append_nil _).symm (by decide)
      (by rw [SegmentHeader.length_encode, hbody]; decide) ⟨0, 1, rfl, by decide, rfl⟩
  · have hread : StreamReader.brokenStream.readChunk StreamReader.brokenFile 0 = .ok ([7, 8], 2) := by decide +kernel
    have hload := StreamReader.load_eq StreamReader.brokenFile StreamReader.brokenStream 0
    rw [hread] at hload
    obtain ⟨stored, found, hrefuses⟩ := altered_byte_refused.2 _ _ _
      ⟨.seeking, ⟨(StreamReader.brokenFile.toList.set 11 9).toArray⟩⟩ 0 11 (by decide +kernel) hload (by decide)
      (by decide) ⟨8, 9, by decide +kernel, by decide, rfl⟩
    exact ⟨stored, found, hrefuses _ rfl⟩

end SegmentStore
