import SegmentStore.Proofs.Backends
import SegmentStore.Proofs.Framing

/-!
# Chunks that are read, whoever wrote them

A chunk that was read stands in the file as a head and a payload with the checksum of the head. The payload may be any
bytes: what unpacking makes of them is another matter.

* `SegmentFile.hasAt_of_readAt` says where bytes stand that were read.
* `StreamReader.HoldsChunk` says that a chunk stands in the file, `StreamReader.HoldsChunk.readChunk` what is then done to
  read it, and `StreamReader.holdsChunk_of_readChunk` that there is one where a chunk was read.
-/

namespace SegmentStore

open Decoder

/-! ### Bytes that were read -/

namespace SegmentFile

variable {f : SegmentFile} {offset : Nat} {bs cs : Bytes}

theorem HasAt.le_size (h : f.HasAt offset bs) : offset + bs.length ≤ f.size := by
  obtain ⟨before, after, hf, rfl⟩ := h
  rw [← length_toList, hf]
  simp

/-- Bytes one behind the other. -/
theorem HasAt.append (h : f.HasAt offset bs) (h' : f.HasAt (offset + bs.length) cs) : f.HasAt offset (bs ++ cs) := by
  obtain ⟨before, after, hf, rfl⟩ := h
  obtain ⟨before', after', hf', hlength⟩ := h'
  rw [hf, ← List.append_assoc] at hf'
  obtain ⟨-, rfl⟩ := List.append_inj hf' (by rw [List.length_append, hlength])
  exact ⟨before, after', by rw [hf, List.append_assoc], rfl⟩

/-- Bytes that were read stand where they were read. -/
theorem hasAt_of_readAt (hbounded : f.size < 2 ^ 63) {length : Nat} (hstart : length ≠ 0 ∨ offset ≤ f.size)
    (h : f.readAt offset length = .ok bs) : f.HasAt offset bs ∧ bs.length = length := by
  have hread := readAt_toOption hbounded hstart
  rw [h] at hread
  split at hread
  · rename_i hfit
    have hbs := Option.some.inj hread
    have hsize := f.length_toList
    refine ⟨⟨f.toList.take offset, (f.toList.drop offset).drop length, ?_, ?_⟩, ?_⟩
    · rw [hbs, List.take_append_drop, List.take_append_drop]
    · rw [List.length_take]
      omega
    · rw [hbs, List.length_take, List.length_drop]
      omega
  · exact absurd hread (Option.some_ne_none bs)

end SegmentFile

namespace StreamReader

variable {f : SegmentFile} {s t : StreamReader} {chunk : UInt64} {x : ChunkHead} {mark : UInt8} {payload : Bytes}

/-! ### Heads -/

/-- The bytes of a head. Any mark but zero says that the payload is compressed. -/
def ChunkHead.encode (x : ChunkHead) (mark : UInt8) : Bytes :=
  u32Bytes x.payloadLength ++ ([mark] ++ u32Bytes x.checksum)

theorem ChunkHead.length_encode (x : ChunkHead) (mark : UInt8) : (x.encode mark).length = chunkHeadSize := by
  simp [encode, u32Bytes, chunkHeadSize]

theorem ChunkHead.reads_encode (hmark : (mark != 0) = x.compressed) : Reads decodeHead x (x.encode mark) := by
  have hflag : Reads flag (mark != 0) [mark] := (reads_u8 mark).map
  rw [hmark] at hflag
  exact (reads_u32 x.payloadLength).bind (hflag.bind (reads_u32 x.checksum).map)

theorem takes_decodeHead : Takes decodeHead fun bs x => ∃ mark, bs = x.encode mark ∧ (mark != 0) = x.compressed := by
  apply takes_u32.bind
  rintro _ payloadLength rfl
  apply takes_flag.bind
  rintro _ compressed ⟨mark, rfl, hmark⟩
  apply takes_u32.map
  rintro _ checksum rfl
  exact ⟨mark, rfl, hmark⟩

/-! ### Chunks -/

/-- A chunk stands in the file at an offset of the stream: its head, and as many bytes behind it as the head says. -/
structure HoldsChunk (s : StreamReader) (f : SegmentFile) (chunk : UInt64) (x : ChunkHead) (mark : UInt8)
    (payload : Bytes) : Prop where
  bounded : f.size < 2 ^ 63
  held : f.HasAt (s.offset.toNat + chunk.toNat) (x.encode mark ++ payload)
  marked : (mark != 0) = x.compressed
  payloadLength : x.payloadLength.toNat = payload.length
  inside : chunk.toNat + chunkHeadSize + payload.length ≤ s.length.toNat

/-- The chunk lies within the file. -/
theorem HoldsChunk.le_size (h : s.HoldsChunk f chunk x mark payload) :
    s.offset.toNat + chunk.toNat + chunkHeadSize + payload.length ≤ f.size := by
  have hle := h.held.le_size
  rwa [List.length_append, x.length_encode, ← Nat.add_assoc] at hle

/-- The checksum is looked at first, and the payload is unpacked only then. The chunk ends within the stream and the
file, so that all sums on the way are words. -/
theorem HoldsChunk.readChunk (h : s.HoldsChunk f chunk x mark payload) :
    s.readChunk f chunk = liftFault (verify .chunk x.checksum payload) >>= fun _ =>
      (s.unpack x.compressed payload).map fun content => (content, x.payloadLength.toUInt64) := by
  have hbounded := h.bounded
  have hle := h.le_size
  have hinside := h.inside
  have hlength := s.length.toNat_lt
  have hpayloadLength : x.payloadLength.toUInt64.toNat = payload.length :=
    x.payloadLength.toNat_toUInt64.trans h.payloadLength
  have hnine : (9 : UInt64).toNat = chunkHeadSize := rfl
  have hstart : plus chunk 9 = .ok (chunk + 9) := plus_eq (by omega)
  have hoffset : plus s.offset chunk = .ok (s.offset + chunk) := plus_eq (by omega)
  have hstartNat := toNat_of_plus hstart
  have hoffsetNat := toNat_of_plus hoffset
  have hstop : plus (chunk + 9) x.payloadLength.toUInt64 = .ok (chunk + 9 + x.payloadLength.toUInt64) :=
    plus_eq (by omega)
  have hplace : plus s.offset (chunk + 9) = .ok (s.offset + (chunk + 9)) := plus_eq (by omega)
  have hstopNat := toNat_of_plus hstop
  have hpositive : chunkHeadSize = 9 := rfl
  have hhead : f.readAt (s.offset + chunk).toNat chunkHeadSize = .ok (x.encode mark) := by
    have hread := h.held.left.readAt (by omega)
    rwa [x.length_encode, ← hoffsetNat] at hread
  have hpayload : f.readAt (s.offset + (chunk + 9)).toNat x.payloadLength.toUInt64.toNat = .ok payload := by
    rw [start_payload hstart hoffset hplace, hpayloadLength, hoffsetNat]
    have hheld := h.held.right
    rw [x.length_encode] at hheld
    exact hheld.readAt (by omega)
  have hbefore : ¬s.length ≤ chunk := by
    rw [UInt64.le_iff_toNat_le]
    omega
  have hwithin : ¬s.length < chunk + 9 := by
    rw [UInt64.lt_iff_toNat_lt]
    omega
  have hover : ¬s.length < chunk + 9 + x.payloadLength.toUInt64 := by
    rw [UInt64.lt_iff_toNat_lt]
    omega
  rw [readChunk_eq, if_neg hbefore, hstart, ok_bind, if_neg hwithin, hoffset, ok_bind, hhead, ok_bind,
    (ChunkHead.reads_encode h.marked).apply_self]
  show s.readPayload f chunk (chunk + 9) x = _
  rw [readPayload, hstop, ok_bind, if_neg hover, hplace, ok_bind, hpayload]
  rfl

/-- Where a chunk was read there is one, and its payload has the checksum of its head. -/
theorem holdsChunk_of_readChunk (hbounded : f.size < 2 ^ 63) {content : Bytes} {n : UInt64}
    (h : s.readChunk f chunk = .ok (content, n)) :
    ∃ x mark payload, s.HoldsChunk f chunk x mark payload ∧ verify .chunk x.checksum payload = .ok ()
      ∧ n = x.payloadLength.toUInt64 := by
  rw [readChunk_eq] at h
  split at h
  · cases h
  obtain ⟨start, hstart, h⟩ := bind_eq_ok.mp h
  split at h
  · cases h
  obtain ⟨offset, hoffset, h⟩ := bind_eq_ok.mp h
  obtain ⟨bs, hread, h⟩ := bind_eq_ok.mp h
  obtain ⟨hbs, hlength⟩ := SegmentFile.hasAt_of_readAt hbounded (.inl (by decide)) hread
  obtain ⟨⟨x, behind⟩, hdecode, hrest⟩ := bind_eq_ok.mp h
  obtain ⟨_, rfl, ⟨mark, rfl, hmark⟩, -⟩ := takes_decodeHead (ok_of_liftFault hdecode)
  -- the head takes all of the bytes that were read for it
  obtain rfl : behind = [] := by
    rw [List.length_append, x.length_encode] at hlength
    exact List.eq_nil_of_length_eq_zero (by omega)
  rw [List.append_nil] at hbs hlength
  have hle := hbs.le_size
  rw [hlength] at hle
  obtain ⟨stop, hstop, hrest⟩ := bind_eq_ok.mp (hrest : s.readPayload f chunk start x = .ok (content, n))
  split at hrest
  · cases hrest
  rename_i hinside
  obtain ⟨place, hplace, hrest⟩ := bind_eq_ok.mp hrest
  obtain ⟨payload, hpayload, hrest⟩ := bind_eq_ok.mp hrest
  rw [start_payload hstart hoffset hplace, UInt32.toNat_toUInt64] at hpayload
  obtain ⟨hpayload, hsize⟩ := SegmentFile.hasAt_of_readAt hbounded (.inr hle) hpayload
  obtain ⟨⟨⟩, hverify, hrest⟩ := bind_eq_ok.mp hrest
  refine ⟨x, mark, payload, ⟨hbounded, ?_, hmark, hsize.symm, ?_⟩, ok_of_liftFault hverify, ?_⟩
  · rw [← toNat_of_plus hoffset]
    apply hbs.append
    rwa [hlength]
  · rw [UInt64.not_lt, UInt64.le_iff_toNat_le, toNat_of_plus hstop, toNat_of_plus hstart, UInt32.toNat_toUInt64,
      ← hsize] at hinside
    exact hinside
  · cases hunpack : s.unpack x.compressed payload with
    | error e =>
      rw [hunpack] at hrest
      cases hrest
    | ok c =>
      rw [hunpack] at hrest
      exact (Prod.mk.inj (Except.ok.inj hrest)).2.symm

end StreamReader

end SegmentStore
