import SegmentStore.Proofs.Failures
import SegmentStore.Proofs.Shortened

/-!
# Offsets that are added up

Where a chunk stands in a file is found by adding up lengths that the file itself records. The sum of two words may be no
word, and then the read that forms it fails with nothing but that.

* `InWords` says that an outcome is not such a failure.
* `StreamReader.Placed` says that a stream starts behind a header and ends before the last word. Such a stream brings in
  no chunk by way of a sum that is too large (`StreamReader.load_inWords`), from whatever place.
* All other reads only bring in chunks, so that `ColumnReader.seek_inWords` and `ColumnReader.nextVector_inWords` follow
  from what reads fail with.
-/

namespace SegmentStore

open Decoder

/-- The outcome is no failure of a sum that is too large for a word. -/
abbrev InWords {α : Type} (x : Except StorageError α) : Prop := FailsWith (· ≠ .overflow) x

theorem InWords.lift {α : Type} (x : Except FormatFault α) : InWords (liftFault x) :=
  FailsWith.lift (fun _ h => StorageError.noConfusion h) x

theorem coversData_inWords : CoversData (· ≠ .overflow) := fun _ _ he => he

theorem plus_inWords {a b : UInt64} (h : a.toNat + b.toNat < 2 ^ 64) : InWords (plus a b) := by
  rw [plus_eq h]
  exact .ok _

/-- A range of the file that ends at a word is read, or is not there. -/
theorem SegmentFile.readAt_inWords (f : SegmentFile) {offset length : Nat} (h : offset + length < 2 ^ 64) :
    InWords (f.readAt offset length) := by
  have hword : offset + length < UInt64.size := h
  rw [readAt, if_pos hword]
  repeat' split
  all_goals first | exact .ok _ | exact .error StorageError.noConfusion

/-! ### Streams -/

namespace StreamReader

/-- The stream starts behind a header, and its end is a word. -/
structure Placed (s : StreamReader) : Prop where
  behind : SegmentHeader.prefixSize ≤ s.offset.toNat
  fits : s.offset.toNat + s.length.toNat < 2 ^ 64

variable {s t : StreamReader} {f : SegmentFile}

theorem Placed.of_home (h : s.Placed) (hhome : t.home = s.home) : t.Placed := by
  have hoffset : t.offset = s.offset := congrArg (·.offset) hhome
  have hlength : t.length = s.length := congrArg (·.length) hhome
  refine ⟨?_, ?_⟩
  · rw [hoffset]
    exact h.behind
  · rw [hoffset, hlength]
    exact h.fits

/-- The head of a chunk of the stream ends at a word: a header stands before the stream, and takes more bytes. -/
theorem Placed.head_fits (h : s.Placed) {chunk : UInt64} (hchunk : chunk < s.length) : chunk.toNat + 9 < 2 ^ 64 := by
  have hfits := h.fits
  have hbehind : 23 ≤ s.offset.toNat := h.behind
  have hlt := UInt64.lt_iff_toNat_lt.mp hchunk
  omega

/-- Once the head of a chunk was read, what the head says of the payload goes with words: the head lies within a file,
so that the chunk starts far below the last word. -/
theorem readPayload_inWords (hs : s.Placed) (hbounded : f.size < 2 ^ 63) {chunk start offset : UInt64}
    (hstart : plus chunk 9 = .ok start) (hoffset : plus s.offset chunk = .ok offset)
    (hhead : offset.toNat + chunkHeadSize ≤ f.size) (head : ChunkHead) :
    InWords (s.readPayload f chunk start head) := by
  have hfits := hs.fits
  have hpayload : head.payloadLength.toUInt64.toNat < 2 ^ 32 := head.payloadLength.toNat_lt
  have hstart' : start.toNat = chunk.toNat + chunkHeadSize := toNat_of_plus hstart
  have hoffset' := toNat_of_plus hoffset
  refine .bind (plus_inWords (by omega)) fun stop hstop => ?_
  split
  · exact .error StorageError.noConfusion
  rename_i hwithin
  rw [UInt64.not_lt, UInt64.le_iff_toNat_le, toNat_of_plus hstop] at hwithin
  refine .bind (plus_inWords (by omega)) fun place hplace => ?_
  have hend : place.toNat + head.payloadLength.toUInt64.toNat < 2 ^ 64 := by
    rw [toNat_of_plus hplace]
    omega
  refine .bind (f.readAt_inWords hend) fun payload _ => .bind (InWords.lift _) fun _ _ => ?_
  exact (s.unpack_failsWith (fun _ => StorageError.noConfusion) _ _).map _

/-- Whatever chunk is asked for, no sum is too large. -/
theorem readChunk_inWords (hs : s.Placed) (hbounded : f.size < 2 ^ 63) (chunk : UInt64) :
    InWords (s.readChunk f chunk) := by
  have hfits := hs.fits
  rw [readChunk_eq]
  split
  · exact .error StorageError.noConfusion
  rename_i hpast
  have hchunk : chunk < s.length := UInt64.not_le.mp hpast
  refine .bind (plus_inWords (hs.head_fits hchunk)) fun start hstart => ?_
  split
  · exact .error StorageError.noConfusion
  rename_i hwithin
  have hstart' : start.toNat = chunk.toNat + chunkHeadSize := toNat_of_plus hstart
  rw [UInt64.not_lt, UInt64.le_iff_toNat_le, hstart'] at hwithin
  refine .bind (plus_inWords (by omega)) fun offset hoffset => ?_
  have hend : offset.toNat + chunkHeadSize < 2 ^ 64 := by
    rw [toNat_of_plus hoffset]
    omega
  refine .bind (f.readAt_inWords hend) fun bs hread => .bind (InWords.lift _) fun head _ => ?_
  exact readPayload_inWords hs hbounded hstart hoffset (SegmentFile.le_size_of_readAt hbounded (by decide) hread) head.1

theorem load_inWords (hs : s.Placed) (hbounded : f.size < 2 ^ 63) (chunk : UInt64) : InWords (s.load f chunk) :=
  .bind (readChunk_inWords hs hbounded chunk) fun _ _ => .ok _

/-- Wherever the stream stands, and whatever chunk is asked for, no sum is too large. -/
theorem Placed.loadsWith (hs : s.Placed) (hbounded : f.size < 2 ^ 63) : s.LoadsWith (· ≠ .overflow) f :=
  fun _ hhome chunk => load_inWords (hs.of_home hhome) hbounded chunk

theorem readAll_inWords (hs : s.Placed) (hbounded : f.size < 2 ^ 63) : InWords (s.readAll f).1 :=
  readAll_failsWith (hs.loadsWith hbounded)

end StreamReader

/-! ### Columns -/

namespace ColumnReader

/-- The streams of the column are placed. -/
abbrev Placed (r : ColumnReader) : Prop := r.EachStream StreamReader.Placed

variable {r r' : ColumnReader} {f : SegmentFile}

theorem Placed.of_home (h : r.Placed) (hhome : r'.home = r.home) : r'.Placed :=
  EachStream.of_home (fun _ _ hsame hs => hs.of_home hsame) h hhome

theorem Placed.loadsWith (hr : r.Placed) (hbounded : f.size < 2 ^ 63) : r.LoadsWith (· ≠ .overflow) f :=
  hr.mono fun _ hs => hs.loadsWith hbounded

theorem seek_inWords (hr : r.Placed) (hbounded : f.size < 2 ^ 63) (positions : List UInt64) :
    InWords (r.seek f positions).1 :=
  seek_failsWith coversData_inWords (hr.loadsWith hbounded) positions

theorem nextVector_inWords (hr : r.Placed) (hbounded : f.size < 2 ^ 63) (type : FieldType) (n : Nat) :
    InWords (r.nextVector f type n).1 :=
  nextVector_failsWith coversData_inWords (hr.loadsWith hbounded) type n

end ColumnReader

end SegmentStore
