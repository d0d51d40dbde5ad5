import SegmentStore.Proofs.Layout

/-!
# The streams of a finished file fill it

There is no table of offsets in a file. The header lists the length of each stream, and a reader adds them up.

* `LocatedStream.Cuts` says that a located stream is cut out of the data where it was put.
* `StreamInfo.Tile.pairwise` says that streams which fill a range do not overlap.
* `SegmentWriter.locate_finish` says of any writer that its file reads back to its header and that the streams, whichever
  are needed, are where they were put.
-/

namespace SegmentStore

open Decoder

namespace LocatedStream

/-- The located stream is cut out of the data as it was put out. -/
def Cuts (data : Bytes) (l : LocatedStream) (s : NamedStream) : Prop :=
  l.info = s.info ∧ (data.drop l.offset.toNat).take l.info.length.toNat = s.2.2

/-- The first stream ends before the second one starts. -/
def Before (l l' : LocatedStream) : Prop := l.offset.toNat + l.info.length.toNat ≤ l'.offset.toNat

end LocatedStream

namespace StreamInfo

theorem Tile.pairwise {start stop : Nat} {ls : List LocatedStream} (h : Tile start ls stop) :
    ls.Pairwise LocatedStream.Before := by
  induction ls generalizing start with
  | nil => exact .nil
  | cons l ls ih =>
    obtain ⟨rfl, htail⟩ := h
    exact .cons (fun l' hl' => (htail.within.2 l' hl').1) (ih htail)

/-- Where all streams are needed. -/
theorem place_all (streams : List StreamInfo) (offset : UInt64) :
    place streams offset (fun _ => true) = placeAll offset streams := by
  rw [place, List.filter_true]

end StreamInfo

namespace SegmentWriter

variable {w : SegmentWriter}

/-- The file is the header and as many bytes as the header says the streams have. -/
theorem length_finish (hsize : w.finish.2.length < 2 ^ 64) :
    w.finish.2.length = w.finish.1.encode.length + StreamInfo.totalLength w.finish.1.streams := by
  have hlength := congrArg List.length w.finish_bytes
  rw [List.length_append] at hlength
  rw [finish_streams, StreamInfo.totalLength_info _ (by omega), hlength]

/-- Every stream is where the lengths of those before it say. -/
theorem cuts_finish (hsize : w.finish.2.length < 2 ^ 64) :
    List.Forall₂ (LocatedStream.Cuts w.finish.2)
      (StreamInfo.placeAll (UInt64.ofNat w.finish.1.encode.length) w.finish.1.streams) w.namedStreams := by
  have hlength := congrArg List.length w.finish_bytes
  rw [List.length_append] at hlength
  have hstart : (UInt64.ofNat w.finish.1.encode.length).toNat = w.finish.1.encode.length :=
    toNat_ofNat_u64 (by omega)
  let file : SegmentFile := ⟨.memory, ⟨w.finish.2.toArray⟩⟩
  have hheld : file.HasAt (UInt64.ofNat w.finish.1.encode.length).toNat (w.namedStreams.flatMap fun s => s.2.2) :=
    ⟨w.finish.1.encode, [], w.finish_bytes.trans (by rw [List.append_nil]), hstart.symm⟩
  rw [finish_streams]
  refine (StreamInfo.forall₂_placeAll hheld (by omega)).imp ?_
  rintro l s ⟨hinfo, hat, hend⟩
  have hwidth : l.info.length.toNat = s.2.2.length := by
    rw [hinfo, NamedStream.info]
    exact toNat_ofNat_u64 (by omega)
  refine ⟨hinfo, ?_⟩
  rw [hwidth]
  exact hat.cut

/-- A finished file starts with its header, and the streams fill the rest of it. Those that are needed are the ones of
all streams that are, in order, and each is cut out of the file as the writer put it out. What is in memory is no longer
than a word says, so only the header has a bound to keep. -/
theorem locate_finish (w : SegmentWriter) {file : SegmentFile} (hfile : file.toList = w.finish.2)
    (hbody : w.finish.1.encodeBody.length < 2 ^ 32) (hsize : w.finish.2.length < 2 ^ 64)
    (needed : StreamInfo → Bool) :
    ∃ headerLength all located, SegmentHeader.readFrom file = .ok (w.finish.1, headerLength)
      ∧ w.finish.2.length = headerLength.toNat + StreamInfo.totalLength w.finish.1.streams
      ∧ StreamInfo.locate w.finish.1.streams headerLength (fun _ => true) = .ok all
      ∧ StreamInfo.locate w.finish.1.streams headerLength needed = .ok located
      ∧ StreamInfo.Tile headerLength.toNat all w.finish.2.length
      ∧ located = all.filter (fun l => needed l.info)
      ∧ located.map (·.info) = w.finish.1.streams.filter needed
      ∧ List.Forall₂ (LocatedStream.Cuts w.finish.2) located (w.namedStreams.filter fun s => needed s.info)
      ∧ located.Pairwise LocatedStream.Before := by
  have hlength := length_finish hsize
  have hstart : (UInt64.ofNat w.finish.1.encode.length).toNat = w.finish.1.encode.length :=
    toNat_ofNat_u64 (by omega)
  rw [← hstart] at hlength
  have hfits := hlength ▸ hsize
  have htile := StreamInfo.tile_placeAll hfits
  rw [← hlength] at htile
  refine ⟨_, _, _, SegmentHeader.readFrom_encode (hfile.trans w.finish_bytes) hbody, hlength,
    StreamInfo.locate_eq_ok hfits, StreamInfo.locate_eq_ok hfits, ?_, ?_, StreamInfo.map_info_place _ _ _, ?_,
    htile.pairwise.filter _⟩
  · rwa [StreamInfo.place_all]
  · rw [StreamInfo.place_all, StreamInfo.place]
  · -- what is needed of a stream is read off the header, in which it is the same stream
    refine List.rel_filter (fun {l s} hcut => ?_) (cuts_finish hsize)
    simp only [hcut.1]

end SegmentWriter

namespace WrittenSegment

/-- The data of the two stored columns of the small segment, with the streams between them left out. -/
theorem locate_finish_sample :
    ∃ headerLength located, SegmentHeader.readFrom ⟨.memory, ⟨sample.bytes.toArray⟩⟩ = .ok (sample.header, headerLength)
      ∧ StreamInfo.locate sample.header.streams headerLength (fun i => i.kind = .data) = .ok located
      ∧ located.map (·.info) = [⟨20, .data, 78⟩, ⟨10, .data, 39⟩]
      ∧ List.Forall₂ (LocatedStream.Cuts sample.bytes) located
          (sample.writer.namedStreams.filter fun s => s.2.1 = .data) := by
  have hbytes : sample.bytes.length < 2 ^ 64 := Nat.lt_trans fits_sample.bytes (by decide)
  have hfile : (⟨.memory, ⟨sample.bytes.toArray⟩⟩ : SegmentFile).toList = sample.bytes := rfl
  obtain ⟨headerLength, -, located, hread, -, -, hlocate, -, -, hinfos, hcuts, -⟩ :=
    SegmentWriter.locate_finish sample.writer hfile fits_sample.header hbytes fun i => i.kind = .data
  exact ⟨headerLength, located, hread, hlocate, hinfos.trans (by decide +kernel), hcuts⟩

end WrittenSegment

end SegmentStore
