import Mathlib.Data.List.Nodup
import SegmentStore.Proofs.Decoding
import SegmentStore.Scan.Reader

/-!
# Where streams are

A header lists the length of each stream, and a reader adds them up. It finds streams only if the sums are words.

* `StreamInfo.placeAll` puts each stream behind the one before, in words that wrap around. `StreamInfo.locateAll_eq` says
  that this is where streams are located, if their lengths fit behind the start, and that the sum overflows otherwise.
* `StreamInfo.Tile` says that streams stand one behind the other from the start to the end, which
  `StreamInfo.tile_placeAll` says of streams that fit.
* `SegmentMeta.Addressable` says that the streams that a header lists fit behind it. `IndexRequest.load_eq` and
  `SegmentReader.makeReaders_eq` say what becomes of a segment that is addressable, and of one that is not.
-/

namespace SegmentStore

open Decoder

namespace StreamInfo

/-- The bytes of some streams. -/
def totalLength (ss : List StreamInfo) : Nat := (ss.map fun s => s.length.toNat).sum

theorem totalLength_cons (s : StreamInfo) (ss : List StreamInfo) :
    totalLength (s :: ss) = s.length.toNat + totalLength ss := by
  rw [totalLength, List.map_cons, List.sum_cons, totalLength]

/-- Every stream with its start, in words that wrap around. -/
def placeAll (offset : UInt64) : List StreamInfo → List LocatedStream
  | [] => []
  | s :: ss => ⟨s, offset⟩ :: placeAll (offset + s.length) ss

/-- The streams that are needed, with their starts, in words that wrap around. -/
def place (streams : List StreamInfo) (headerLength : UInt64) (needed : StreamInfo → Bool) : List LocatedStream :=
  (placeAll headerLength streams).filter fun s => needed s.info

variable {offset : UInt64} {ss : List StreamInfo} {needed : StreamInfo → Bool}

theorem map_info_placeAll (offset : UInt64) (ss : List StreamInfo) : (placeAll offset ss).map (·.info) = ss := by
  induction ss generalizing offset with
  | nil => rfl
  | cons s ss ih => rw [placeAll, List.map_cons, ih]

theorem map_info_place (ss : List StreamInfo) (offset : UInt64) (needed : StreamInfo → Bool) :
    (place ss offset needed).map (·.info) = ss.filter needed := by
  rw [place, ← map_info_placeAll offset ss, List.filter_map, map_info_placeAll]
  rfl

theorem place_subset (ss : List StreamInfo) (offset : UInt64) (needed : StreamInfo → Bool) :
    place ss offset needed ⊆ placeAll offset ss := fun _ hl => (List.mem_filter.mp hl).1

/-- A stream is needed by what the header says of it. -/
theorem needed_of_mem_place {l : LocatedStream} (hl : l ∈ place ss offset needed) : needed l.info = true :=
  (List.mem_filter.mp hl).2

/-- Where no stream is needed there is none. -/
theorem place_eq_nil (h : ∀ s ∈ ss, needed s = false) : place ss offset needed = [] := by
  rw [← List.map_eq_nil_iff, map_info_place, List.filter_eq_nil_iff]
  intro s hs
  rw [h s hs]
  decide

/-- Streams of one name are one stream, where no name is listed twice. -/
theorem eq_of_mem_placeAll (hnodup : (ss.map fun i => (i.uniqueId, i.kind)).Nodup) {l l' : LocatedStream}
    (hl : l ∈ placeAll offset ss) (hl' : l' ∈ placeAll offset ss)
    (huid : l'.info.uniqueId = l.info.uniqueId) (hkind : l'.info.kind = l.info.kind) : l' = l := by
  rw [← map_info_placeAll offset ss, List.map_map] at hnodup
  exact List.inj_on_of_nodup_map hnodup hl' hl (Prod.ext huid hkind)

/-! ### Sums that are words -/

/-- Streams are located where they are put, if they fit behind the start. Those that are not needed count as well, and
so does the last one. -/
theorem locateAll_eq (offset : UInt64) (ss : List StreamInfo) :
    locateAll offset ss
      = if offset.toNat + totalLength ss < 2 ^ 64 then .ok (placeAll offset ss) else .error .overflow := by
  induction ss generalizing offset with
  | nil => exact (if_pos offset.toNat_lt).symm
  | cons s ss ih =>
    rw [totalLength_cons, locateAll]
    by_cases hfits : offset.toNat + s.length.toNat < 2 ^ 64
    · rw [plus_eq hfits, ok_bind, ih, toNat_add_u64 hfits, Nat.add_assoc]
      split <;> rfl
    · rw [plus_overflow hfits, if_neg (by omega)]
      rfl

theorem locate_eq (ss : List StreamInfo) (offset : UInt64) (needed : StreamInfo → Bool) :
    locate ss offset needed
      = if offset.toNat + totalLength ss < 2 ^ 64 then .ok (place ss offset needed) else .error .overflow := by
  rw [locate, locateAll_eq]
  split <;> rfl

theorem locate_eq_ok (h : offset.toNat + totalLength ss < 2 ^ 64) :
    locate ss offset needed = .ok (place ss offset needed) := by
  rw [locate_eq, if_pos h]

/-! ### One stream behind the other -/

/-- The streams fill the bytes from the start to the end, one behind the other. -/
def Tile : Nat → List LocatedStream → Nat → Prop
  | start, [], stop => start = stop
  | start, l :: ls, stop => l.offset.toNat = start ∧ Tile (start + l.info.length.toNat) ls stop

/-- Streams that fit behind the start stand there, one behind the other. -/
theorem tile_placeAll (h : offset.toNat + totalLength ss < 2 ^ 64) :
    Tile offset.toNat (placeAll offset ss) (offset.toNat + totalLength ss) := by
  induction ss generalizing offset with
  | nil => rfl
  | cons s ss ih =>
    rw [totalLength_cons, ← Nat.add_assoc] at h ⊢
    have hnext : (offset + s.length).toNat = offset.toNat + s.length.toNat := toNat_add_u64 (by omega)
    have htail := ih (by rwa [hnext])
    rw [hnext] at htail
    exact ⟨rfl, htail⟩

theorem Tile.within {start stop : Nat} {ls : List LocatedStream} (h : Tile start ls stop) :
    start ≤ stop ∧ ∀ l ∈ ls, start ≤ l.offset.toNat ∧ l.offset.toNat + l.info.length.toNat ≤ stop := by
  induction ls generalizing start with
  | nil => exact ⟨Nat.le_of_eq h, List.forall_mem_nil _⟩
  | cons l ls ih =>
    obtain ⟨hstart, htail⟩ := h
    obtain ⟨hle, hrest⟩ := ih htail
    refine ⟨by omega, List.forall_mem_cons.mpr ⟨by omega, fun l' hl' => ?_⟩⟩
    obtain ⟨hstart', hend'⟩ := hrest l' hl'
    exact ⟨by omega, hend'⟩

theorem within_of_mem_placeAll (h : offset.toNat + totalLength ss < 2 ^ 64) {l : LocatedStream}
    (hl : l ∈ placeAll offset ss) :
    offset.toNat ≤ l.offset.toNat ∧ l.offset.toNat + l.info.length.toNat < 2 ^ 64 := by
  obtain ⟨hstart, hend⟩ := (tile_placeAll h).within.2 l hl
  exact ⟨hstart, Nat.lt_of_le_of_lt hend h⟩

end StreamInfo

/-- The streams of the segment fit behind its header, those that no reader needs included. -/
def SegmentMeta.Addressable (info : SegmentMeta) : Prop :=
  info.headerLength.toNat + StreamInfo.totalLength info.header.streams < 2 ^ 64

instance (info : SegmentMeta) : Decidable info.Addressable := inferInstanceAs (Decidable (_ < _))

theorem SegmentMeta.locate_eq (info : SegmentMeta) (needed : StreamInfo → Bool) :
    StreamInfo.locate info.header.streams info.headerLength needed
      = if info.Addressable then .ok (StreamInfo.place info.header.streams info.headerLength needed)
        else .error .overflow := StreamInfo.locate_eq _ _ _

/-! ### Streams that are read -/

namespace IndexRequest

variable {q : IndexRequest} {cache : IndexCache}

/-- The index streams of the segment that are needed. -/
def placed (q : IndexRequest) : List LocatedStream :=
  StreamInfo.place q.info.header.streams q.info.headerLength q.mapping.needsIndexStream

/-- What there is before any index is loaded. -/
def emptySet (q : IndexRequest) : IndexSet := ⟨[], [], q.expectedBlocks % UInt32.size⟩

theorem load_eq (q : IndexRequest) (cache : IndexCache) :
    q.load cache
      = if q.info.Addressable then
          q.loadStreams q.placed q.emptySet cache .zero
        else (.error .overflow, cache, .zero) := by
  rw [load, q.info.locate_eq]
  by_cases h : q.info.Addressable
  · rw [if_pos h, if_pos h]
    rfl
  · rw [if_neg h, if_neg h]

theorem load_addressable (h : q.info.Addressable) (cache : IndexCache) :
    q.load cache = q.loadStreams q.placed q.emptySet cache .zero := by
  rw [load_eq, if_pos h]

/-- Indexes are loaded only where all streams of the segment fit behind its header. -/
theorem loaded_of_load {set : IndexSet} (h : (q.load cache).1 = .ok set) :
    q.info.Addressable ∧ (q.loadStreams q.placed q.emptySet cache .zero).1 = .ok set := by
  rw [load_eq] at h
  split at h
  · rename_i hfits
    exact ⟨hfits, h⟩
  · cases h

end IndexRequest

namespace OpenSegment

/-- The readers of the value streams that are needed, each at its start. -/
def valueStreams (o : OpenSegment) : StreamTable :=
  .ofList ((StreamInfo.place o.info.header.streams o.info.headerLength o.mapping.needsDataStream).map fun l =>
    ((l.info.uniqueId, l.info.kind),
      StreamReader.make l.offset l.info.length o.decompress? o.info.header.bufferSize.toNat))

end OpenSegment

namespace SegmentReader

variable {r : SegmentReader} {o : OpenSegment}

theorem makeReaders_eq (r : SegmentReader) (o : OpenSegment) (schema : TabletSchema) :
    r.makeReaders o schema
      = if o.info.Addressable then
          ReaderTable.make schema o.mapping r.context.used o.valueStreams []
        else .error .overflow := by
  rw [makeReaders, o.info.locate_eq]
  by_cases h : o.info.Addressable
  · rw [if_pos h, if_pos h]
    rfl
  · rw [if_neg h, if_neg h]
    rfl

theorem makeReaders_addressable (h : o.info.Addressable) (r : SegmentReader) (schema : TabletSchema) :
    r.makeReaders o schema = ReaderTable.make schema o.mapping r.context.used o.valueStreams [] := by
  rw [makeReaders_eq, if_pos h]

/-- Readers are made only where all streams of the segment fit behind its header. -/
theorem made_of_makeReaders {schema : TabletSchema} {t : ReaderTable} (h : r.makeReaders o schema = .ok t) :
    o.info.Addressable ∧ ReaderTable.make schema o.mapping r.context.used o.valueStreams [] = .ok t := by
  rw [makeReaders_eq] at h
  split at h
  · rename_i hfits
    exact ⟨hfits, h⟩
  · cases h

end SegmentReader

end SegmentStore
