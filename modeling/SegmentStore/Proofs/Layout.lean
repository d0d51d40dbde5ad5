import Mathlib.Data.List.Forall2
import SegmentStore.Proofs.Cursor
import SegmentStore.Proofs.Locating
import SegmentStore.Proofs.Written
import SegmentStore.Segment.Group

/-!
# Where the streams of a written segment are

* `StreamInfo.forall₂_placeAll` says that each stream stands in the file where the header leads.
* `WrittenSegment.Contains` names the content of a stream; `WrittenSegment.stores_located` says that a reader
  at a located stream stores that content.
* `SegmentGroup.Hosts` says that a group has a written segment under some number, and
  `SegmentGroup.segmentMeta_hosts` that its header is read back.
-/

namespace SegmentStore

open StreamWriter Decoder

/-! ### Streams one after the other -/

namespace StreamInfo

/-- A stream ends where its bytes end. -/
theorem toNat_next (offset : UInt64) (s : NamedStream) (h : offset.toNat + s.2.2.length < 2 ^ 64) :
    (offset + s.info.length).toNat = offset.toNat + s.2.2.length := by
  have hlength : s.info.length.toNat = s.2.2.length := toNat_ofNat_u64 (by omega)
  rw [toNat_add_u64 (by omega), hlength]

/-- Streams that stand one behind the other are found where their lengths say. -/
theorem forall₂_placeAll {f : SegmentFile} {ss : List NamedStream} {offset : UInt64}
    (hfile : f.HasAt offset.toNat (ss.flatMap fun s => s.2.2))
    (hbound : offset.toNat + (ss.flatMap fun s => s.2.2).length < 2 ^ 64) :
    List.Forall₂ (fun l s => l.info = s.info ∧ f.HasAt l.offset.toNat s.2.2
        ∧ l.offset.toNat + s.2.2.length ≤ offset.toNat + (ss.flatMap fun s => s.2.2).length)
      (placeAll offset (ss.map NamedStream.info)) ss := by
  induction ss generalizing offset with
  | nil => exact .nil
  | cons s ss ih =>
    rw [List.flatMap_cons] at hfile hbound ⊢
    rw [List.length_append] at hbound ⊢
    have hnext := toNat_next offset s (by omega)
    have hright := hfile.right
    rw [← hnext] at hright
    refine .cons ⟨rfl, hfile.left, by dsimp only; omega⟩ ((ih hright (by omega)).imp ?_)
    rintro l t ⟨hinfo, hheld, hend⟩
    exact ⟨hinfo, hheld, by omega⟩

theorem mem_placeAll {f : SegmentFile} {ss : List NamedStream} {offset : UInt64}
    (hfile : f.HasAt offset.toNat (ss.flatMap fun s => s.2.2))
    (hbound : offset.toNat + (ss.flatMap fun s => s.2.2).length < 2 ^ 63) {l : LocatedStream}
    (hl : l ∈ placeAll offset (ss.map NamedStream.info)) :
    ∃ s ∈ ss, l.info = s.info ∧ f.HasAt l.offset.toNat s.2.2
      ∧ l.offset.toNat + s.2.2.length < 2 ^ 63 := by
  have hall := forall₂_placeAll hfile (by omega)
  obtain ⟨i, hi, rfl⟩ := List.getElem_of_mem hl
  obtain ⟨hinfo, hheld, hend⟩ := hall.get hi (hall.length_eq ▸ hi)
  exact ⟨_, List.get_mem _ _, hinfo, hheld, Nat.lt_of_le_of_lt hend hbound⟩

/-- A stream stands behind those that are listed before it. -/
theorem exists_mem_placeAll {before after : List NamedStream} {s : NamedStream} {offset : UInt64}
    (hbound : offset.toNat + (before.flatMap fun s => s.2.2).length < 2 ^ 63) :
    ∃ l ∈ placeAll offset ((before ++ s :: after).map NamedStream.info), l.info = s.info
      ∧ l.offset.toNat = offset.toNat + (before.flatMap fun s => s.2.2).length := by
  induction before generalizing offset with
  | nil => exact ⟨⟨s.info, offset⟩, List.mem_cons_self, rfl, rfl⟩
  | cons t before ih =>
    rw [List.flatMap_cons, List.length_append] at hbound ⊢
    have hnext := toNat_next offset t (by omega)
    obtain ⟨l, hl, hinfo, hoffset⟩ := @ih (offset + t.info.length) (by omega)
    exact ⟨l, List.mem_cons_of_mem _ hl, hinfo, by omega⟩

/-- The lengths in the header are those of the streams, where they are not too long to be recorded. -/
theorem totalLength_info (ss : List NamedStream) (h : (ss.flatMap fun s => s.2.2).length < 2 ^ 64) :
    totalLength (ss.map NamedStream.info) = (ss.flatMap fun s => s.2.2).length := by
  induction ss with
  | nil => rfl
  | cons s ss ih =>
    rw [List.flatMap_cons, List.length_append] at h ⊢
    rw [List.map_cons, totalLength_cons, ih (by omega), NamedStream.info, toNat_ofNat_u64 (by omega)]

end StreamInfo

/-! ### The streams of a segment -/

namespace WrittenSegment

variable {s : WrittenSegment}

/-- The segment has a stream of the given content. -/
def Contains (s : WrittenSegment) (uid : UniqueId) (kind : StreamKind) (content : Bytes) : Prop :=
  ∃ (j : Nat) (c : Column), s.cols[j]? = some c ∧ c.uniqueId = uid
    ∧ c.content? s.options (s.columnBlocks j) kind = some content

/-- A stable id belongs to one stored column. -/
theorem eq_of_uniqueId {i j : Nat} {c d : Column} (hi : s.cols[i]? = some c)
    (hj : s.cols[j]? = some d) (h : c.uniqueId = d.uniqueId) : i = j := by
  have hlt : i < (s.cols.map (·.uniqueId)).length := by
    rw [List.length_map]
    exact (List.getElem?_eq_some_iff.mp hi).1
  refine (List.getElem?_inj hlt s.nodup_cols).mp ?_
  rw [List.getElem?_map, List.getElem?_map, hi, hj, Option.map_some, Option.map_some, h]

theorem Contains.unique {uid : UniqueId} {kind : StreamKind} {a b : Bytes}
    (ha : s.Contains uid kind a) (hb : s.Contains uid kind b) : a = b := by
  obtain ⟨i, c, hi, hc, ha⟩ := ha
  obtain ⟨j, d, hj, hd, hb⟩ := hb
  obtain rfl := eq_of_uniqueId hi hj (hc.trans hd.symm)
  obtain rfl : c = d := Option.some.inj (hi.symm.trans hj)
  exact Option.some.inj (ha.symm.trans hb)

/-- The header lists at most one stream of each kind for a column. -/
theorem nodup_streams (s : WrittenSegment) :
    (s.header.streams.map fun i => (i.uniqueId, i.kind)).Nodup := by
  have hnames : s.header.streams.map (fun i => (i.uniqueId, i.kind))
      = s.cols.zipIdx.flatMap fun e => ((e.1.streams s.options (s.columnBlocks e.2)).map Prod.fst).map
          fun kind => (e.1.uniqueId, kind) := by
    rw [header_streams, segmentStreams, List.map_map, List.map_flatMap]
    refine congrArg (List.flatMap · _) (funext fun e => ?_)
    rw [List.map_map, List.map_map]
    rfl
  rw [hnames, List.nodup_flatMap]
  refine ⟨fun e _ => ?_, ?_⟩
  · rw [Column.map_fst_streams]
    refine List.Nodup.map (fun a b h => (Prod.mk.inj h).2) (List.Nodup.filter _ ?_)
    decide
  · have hids : (s.cols.zipIdx.map fun e => e.1.uniqueId).Nodup := by
      have hnodup := s.nodup_cols
      rwa [← List.zipIdx_map_fst 0 s.cols, List.map_map] at hnodup
    rw [List.Nodup, List.pairwise_map] at hids
    refine hids.imp fun {a b} hne x ha hb => hne ?_
    obtain ⟨kind, -, rfl⟩ := List.mem_map.mp ha
    obtain ⟨kind', -, hsame⟩ := List.mem_map.mp hb
    exact (Prod.mk.inj hsame).1.symm

/-- The segment contains the present stream of a column exactly where it records nulls. -/
theorem contains_present {j : Nat} {c : Column} (hc : s.cols[j]? = some c) {content : Bytes} :
    s.Contains c.uniqueId .present content ↔ c.recordsNulls s.options = true
      ∧ (s.columnBlocks j).flatten.map Value.nullByte = content := by
  constructor
  · rintro ⟨i, d, hi, huid, hcontent⟩
    obtain rfl := eq_of_uniqueId hi hc huid
    obtain rfl : d = c := Option.some.inj (hi.symm.trans hc)
    rw [Column.content?] at hcontent
    by_cases hrecords : d.recordsNulls s.options = true
    · rw [if_pos hrecords] at hcontent
      exact ⟨hrecords, Option.some.inj hcontent⟩
    · rw [if_neg hrecords] at hcontent
      cases hcontent
  · rintro ⟨hrecords, rfl⟩
    exact ⟨j, c, hc, rfl, by rw [Column.content?, if_pos hrecords]⟩

/-- A stream is found in the file. -/
structure Located (s : WrittenSegment) (f : SegmentFile) (l : LocatedStream) (content : Bytes) :
    Prop where
  contains : s.Contains l.info.uniqueId l.info.kind content
  length : l.info.length = UInt64.ofNat (s.options.stream content).length
  held : f.HasAt l.offset.toNat (s.options.stream content)
  bounded : l.offset.toNat + (s.options.stream content).length < 2 ^ 63

/-- The header leads to the streams of the segment. -/
theorem located {f : SegmentFile} (hfile : f.toList = s.bytes) (hfits : s.Fits) {l : LocatedStream}
    (hl : l ∈ StreamInfo.placeAll (UInt64.ofNat s.header.encode.length) s.header.streams) :
    ∃ content, s.Located f l content := by
  have hbytes := hfits.bytes
  rw [s.bytes_eq, List.length_append] at hbytes
  have hstart : (UInt64.ofNat s.header.encode.length).toNat = s.header.encode.length :=
    toNat_ofNat_u64 (by omega)
  rw [s.header_streams] at hl
  obtain ⟨t, ht, hinfo, hheld, hbounded⟩ := StreamInfo.mem_placeAll (f := f)
    ⟨s.header.encode, [], by rw [List.append_nil, hfile, s.bytes_eq], hstart.symm⟩
    (by rw [hstart]; exact hbytes) hl
  obtain ⟨j, c, content, hc, huid, hcontent, hstream⟩ := mem_segmentStreams.mp ht
  rw [hstream] at hheld hbounded
  refine ⟨content, ⟨j, c, hc, ?_, ?_⟩, ?_, hheld, hbounded⟩
  · rw [hinfo]
    exact huid.symm
  · rw [hinfo]
    exact hcontent
  · rw [hinfo, NamedStream.info, hstream]

/-- Every stream of the segment is listed in the header. -/
theorem exists_located {uid : UniqueId} {kind : StreamKind} {content : Bytes}
    (h : s.Contains uid kind content) (offset : UInt64) :
    ∃ l ∈ StreamInfo.placeAll offset s.header.streams,
      l.info.uniqueId = uid ∧ l.info.kind = kind := by
  obtain ⟨j, c, hc, rfl, hcontent⟩ := h
  have hmem : ((c.uniqueId, kind, s.options.stream content) : NamedStream)
      ∈ segmentStreams s.options s.cols s.blocks :=
    mem_segmentStreams.mpr ⟨j, c, content, hc, rfl, hcontent, rfl⟩
  have hinfo := List.mem_map_of_mem (f := NamedStream.info) hmem
  rw [← s.header_streams, ← StreamInfo.map_info_placeAll offset s.header.streams] at hinfo
  obtain ⟨l, hl, heq⟩ := List.mem_map.mp hinfo
  exact ⟨l, hl, by rw [heq]; rfl, by rw [heq]; rfl⟩

/-- A reader at a located stream stores its content. -/
theorem stores_located {f : SegmentFile} {l : LocatedStream} {content : Bytes}
    (h : s.Located f l content) (hlossless : s.Lossless) :
    (StreamReader.make l.offset l.info.length s.options.decompressor?
      s.options.bufferSize.toNat).Stores f s.options.compressor?
        (pieces (max s.options.bufferSize.toNat 1) content) := by
  have hbounded := h.bounded
  have hlength : l.info.length.toNat = (s.options.stream content).length := by
    rw [h.length]
    exact toNat_ofNat_u64 (by omega)
  have hnarrow := s.options.bufferSize.toNat_lt
  refine ⟨h.held, hlength, ?_, ?_, ?_, hlossless⟩
  · show l.offset.toNat + l.info.length.toNat < 2 ^ 63
    omega
  · exact fun c hc => (length_of_mem_pieces (by omega) hc).2
  · show max s.options.bufferSize.toNat 1 < 2 ^ 32
    omega

/-- All of a located stream is its content. -/
theorem readAll_located {f : SegmentFile} {l : LocatedStream} {content : Bytes}
    (h : s.Located f l content) (hlossless : s.Lossless) :
    ((StreamReader.make l.offset l.info.length s.options.decompressor?
      s.options.bufferSize.toNat).readAll f).1 = .ok content := by
  rw [StreamReader.readAll_stores (stores_located h hlossless), pieces_flatten]

/-- The header and its length. -/
def info (s : WrittenSegment) : SegmentMeta := ⟨s.header, UInt64.ofNat s.header.encode.length⟩

/-- The streams of a segment that was written fit behind its header, since the file has them all. -/
theorem addressable (hfits : s.Fits) : s.info.Addressable := by
  have hbytes := hfits.bytes
  rw [s.bytes_eq, List.length_append] at hbytes
  have hstreams := StreamInfo.totalLength_info (segmentStreams s.options s.cols s.blocks) (by omega)
  rw [← s.header_streams] at hstreams
  show (UInt64.ofNat s.header.encode.length).toNat + StreamInfo.totalLength s.header.streams < 2 ^ 64
  rw [toNat_ofNat_u64 (by omega)]
  omega

end WrittenSegment

/-! ### Groups -/

namespace SegmentGroup

/-- The group has the segment under a number, and reads it with the codecs that it was written with. A header that was
parsed before is the one of the file. -/
structure Hosts (g : SegmentGroup) (segment : UInt32) (s : WrittenSegment) (file : FileId) : Prop where
  schema : g.schema = s.schema
  named : g.files.file? segment = some file
  bytes : (g.files.content file).data.toList = s.bytes
  metas : ∀ m, g.metas.lookup segment = some m → m = s.info
  codecs : g.codecs = s.options.codecs

variable {g : SegmentGroup} {segment : UInt32} {s : WrittenSegment} {file : FileId}

/-- The header of the segment is read, or was before. Nothing else about the group changes. -/
theorem segmentMeta_hosts (h : g.Hosts segment s file) (hfits : s.Fits) (backend : Backend) :
    ∃ metas, g.segmentMeta segment ⟨backend, g.files.content file⟩ = .ok (s.info, { g with metas })
      ∧ { g with metas : SegmentGroup }.Hosts segment s file := by
  rcases hmeta : g.metas.lookup segment with _ | m
  · have hread : SegmentHeader.readFrom ⟨backend, g.files.content file⟩
        = .ok (s.header, UInt64.ofNat s.header.encode.length) :=
      SegmentHeader.readFrom_encode (h.bytes.trans s.bytes_eq) hfits.header
    refine ⟨(segment, s.info) :: g.metas, ?_, h.schema, h.named, h.bytes, fun m hm => ?_, h.codecs⟩
    · simp only [segmentMeta, hmeta, hread, bind, Except.bind, pure, Except.pure]
      rfl
    · rw [List.lookup_cons_self, Option.some.injEq] at hm
      exact hm.symm
  · refine ⟨g.metas, ?_, h⟩
    rw [segmentMeta, hmeta, h.metas m hmeta]

/-- A group of one segment, of data from version zero on. -/
def single (s : WrittenSegment) : SegmentGroup :=
  ⟨"group", s.schema, 0, 1, ⟨[(0, 0)], #[⟨s.bytes.toArray⟩]⟩, [], s.options.codecs⟩

theorem hosts_single (s : WrittenSegment) : (single s).Hosts 0 s 0 where
  schema := rfl
  named := rfl
  bytes := by simp [single, SegmentDirectory.content]
  metas := by simp [single]
  codecs := rfl

end SegmentGroup

end SegmentStore
