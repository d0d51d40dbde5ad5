import SegmentStore.Proofs.Sharing
import SegmentStore.Proofs.Shortened
import SegmentStore.Proofs.Tracking

/-!
# Scanning a segment whose file is cut off

A scan of a segment of which the file has lost its end does not come to an end: some call fails, and every block that it
gave before is one of the segment.

* `SegmentGroup.HostsStart` says that a group has the start of a segment, `SegmentGroup.whole` is the group that has all
  of it. `SegmentReader.init_cut` says that a reader is initialised alike of both, if it is initialised at all, and that
  it has read the header and the indexes then.
* `SegmentReader.Stops` is a scan that fails. `SegmentReader.exists_stop` follows a scan of the start beside the one of
  the whole file, block by block. What carries the induction is that no reader has left the start of the file, so that
  the data of the last column, which ends where the file should (`WrittenSegment.endsWith_data`), is never all read.
* `SegmentReader.scan_notices_truncation` is the whole of it, from `init` on.
-/

namespace SegmentStore

open StreamWriter Decoder

/-! ### The end of a written segment -/

/-- Without blocks only the zone map of a column has content. -/
theorem Column.eq_nil_of_content? {c : Column} {o : WriterOptions} {kind : StreamKind} {content : Bytes}
    (hkind : kind ≠ .rowIndex) (h : c.content? o [] kind = some content) : content = [] := by
  cases kind with
  | rowIndex => exact absurd rfl hkind
  | bloomFilter =>
    obtain ⟨-, h⟩ := Option.ite_none_right_eq_some.mp h
    exact (Option.some.inj h).symm
  | present =>
    obtain ⟨-, h⟩ := Option.ite_none_right_eq_some.mp h
    exact (Option.some.inj h).symm
  | data => exact (Option.some.inj h).symm

namespace WrittenSegment

variable {s : WrittenSegment}

theorem length_bytes_pos (s : WrittenSegment) : 0 < s.bytes.length := by
  rw [s.bytes_eq, List.length_append, SegmentHeader.length_encode, SegmentHeader.length_encodeBody]
  omega

/-- A stream of the given name reaches to the end of the file. -/
def EndsWith (s : WrittenSegment) (uid : UniqueId) (kind : StreamKind) : Prop :=
  ∃ l ∈ StreamInfo.placeAll s.info.headerLength s.header.streams, l.info.uniqueId = uid ∧ l.info.kind = kind
    ∧ l.offset.toNat + l.info.length.toNat = s.bytes.length

/-- Streams behind which there are no bytes reach to the end of the file. -/
theorem endsWith_of_split (hfits : s.Fits) (before after : List NamedStream) (t : NamedStream)
    (hsplit : segmentStreams s.options s.cols s.blocks = before ++ t :: after)
    (hafter : (after.flatMap fun t => t.2.2) = []) : s.EndsWith t.1 t.2.1 := by
  have hbytes := hfits.bytes
  have hlength : s.bytes.length
      = s.header.encode.length + (before.flatMap fun t => t.2.2).length + t.2.2.length := by
    rw [s.bytes_eq, hsplit, List.flatMap_append, List.flatMap_cons, hafter, List.append_nil,
      List.length_append, List.length_append]
    omega
  have hstart : s.info.headerLength.toNat = s.header.encode.length := toNat_ofNat_u64 (by omega)
  obtain ⟨l, hl, hinfo, hoffset⟩ :=
    @StreamInfo.exists_mem_placeAll before after t s.info.headerLength (by omega)
  rw [← hsplit, ← s.header_streams] at hl
  refine ⟨l, hl, by rw [hinfo]; rfl, by rw [hinfo]; rfl, ?_⟩
  have hword : t.info.length.toNat = t.2.2.length := toNat_ofNat_u64 (by omega)
  rw [hinfo, hword]
  omega

/-- The streams of the last column are the last ones. -/
theorem segmentStreams_concat {o : WriterOptions} {front : List Column} {c : Column}
    {blocks : List (List (List Value))} :
    segmentStreams o (front ++ [c]) blocks
      = segmentStreams o front blocks
        ++ (c.streams o (SegmentStore.columnBlocks blocks front.length)).map fun s => (c.uniqueId, s) := by
  simp [segmentStreams, List.zipIdx_append]

/-- The last column stands behind the others. -/
theorem exists_last (hcids : s.cids ≠ []) :
    ∃ front cid c, s.cols = front ++ [c] ∧ s.cids[front.length]? = some cid ∧ s.cols[front.length]? = some c := by
  have hcols : s.cols ≠ [] := by
    intro hnil
    have hlength := length_cols (s := s)
    rw [hnil, List.length_nil] at hlength
    exact hcids (List.length_eq_zero_iff.mp hlength.symm)
  obtain ⟨front, c, hsplit⟩ : ∃ front c, s.cols = front ++ [c] :=
    ⟨s.cols.dropLast, s.cols.getLast hcols, (List.dropLast_append_getLast hcols).symm⟩
  have hget : s.cols[front.length]? = some c := by rw [hsplit, List.getElem?_concat_length]
  obtain ⟨cid, hcid, -⟩ := getElem?_cols.mp hget
  exact ⟨front, cid, c, hsplit, hcid, hget⟩

/-- The file ends with the data of the last column. -/
theorem endsWith_data (hfits : s.Fits) {front : List Column} {c : Column} (hcols : s.cols = front ++ [c]) :
    s.EndsWith c.uniqueId .data := by
  let bs := SegmentStore.columnBlocks s.blocks front.length
  obtain ⟨before, hbefore⟩ : ∃ before, c.streams s.options bs
      = before ++ [(.data, s.options.stream (bs.flatten.flatMap (Value.stored c.type)))] := by
    refine ⟨[StreamKind.rowIndex, .bloomFilter, .present].filterMap fun kind =>
      (c.content? s.options bs kind).map fun content => (kind, s.options.stream content), ?_⟩
    rw [Column.streams, StreamKind.all]
    exact @List.filterMap_append _ _ [StreamKind.rowIndex, .bloomFilter, .present] [.data] _
  refine endsWith_of_split hfits (segmentStreams s.options front s.blocks ++ before.map fun s => (c.uniqueId, s)) []
    (c.uniqueId, .data, s.options.stream (bs.flatten.flatMap (Value.stored c.type))) ?_ rfl
  rw [hcols, segmentStreams_concat, hbefore, List.map_append, List.append_assoc]
  rfl

/-- Without rows there is nothing behind the zone map of the last column. -/
theorem endsWith_rowIndex (hfits : s.Fits) {front : List Column} {c : Column} (hcols : s.cols = front ++ [c])
    (hempty : s.blocks = []) : s.EndsWith c.uniqueId .rowIndex := by
  let after : List (StreamKind × Bytes) := [StreamKind.bloomFilter, .present, .data].filterMap fun kind =>
    (c.content? s.options [] kind).map fun content => (kind, s.options.stream content)
  have hstreams : c.streams s.options [] = (.rowIndex, s.options.stream (ZoneMap.encode [])) :: after := rfl
  have hafter : ∀ t ∈ after, t.2 = [] := by
    intro t ht
    obtain ⟨kind, hkind, hmapped⟩ := List.mem_filterMap.mp ht
    obtain ⟨content, hcontent, rfl⟩ := Option.map_eq_some_iff.mp hmapped
    have hother : kind ≠ .rowIndex := by
      rintro rfl
      exact absurd hkind (by decide)
    obtain rfl := Column.eq_nil_of_content? hother hcontent
    rfl
  refine endsWith_of_split hfits (segmentStreams s.options front s.blocks) (after.map fun t => (c.uniqueId, t))
    (c.uniqueId, .rowIndex, s.options.stream (ZoneMap.encode [])) ?_ ?_
  · have hcolumn : SegmentStore.columnBlocks [] front.length = [] := rfl
    rw [hcols, segmentStreams_concat, hempty, hcolumn, hstreams, List.map_cons]
  · rw [List.flatMap_map, List.flatMap_eq_nil_iff]
    exact hafter

end WrittenSegment

/-! ### Loading the indexes -/

theorem ZoneMap.encode_ne_nil (entries : List ZoneMapEntry) : encode entries ≠ [] := by
  simp [encode, u32Bytes, leBytes]

namespace IndexRequest

variable {q : IndexRequest} {f : SegmentFile} {cache : IndexCache}

theorem streamFailure_fatal (uid : UniqueId) (e : StorageError) : (streamFailure uid e).Fatal := by
  cases e with
  | overflow => exact .overflow
  | _ => exact .format _

theorem buffer_cut (hcut : q.file.CutOf f) (huncached : q.cached = false) (l : LocatedStream) (cache : IndexCache)
    (traffic : Traffic) :
    Follows (fun _ => True) (q.buffer l cache traffic) ({ q with file := f }.buffer l cache traffic) := by
  simp only [buffer, huncached, Bool.false_eq_true, if_false, Bool.false_and, StreamReader.readAll]
  rcases (StreamReader.readChunks_cut hcut #[] (.make l.offset l.info.length q.decompress?
    q.info.header.bufferSize.toNat) 0 (l.info.length.toNat + 1)).cases with
    ⟨e, t, hread, he⟩ | ⟨result, t, hread, hread', -⟩
  · have hlength : (StreamReader.make l.offset l.info.length q.decompress?
        q.info.header.bufferSize.toNat).length = l.info.length := rfl
    rw [hlength, hread]
    exact .inr ⟨_, rfl, streamFailure_fatal _ e⟩
  · have hlength : (StreamReader.make l.offset l.info.length q.decompress?
        q.info.header.bufferSize.toNat).length = l.info.length := rfl
    rw [hlength, hread, hread']
    exact .inl ⟨rfl, trivial⟩

/-- The indexes that are loaded of a file that is cut off are those of the whole file. -/
theorem loadStreams_cut (hcut : q.file.CutOf f) (huncached : q.cached = false) (ls : List LocatedStream)
    (set : IndexSet) (cache : IndexCache) (traffic : Traffic) :
    Follows (fun _ => True) (q.loadStreams ls set cache traffic)
      ({ q with file := f }.loadStreams ls set cache traffic) := by
  induction ls generalizing set cache traffic with
  | nil => exact .inl ⟨rfl, trivial⟩
  | cons l ls ih =>
    have hadd : ∀ b, ({ q with file := f } : IndexRequest).add l b set = q.add l b set := fun _ => rfl
    rw [loadStreams, loadStreams]
    rcases (buffer_cut hcut huncached l cache traffic).cases with
      ⟨e, x, hbuffer, he⟩ | ⟨result, x, hbuffer, hbuffer', -⟩
    · rw [hbuffer]
      exact .inr ⟨e, rfl, he⟩
    · rw [hbuffer, hbuffer']
      cases result with
      | error e => exact .inl ⟨rfl, trivial⟩
      | ok b =>
        dsimp only
        rw [hadd]
        cases q.add l b set with
        | error e => exact .inl ⟨rfl, trivial⟩
        | ok set' => exact ih set' _ _

theorem load_cut (hcut : q.file.CutOf f) (huncached : q.cached = false) (cache : IndexCache) :
    Follows (fun _ => True) (q.load cache) ({ q with file := f }.load cache) := by
  by_cases haddressable : q.info.Addressable
  · rw [load_addressable haddressable, load_addressable (q := { q with file := f }) haddressable]
    exact loadStreams_cut hcut huncached _ _ cache .zero
  · have haddressable' : ¬({ q with file := f } : IndexRequest).info.Addressable := haddressable
    rw [load_eq, load_eq, if_neg haddressable, if_neg haddressable']
    exact .inl ⟨rfl, trivial⟩

/-- The indexes that are loaded without a cache were read. -/
theorem stored_of_loadStreams (huncached : q.cached = false) {ls : List LocatedStream} {set set' : IndexSet}
    {traffic : Traffic} (h : (q.loadStreams ls set cache traffic).1 = .ok set') :
    ∀ l ∈ ls, ∃ bs, q.stored l = .ok bs := by
  induction ls generalizing set cache traffic with
  | nil => exact List.forall_mem_nil _
  | cons l ls ih =>
    have hbuffer := buffer_of_uncached huncached l cache traffic
    rw [loadStreams] at h
    split at h
    · cases h
    · rename_i hread
      rw [hread] at hbuffer
      split at h
      · cases h
      · refine List.forall_mem_cons.mpr ⟨?_, ih h⟩
        cases hstored : q.stored l with
        | ok bs => exact ⟨bs, rfl⟩
        | error e =>
          rw [hstored] at hbuffer
          cases hbuffer

end IndexRequest

/-! ### A group with a file that is cut off -/

namespace SegmentGroup

/-- The group has the first `n` bytes of the segment under a number, and has not parsed its header. -/
structure HostsStart (g : SegmentGroup) (segment : UInt32) (s : WrittenSegment) (file : FileId) (n : Nat) : Prop where
  schema : g.schema = s.schema
  named : g.files.file? segment = some file
  bytes : (g.files.content file).data.toList = s.bytes.take n
  unparsed : g.metas.lookup segment = none
  codecs : g.codecs = s.options.codecs

/-- The group with the whole segment in the file. -/
def whole (g : SegmentGroup) (segment : UInt32) (s : WrittenSegment) (file : FileId) : SegmentGroup :=
  { g with files := ⟨[(segment, file)], .replicate (file + 1) ⟨s.bytes.toArray⟩⟩ }

variable {g : SegmentGroup} {segment : UInt32} {s : WrittenSegment} {file : FileId} {n : Nat}

theorem content_whole (g : SegmentGroup) (segment : UInt32) (s : WrittenSegment) (file : FileId) :
    (g.whole segment s file).files.content file = ⟨s.bytes.toArray⟩ := by
  simp [whole, SegmentDirectory.content]

theorem file?_whole (g : SegmentGroup) (segment : UInt32) (s : WrittenSegment) (file : FileId) :
    (g.whole segment s file).files.file? segment = some file :=
  List.lookup_cons_self

theorem HostsStart.hosts_whole (h : g.HostsStart segment s file n) :
    (g.whole segment s file).Hosts segment s file where
  schema := h.schema
  named := file?_whole g segment s file
  bytes := by rw [content_whole]
  metas m hm := absurd (h.unparsed.symm.trans hm).symm (Option.some_ne_none m)
  codecs := h.codecs

theorem HostsStart.cutOf (h : g.HostsStart segment s file n) (hfits : s.Fits) (backend : Backend) :
    SegmentFile.CutOf ⟨backend, g.files.content file⟩ ⟨backend, (g.whole segment s file).files.content file⟩ := by
  rw [content_whole]
  refine ⟨rfl, ⟨s.bytes.drop n, ?_⟩, hfits.bytes⟩
  show s.bytes = (g.files.content file).data.toList ++ s.bytes.drop n
  rw [h.bytes, List.take_append_drop]

theorem HostsStart.size_le (h : g.HostsStart segment s file n) : (g.files.content file).size ≤ n := by
  have hlength := congrArg List.length h.bytes
  rw [List.length_take] at hlength
  show (g.files.content file).data.toList.length ≤ n
  omega

/-- A group of one segment, whose file is cut off behind the first `n` bytes. -/
def start (s : WrittenSegment) (n : Nat) : SegmentGroup :=
  ⟨"group", s.schema, 0, 1, ⟨[(0, 0)], #[⟨(s.bytes.take n).toArray⟩]⟩, [], s.options.codecs⟩

theorem hostsStart_start (s : WrittenSegment) (n : Nat) : (start s n).HostsStart 0 s 0 n where
  schema := rfl
  named := rfl
  bytes := by simp [start, SegmentDirectory.content]
  unparsed := rfl
  codecs := rfl

end SegmentGroup

namespace SegmentReader

variable {r : SegmentReader} {g : SegmentGroup} {s : WrittenSegment} {file : FileId} {n : Nat}
variable {cache : IndexCache} {fillCache : Bool} {stats : ScanStatistics}

/-- The file of the reader is there, cut off or not. -/
theorem openFile_cut {id : FileId} {f : SegmentFile} (h : r.openFile g = .ok (id, f)) :
    r.openFile (g.whole r.segmentId s file)
      = .ok (file, ⟨r.context.options.backend, (g.whole r.segmentId s file).files.content file⟩) := by
  obtain ⟨u, hcheck, -⟩ := bind_eq_ok.mp h
  have hschema : (g.whole r.segmentId s file).schema = g.schema := rfl
  rw [openFile, hschema, hcheck, SegmentGroup.file?_whole]
  rfl

/-- A header that can be read of the start of the file is that of the segment, and lies within the start. -/
theorem segmentMeta_cut (hg : g.HostsStart r.segmentId s file n) (hfits : s.Fits) {backend : Backend}
    {info : SegmentMeta} {g₁ : SegmentGroup}
    (h : g.segmentMeta r.segmentId ⟨backend, g.files.content file⟩ = .ok (info, g₁)) :
    info = s.info ∧ g₁.files = g.files ∧ s.header.encode.length ≤ n
      ∧ (g.whole r.segmentId s file).segmentMeta r.segmentId
          ⟨backend, (g.whole r.segmentId s file).files.content file⟩
        = .ok (s.info, g₁.whole r.segmentId s file) := by
  have hbytes := hfits.bytes
  have hwhole : SegmentHeader.readFrom ⟨backend, (g.whole r.segmentId s file).files.content file⟩
      = .ok (s.header, UInt64.ofNat s.header.encode.length) :=
    SegmentHeader.readFrom_encode (hg.hosts_whole.bytes.trans s.bytes_eq) hfits.header
  rw [SegmentGroup.segmentMeta, hg.unparsed] at h
  obtain ⟨⟨header, length⟩, hread, h⟩ := bind_eq_ok.mp h
  obtain ⟨rfl, rfl⟩ := Prod.mk.inj (Except.ok.inj h)
  have hsame := (SegmentHeader.readFrom_cut (hg.cutOf hfits backend)).eq_ok hread
  obtain ⟨rfl, rfl⟩ := Prod.mk.inj (Except.ok.inj (hwhole.symm.trans hsame))
  refine ⟨rfl, rfl, ?_, ?_⟩
  · have hwithin := (SegmentHeader.length_of_readFrom hread).2
    have hsize : (⟨backend, g.files.content file⟩ : SegmentFile).size ≤ n := hg.size_le
    rw [s.bytes_eq, List.length_append] at hbytes
    rw [toNat_ofNat_u64 (by omega)] at hwithin
    omega
  · have hunparsed : (g.whole r.segmentId s file).metas.lookup r.segmentId = none := hg.unparsed
    rw [SegmentGroup.segmentMeta, hunparsed, hwhole]
    rfl

/-- A reader of a file that is cut off is initialised, if at all, like a reader of the whole file. The header and the
indexes were read then. -/
theorem init_cut (hg : g.HostsStart r.segmentId s file n) (hfits : s.Fits) (huncached : r.context.cached = false)
    (h : (r.init fillCache g cache stats).result = .ok ()) :
    ∃ o g₁ cache₁ stats₁, r.init fillCache g cache stats
        = ⟨.ok (), { r with segment? := some o, readers? := none, blocks? := none, cursor := .start }, g₁, cache₁,
            stats₁⟩
      ∧ r.init fillCache (g.whole r.segmentId s file) cache stats
        = ⟨.ok (), { r with segment? := some o, readers? := none, blocks? := none, cursor := .start },
            g₁.whole r.segmentId s file, cache₁, stats₁⟩
      ∧ g₁.files = g.files ∧ s.header.encode.length ≤ n
      ∧ ∀ l ∈ StreamInfo.place s.header.streams s.info.headerLength o.mapping.needsIndexStream,
          ∃ bs, ((StreamReader.make l.offset l.info.length o.decompress? s.header.bufferSize.toNat).readAll
            ⟨r.context.options.backend, g.files.content file⟩).1 = .ok bs := by
  obtain ⟨id, f, info, g₁, o, hopen, hmeta, hsegment⟩ := opened_of_init h
  obtain ⟨hnamed, rfl⟩ := openFile_ok hopen
  obtain rfl : file = id := Option.some.inj (hg.named.symm.trans hnamed)
  obtain ⟨rfl, hfiles, hheader, hmeta'⟩ := segmentMeta_cut hg hfits hmeta
  have hsegment' : r.openSegment file s.info (g₁.whole r.segmentId s file) = .ok o := hsegment
  have hinit := init_of_opened hopen hmeta hsegment fillCache cache stats
  have hinit' := init_of_opened (openFile_cut hopen) hmeta' hsegment' fillCache cache stats
  -- the two requests differ in the file only
  let q : IndexRequest :=
    { file := ⟨r.context.options.backend, g.files.content file⟩, fileName := g₁.segmentPath r.segmentId
      info := s.info, mapping := o.mapping, schema := g₁.schema, decompress? := o.decompress?
      cached := r.context.cached, fillCache, rowsPerBlock := o.rowsPerBlock }
  let whole : SegmentFile :=
    ⟨r.context.options.backend, (g.whole r.segmentId s file).files.content file⟩
  change r.init fillCache g cache stats = initialised r o g₁ (q.load cache) stats at hinit
  change _ = initialised r o (g₁.whole r.segmentId s file) (({ q with file := whole } : IndexRequest).load cache) stats
    at hinit'
  rw [hinit] at h
  rcases (IndexRequest.load_cut (q := q) (hg.cutOf hfits _) huncached cache).cases with
    ⟨e, x, hload, -⟩ | ⟨result, x, hload, hload', -⟩
  · rw [hload] at h
    cases h
  · rw [hload] at h hinit
    rw [hload'] at hinit'
    cases result with
    | error e => cases h
    | ok indexes =>
      have hloaded := (IndexRequest.loaded_of_load (congrArg Prod.fst hload)).2
      have hstored := IndexRequest.stored_of_loadStreams huncached hloaded
      exact ⟨{ o with indexes }, g₁, _, _, hinit, hinit', hfiles, hheader, hstored⟩

/-! ### Scans that fail -/

/-- Blocks are loaded one by one, each giving the rows of the batch, until a call fails. -/
inductive Stops (g : SegmentGroup) :
    ScanPosition → SegmentReader → RowBatch → ScanStatistics → List (List (List Value)) → StorageError → Prop
  | fails {p : ScanPosition} {r : SegmentReader} {b : RowBatch} {stats : ScanStatistics} {e : StorageError}
      (heof : p.eof = false) (hget : (r.getBlock b g stats).1 = .error e) : Stops g p r b stats [] e
  | block {p p' : ScanPosition} {r r' : SegmentReader} {b b' : RowBatch} {stats stats' : ScanStatistics}
      {rest : List (List (List Value))} {e : StorageError} (heof : p.eof = false)
      (hget : r.getBlock b g stats = (.ok p', r', b', stats')) (hrest : Stops g p' r' b' stats' rest e) :
      Stops g p r b stats (b'.rows :: rest) e

/-- A scan that fails does not come to its end. -/
theorem Stops.not_loads {p : ScanPosition} {b : RowBatch} {xs ys : List (List (List Value))} {e : StorageError}
    (h : Stops g p r b stats xs e) : ¬Loads g p r b stats ys := by
  induction h generalizing ys with
  | fails heof hget =>
    intro hloads
    cases hloads with
    | done heof' => exact absurd (heof.symm.trans heof') (by decide)
    | block _ hget' _ =>
      rw [hget'] at hget
      cases hget
  | block heof hget hrest ih =>
    intro hloads
    cases hloads with
    | done heof' => exact absurd (heof.symm.trans heof') (by decide)
    | block _ hget' hrest' =>
      rw [hget] at hget'
      obtain ⟨hp, hr, hb, hstats⟩ : _ ∧ _ ∧ _ ∧ _ := by simpa only [Prod.mk.injEq, Except.ok.injEq] using hget'
      subst hp hr hb hstats
      exact ih hrest'

variable {o : OpenSegment} {ids : List ColumnId} {block : Nat} {batch : RowBatch}

/-- A column that is read has its default accepted, if it is not stored. -/
theorem acceptsDefaults_of_reads {k : Nat} (hk : 0 < k) {m : Marks} (h : reads s k ids m = true) :
    AcceptsDefaults s ids := by
  induction ids generalizing m with
  | nil => exact fun cid hcid => absurd hcid List.not_mem_nil
  | cons cid ids ih =>
    rw [reads, Bool.and_eq_true, Bool.not_eq_true'] at h
    refine List.forall_mem_cons.mpr ⟨fun habsent c hc => ?_, ih h.2⟩
    have hstops := h.1
    simp only [WrittenSegment.stops, hk, decide_true, Bool.true_and, habsent, if_false, hc, Option.any_some,
      Bool.not_eq_false'] at hstops
    exact hstops

/-- A column that cannot hold its default lets the call fail. -/
theorem getBlock_refused (hr : r.Between g s file o ids block) (hfits : s.Fits) (hblock : block < s.blocks.length)
    (hids : ids ⊆ r.context.used) (hdefaults : ¬AcceptsDefaults s ids) (hbatch : batch.columnIds = ids)
    (htyped : Typed s batch.columns) (hcapacity : s.options.rowsPerBlock.toNat ≤ batch.capacity)
    (stats : ScanStatistics) : ∃ e, (r.getBlock batch g stats).1 = .error e := by
  obtain ⟨t, ht, -, -⟩ := hr.readers
  obtain ⟨r₁, t₁, hposition, hr₁, -, ht₁, hcurrent₁, -, hat₁⟩ := positionColumns_between hr hblock hids hbatch ht
  rw [WrittenSegment.rowsFrom_eq_drop hblock] at hat₁
  have hcolumns : batch.columns.map (·.id) = ids := hbatch
  have hpos : 0 < s.blocks[block].length := List.length_pos_iff.mpr (WrittenSegment.block_ne_nil (List.getElem_mem hblock))
  have hmarked : t₁.Marked s (r.scanFile g file) ids fun _ => block * s.options.rowsPerBlock.toNat := hat₁
  obtain ⟨result, t₂, batch', hread, -, hresult⟩ := readColumns_marked s.blocks[block].length []
    (List.nil_append batch.columns).symm htyped (hcolumns ▸ List.Subset.refl ids) hmarked
  rw [hcolumns, if_neg fun hreads => hdefaults (acceptsDefaults_of_reads hpos hreads)] at hresult
  obtain ⟨e, rfl⟩ := hresult
  have hload := rowsToLoad_of hr₁.written hfits hcapacity hblock
  have heof : r.cursor.eof = false := by
    rw [hr.eof]
    exact decide_eq_false (by omega)
  have hopened : (⟨r.context.options.backend, g.files.content o.file⟩ : SegmentFile)
      = r.scanFile g file := by rw [scanFile, hr.opened]
  refine ⟨e, ?_⟩
  rw [List.length_nil] at hread
  rw [getBlock, heof, hr.segment, ht, if_neg (by decide)]
  simp only [hopened, hposition, ht₁, Option.getD_some, loadBlock, hcurrent₁, hload, hread]

/-! ### The run -/

/-- A column of which the data does not lie within the first `n` bytes has been read to its end by no reader that went
on within them. -/
theorem not_at_end {f : SegmentFile} {t₀ t : ReaderTable} {cid : ColumnId} {d : StreamReader} (hrows : s.rows ≠ [])
    (hcid : cid ∈ s.cids) (hids : cid ∈ ids) (hd : t₀.data? cid = some d) (hfresh : d.nextChunk = 0)
    (hbeyond : n < d.offset.toNat + d.length.toNat) (hmoved : t₀.MovedWithin n t) : ¬t.At s f ids [] := by
  intro hat
  obtain ⟨x, hlookup, hx⟩ := hat cid hids
  cases hx with
  | absent habsent _ => exact habsent hcid
  | @stored j c p _ _ _ _ hahead =>
    have hdata : t.data? cid = some p.data := by
      rw [ReaderTable.data?, hlookup]
      rfl
    obtain ⟨d', hd', hwithin⟩ := hmoved cid p.data hdata
    obtain rfl : d = d' := Option.some.inj (hd.symm.trans hd')
    have hne : pieces (max s.options.bufferSize.toNat 1) ((s.rows.map (rowCell j)).flatMap (Value.stored p.type))
        ≠ [] := by
      intro hnil
      have hflat := pieces_flatten (max s.options.bufferSize.toNat 1)
        ((s.rows.map (rowCell j)).flatMap (Value.stored p.type))
      rw [hnil, List.flatten_nil] at hflat
      obtain ⟨row, hrow⟩ := List.exists_mem_of_ne_nil s.rows hrows
      exact Value.stored_ne_nil (List.flatMap_eq_nil_iff.mp hflat.symm _ (List.mem_map_of_mem hrow))
    have hend := StreamReader.within_of_delivers_nil hfresh hwithin hahead.data
      (fun c => PlainReader.ne_nil_of_mem_pieces) hne
    omega

/-- A scan of a file that is cut off goes on as the one of the whole file until it fails, and it fails before the end.
The induction is on the blocks that are left. -/
theorem exists_stop {g' : SegmentGroup} {t₀ t : ReaderTable} (hr : r.Between g s file o ids block) (hfits : s.Fits)
    (hids : ids ⊆ r.context.used) (hnodup : ids.Nodup) (hbatch : batch.columnIds = ids)
    (htyped : Typed s batch.columns) (hcapacity : s.options.rowsPerBlock.toNat ≤ batch.capacity)
    (hcut : SegmentFile.CutOf ⟨r.context.options.backend, g'.files.content file⟩ (r.scanFile g file))
    (hreaders : r.readers? = some t) (hmoved : t₀.MovedWithin (g'.files.content file).size t)
    (hat : s.blocks.length ≤ block → t.At s (r.scanFile g file) ids [])
    (hend : ∀ t' f, t₀.MovedWithin (g'.files.content file).size t' → ¬t'.At s f ids [])
    (stats : ScanStatistics) :
    ∃ k e, Stops g' r.cursor.position r batch stats
      (((s.blocks.drop block).take k).map fun rows => rows.map fun row => ids.map (s.cell row)) e := by
  generalize hleft : s.blocks.length - block = left
  induction left generalizing r block batch stats t with
  | zero => exact absurd (hat (by omega)) (hend t _ hmoved)
  | succ left ih =>
    have hblock : block < s.blocks.length := by omega
    have heof : r.cursor.position.eof = false := by
      show r.cursor.eof = false
      rw [hr.eof, decide_eq_false (by omega)]
    have hfails : ∀ e, (r.getBlock batch g' stats).1 = .error e → ∃ k e, Stops g' r.cursor.position r batch stats
        (((s.blocks.drop block).take k).map fun rows => rows.map fun row => ids.map (s.cell row)) e :=
      fun e he => ⟨0, e, .fails heof he⟩
    have hopened := hr.opened
    subst hopened
    rcases (getBlock_cut hr.segment hreaders hcut batch stats).cases with
      ⟨e, x, hget, -⟩ | ⟨result, x, hget, hget', t', ht', hmoved'⟩
    · exact hfails e (by rw [hget])
    · -- what the call to the whole file gives is known, and this one gave the same
      by_cases hdefaults : AcceptsDefaults s ids
      · obtain ⟨r', batch', stats', hget₁, hr', hcontext, hbatch', htyped', hcapacity', hrows, t₁, ht₁, hat₁⟩ :=
          getBlock_between hr hfits hblock hids hnodup hdefaults hbatch htyped hcapacity stats
        rw [hget₁] at hget'
        obtain ⟨rfl, rfl⟩ := Prod.mk.inj hget'
        obtain rfl : t₁ = t' := Option.some.inj (ht₁.symm.trans ht')
        have hfile : r'.scanFile g o.file = r.scanFile g o.file := by rw [scanFile, scanFile, hcontext]
        have hat' : s.blocks.length ≤ block + 1 → t₁.At s (r'.scanFile g o.file) ids [] := by
          intro hpast
          rwa [hfile, ← List.flatten_nil, ← List.drop_eq_nil_of_le hpast]
        obtain ⟨k, e, hstops⟩ := ih hr' (by rwa [hcontext]) hbatch' htyped' (by rwa [hcapacity'])
          (by rwa [hfile, hcontext]) ht₁ (hmoved.trans hmoved') hat' stats' (by omega)
        refine ⟨k + 1, e, ?_⟩
        rw [List.drop_eq_getElem_cons hblock, List.take_succ_cons, List.map_cons, ← hrows]
        exact .block heof hget hstops
      · obtain ⟨e, he⟩ := getBlock_refused hr hfits hblock hids hdefaults hbatch htyped hcapacity stats
        rw [hget'] at he
        exact hfails e (by rw [hget]; exact he)

/-! ### What lies beyond the cut -/

/-- A zone map that was read lies within the start of the file. -/
theorem rowIndex_within (hg : g.HostsStart r.segmentId s file n) (hfits : s.Fits) (hlossless : s.Lossless)
    {l : LocatedStream} (hl : l ∈ StreamInfo.placeAll s.info.headerLength s.header.streams)
    (hkind : l.info.kind = .rowIndex) {backend : Backend} {bs : Bytes}
    (hread : ((StreamReader.make l.offset l.info.length s.options.decompressor?
      s.options.bufferSize.toNat).readAll ⟨backend, g.files.content file⟩).1 = .ok bs) :
    l.offset.toNat + l.info.length.toNat ≤ n := by
  obtain ⟨content, hlocated⟩ := WrittenSegment.located
    (f := ⟨backend, (g.whole r.segmentId s file).files.content file⟩) hg.hosts_whole.bytes hfits hl
  have hstores := WrittenSegment.stores_located hlocated hlossless
  -- a zone map has its count also when it has no entries, so that there is a chunk to read
  have hne : pieces (max s.options.bufferSize.toNat 1) content ≠ [] := by
    intro hnil
    have hflat := pieces_flatten (max s.options.bufferSize.toNat 1) content
    obtain ⟨j, c, -, -, hcontent⟩ := hlocated.contains
    rw [hkind] at hcontent
    rw [hnil, List.flatten_nil, ← Option.some.inj hcontent] at hflat
    exact absurd hflat.symm (ZoneMap.encode_ne_nil _)
  exact (StreamReader.readAll_within (hg.cutOf hfits backend) hstores hne hread).trans hg.size_le

/-- A segment of which the start is enough to open it has columns and rows, if it does not end there. -/
theorem nonempty_of_init (hg : g.HostsStart r.segmentId s file n) (hn : n < s.bytes.length) (hfits : s.Fits)
    (hlossless : s.Lossless) (hheader : s.header.encode.length ≤ n) (ho : o.Of s r.context.used)
    (hused : s.cids ⊆ r.context.used)
    (hstored : ∀ l ∈ StreamInfo.place s.header.streams s.info.headerLength o.mapping.needsIndexStream,
      ∃ bs, ((StreamReader.make l.offset l.info.length o.decompress? s.header.bufferSize.toNat).readAll
        ⟨r.context.options.backend, g.files.content file⟩).1 = .ok bs) :
    s.cids ≠ [] ∧ s.blocks ≠ [] := by
  -- without columns the file is its header, which was read
  have hcids : s.cids ≠ [] := by
    intro hnil
    have hcols : s.cols = [] := by rw [WrittenSegment.cols, hnil, List.filterMap_nil]
    have hbytes : s.bytes = s.header.encode := by
      rw [s.bytes_eq, hcols]
      exact List.append_nil _
    rw [hbytes] at hn
    omega
  -- without rows it ends with a zone map, which was read as well
  refine ⟨hcids, fun hempty => ?_⟩
  obtain ⟨front, cid, c, hcols, hcid, hc⟩ := WrittenSegment.exists_last hcids
  obtain ⟨l, hl, huid, hkind, hends⟩ := WrittenSegment.endsWith_rowIndex hfits hcols hempty
  obtain ⟨a, ha, hcolumn⟩ := WrittenSegment.getElem?_cols.mp hc
  obtain rfl : cid = a := Option.some.inj (hcid.symm.trans ha)
  have hneeded : o.mapping.needsIndexStream l.info = true := by
    have hprojected := ho.mapping.projected cid (hused (List.mem_of_getElem? hcid)) c hcolumn
    have hisStored := ho.mapping.isStored_iff.mpr ⟨_, c, hc, rfl⟩
    simp [ColumnMapping.needsIndexStream, huid, hkind, hisStored, hprojected]
  obtain ⟨bs, hread⟩ := hstored l (List.mem_filter.mpr ⟨hl, hneeded⟩)
  have hbuffer : s.header.bufferSize = s.options.bufferSize := by rw [s.header_eq, segmentHeader]
  rw [ho.decompress, hbuffer] at hread
  have hwithin := rowIndex_within hg hfits hlossless hl hkind hread
  omega

/-- The readers that are made of a segment that goes on beyond the first `n` bytes cannot come to its end within them. -/
theorem not_at_end_of_make (hopened : r.Opened g s file o) (hfits : s.Fits) (hn : n < s.bytes.length)
    (hcids : s.cids ≠ []) (hblocks : s.blocks ≠ []) (hall : s.cids ⊆ ids) (hids : ids ⊆ r.context.used)
    {t₀ : ReaderTable} (hmake : r.makeReaders o g.schema = .ok t₀)
    (hof : t₀.Of s (r.scanFile g file) r.context.used) (t : ReaderTable) (f : SegmentFile)
    (hmoved : t₀.MovedWithin n t) : ¬t.At s f ids [] := by
  obtain ⟨front, cid, c, hcols, hcid, hc⟩ := WrittenSegment.exists_last hcids
  obtain ⟨l, hl, huid, hkind, hends⟩ := WrittenSegment.endsWith_data hfits hcols
  obtain ⟨a, ha, hcolumn⟩ := WrittenSegment.getElem?_cols.mp hc
  obtain rfl : cid = a := Option.some.inj (hcid.symm.trans ha)
  have hstored : cid ∈ s.cids := List.mem_of_getElem? hcid
  obtain ⟨x, hlookup, hx⟩ := hof cid (hids (hall hstored))
  have hdrawn := makeReaders_listed hmake hlookup
  cases hx with
  | absent habsent _ => exact absurd hstored habsent
  | @stored j d p _ _ _ _ _ =>
    obtain ⟨c', hc', hdata, -⟩ := hdrawn
    rw [hopened.hosts.schema] at hc'
    obtain rfl : c = c' := Option.some.inj (hcolumn.symm.trans hc')
    have hfresh := hdata.fresh.2
    obtain ⟨l', hl', hname, hd⟩ := hdata
    obtain ⟨huid', hkind'⟩ := Prod.mk.inj hname
    rw [hopened.written.info] at hl'
    -- the stream that ends the file is the one from which the reader was made
    obtain rfl := StreamInfo.eq_of_mem_placeAll s.nodup_streams hl hl' (huid'.symm.trans huid.symm)
      (hkind'.symm.trans hkind.symm)
    have hrows : s.rows ≠ [] := by
      rintro hnil
      exact hblocks (by rw [WrittenSegment.blocks, hnil]; rfl)
    have hfound : t₀.data? cid = some p.data := by
      rw [ReaderTable.data?, hlookup]
      rfl
    have hbeyond : n < p.data.offset.toNat + p.data.length.toNat := by
      rw [hd]
      show n < l'.offset.toNat + l'.info.length.toNat
      omega
    exact not_at_end hrows hstored (hall hstored) hfound hfresh hbeyond hmoved

/-- The first seek makes the column readers, and leaves them where they are. -/
theorem readers_of_seek (ho : r.segment? = some o) (hnone : r.readers? = none) {first last : Nat} {unfiltered : Bool}
    {p : ScanPosition} {r' : SegmentReader} {stats' : ScanStatistics}
    (h : r.seekToBlock first last unfiltered g stats = (.ok p, r', stats')) :
    ∃ t, r.makeReaders o g.schema = .ok t ∧ r'.readers? = some t := by
  simp only [seekToBlock, ho, hnone] at h
  cases hmake : r.makeReaders o g.schema with
  | error e =>
    rw [hmake] at h
    cases congrArg Prod.fst h
  | ok t =>
    rw [hmake, ← ho] at h
    obtain ⟨result, stats₁, blocks?, cursor, hseek, -, -⟩ :=
      seekRange_keeps { r with readers? := some t } o first last unfiltered g stats
    obtain rfl : _ = r' := congrArg (fun x => x.2.1) (hseek.symm.trans h)
    exact ⟨t, rfl, rfl⟩

/-! ### Truncation is noticed -/

/-- What the scan of a file that is cut off comes to: the reader is not initialised, or it goes to the first block and
some call fails, all blocks before that being those of the segment. -/
theorem scan_notices_truncation (s : WrittenSegment) (hfits : s.Fits) (hlossless : s.Lossless)
    (hg : g.HostsStart r.segmentId s file n) (hn : n < s.bytes.length) (huncached : r.context.cached = false)
    (hall : s.cids ⊆ ids) (hids : ids ⊆ r.context.used) (hnodup : ids.Nodup) {capacity : Nat}
    (hbatch : RowBatch.make s.schema ids capacity = .ok batch)
    (hcapacity : s.options.rowsPerBlock.toNat ≤ capacity) {last : Nat} (hlast : s.blocks.length ≤ last + 1)
    {unfiltered : Bool}
    (hunfiltered : unfiltered = false → r.context.conditions? = none ∧ r.context.deletes? = none)
    (fillCache : Bool) (cache : IndexCache) (stats : ScanStatistics) :
    (∃ e, (r.init fillCache g cache stats).result = .error e)
      ∨ (r.init fillCache g cache stats).result = .ok ()
        ∧ ∃ p r' stats', (r.init fillCache g cache stats).reader.seekToBlock 0 last unfiltered
            (r.init fillCache g cache stats).group (r.init fillCache g cache stats).stats = (.ok p, r', stats')
        ∧ (∃ k e, Stops (r.init fillCache g cache stats).group p r' batch stats'
            ((s.blocks.take k).map fun rows => rows.map fun row => ids.map (s.cell row)) e)
        ∧ ∀ blocks, ¬Loads (r.init fillCache g cache stats).group p r' batch stats' blocks := by
  cases hresult : (r.init fillCache g cache stats).result with
  | error e => exact .inl ⟨e, rfl⟩
  | ok _ =>
    -- the reader is that of the whole segment, of which everything is known
    obtain ⟨o, g₁, cache₁, stats₁, hinit, hinit', hfiles, hheader, hstored⟩ := init_cut hg hfits huncached hresult
    have hcache : r.context.cached = true →
        cache.Agrees ((g.whole r.segmentId s file).segmentPath r.segmentId) s := by
      intro hcached
      rw [huncached] at hcached
      cases hcached
    obtain ⟨o', hopened, hcontext, -⟩ := init_opened hg.hosts_whole hfits hlossless hcache (by rw [hinit'])
    rw [hinit'] at hopened hcontext
    obtain rfl : o = o' := Option.some.inj hopened.segment
    obtain ⟨hcids, hblocks⟩ := nonempty_of_init hg hn hfits hlossless hheader hopened.written
      (List.Subset.trans hall hids) hstored
    obtain ⟨batch', hmake, hcolumns, htyped, hbatchCapacity⟩ :=
      exists_batch (s := s) (fun cid hcid => hopened.used cid (hids hcid)) capacity
    obtain rfl : batch = batch' := Except.ok.inj (hbatch.symm.trans hmake)
    obtain ⟨r', stats', hseek, hcontext', hstart⟩ :=
      seekToBlock_unpruned hopened hfits hlossless hunfiltered last hlast ids stats₁
    have hbetween := hstart.resolve_left fun hempty => hblocks hempty.1
    obtain ⟨t₀, hmade, hreaders⟩ := readers_of_seek hopened.segment hopened.readers hseek
    obtain ⟨t, hmade', hof⟩ := makeReaders_of hopened hfits hlossless
    obtain rfl : t₀ = t := Except.ok.inj (hmade.symm.trans hmade')
    -- but it reads the file that is cut off
    have hsize : (g₁.files.content file).size < s.bytes.length := by
      rw [hfiles]
      exact Nat.lt_of_le_of_lt hg.size_le hn
    have hcut : SegmentFile.CutOf ⟨r'.context.options.backend, g₁.files.content file⟩
        (r'.scanFile (g₁.whole r.segmentId s file) file) := by
      rw [hfiles]
      exact hg.cutOf hfits _
    have hscan := exists_stop hbetween hfits (by rwa [hcontext']) hnodup hcolumns htyped (by rwa [hbatchCapacity])
      hcut hreaders (.refl t₀) (fun hnone => absurd (List.length_eq_zero_iff.mp (Nat.le_zero.mp hnone)) hblocks)
      (not_at_end_of_make hopened hfits hsize hcids hblocks hall hids hmade hof) stats'
    rw [List.drop_zero] at hscan
    rw [hinit]
    obtain ⟨k, e, hstops⟩ := hscan
    exact .inr ⟨rfl, r'.cursor.position, r', stats', hseek, ⟨k, e, hstops⟩, fun blocks => hstops.not_loads⟩

/-- The notes, keys and values of the small segment, when the last byte of its file is missing. -/
theorem scan_notices_truncation_sample :
    let opened := (make 0 sampleContext).init true
      (.start .sample (WrittenSegment.sample.bytes.length - 1)) .empty .zero
    ∃ batch, RowBatch.make WrittenSegment.sample.schema [2, 0, 1] 2 = .ok batch
      ∧ ((∃ e, opened.result = .error e)
        ∨ opened.result = .ok ()
          ∧ ∃ p r stats, opened.reader.seekToBlock 0 1 true opened.group opened.stats = (.ok p, r, stats)
          ∧ (∃ k e, Stops opened.group p r batch stats ((WrittenSegment.sample.blocks.take k).map fun rows =>
              rows.map fun row => [2, 0, 1].map (WrittenSegment.sample.cell row)) e)
          ∧ ∀ blocks, ¬Loads opened.group p r batch stats blocks) := by
  have hn : WrittenSegment.sample.bytes.length - 1 < WrittenSegment.sample.bytes.length :=
    Nat.sub_lt (WrittenSegment.length_bytes_pos .sample) Nat.one_pos
  have hlast : WrittenSegment.sample.blocks.length ≤ 1 + 1 := by decide +kernel
  have hcapacity : WrittenSegment.sample.options.rowsPerBlock.toNat ≤ 2 := by decide
  have hcolumns : ∀ cid ∈ ([2, 0, 1] : List ColumnId), (WrittenSegment.sample.schema.column? cid).isSome :=
    List.all_eq_true.mp rfl
  obtain ⟨batch, hmake, -⟩ := exists_batch hcolumns 2
  exact ⟨batch, hmake, scan_notices_truncation .sample WrittenSegment.fits_sample WrittenSegment.lossless_sample
    (SegmentGroup.hostsStart_start .sample _) hn rfl (by decide) (List.Subset.refl [2, 0, 1]) (by decide) hmake
    hcapacity hlast (fun h => absurd h (by decide)) true .empty .zero⟩

end SegmentReader

end SegmentStore
