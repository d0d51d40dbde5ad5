import SegmentStore.Proofs.Loading
import SegmentStore.Scan.Reader

/-!
# Opening a written segment

* `SegmentReader.Opened` describes a reader whose header and indexes are those of a written segment.
* `SegmentReader.init_result_iff` says when a reader is initialised: its conditions fit the table, and the
  columns it names exist.
* `SegmentReader.init_opened` is the reader that this leaves behind.
-/

namespace SegmentStore

theorem WriterOptions.decompressorFor_tag (o : WriterOptions) :
    o.codecs.decompressorFor o.compression.tag = .ok o.decompressor? := by
  rw [WriterOptions.decompressor?, WriterOptions.codec?]
  cases o.compression <;> rfl

/-- The segment that was opened is the written one. -/
structure OpenSegment.Of (o : OpenSegment) (s : WrittenSegment) (used : List ColumnId) : Prop where
  info : o.info = s.info
  decompress : o.decompress? = s.options.decompressor?
  rowsPerBlock : o.rowsPerBlock = s.options.rowsPerBlock.toNat
  mapping : o.mapping.Of s used
  indexes : o.indexes.Of s
  /-- The zone maps of projected columns are at hand. -/
  zoneMaps : ∀ cid ∈ used, ∀ (j : Nat) (c : Column), s.cids[j]? = some cid → s.cols[j]? = some c →
    (o.indexes.zoneMap? c.uniqueId).isSome

namespace SegmentReader

/-- A reader right after it was initialised, of a group that still has the segment. -/
structure Opened (r : SegmentReader) (g : SegmentGroup) (s : WrittenSegment) (file : FileId)
    (o : OpenSegment) : Prop where
  segment : r.segment? = some o
  opened : o.file = file
  written : o.Of s r.context.used
  hosts : g.Hosts r.segmentId s file
  used : ∀ cid ∈ r.context.used, (s.schema.column? cid).isSome
  readers : r.readers? = none

/-- What a reader asks for can be answered from the table. -/
structure Answerable (context : ReadContext) (schema : TabletSchema) : Prop where
  conditions : checkContext context schema = .ok ()
  used : ∀ cid ∈ context.used, (schema.column? cid).isSome
  bloom : ∀ cid ∈ context.bloomColumns, (schema.column? cid).isSome

variable {r : SegmentReader} {g : SegmentGroup} {s : WrittenSegment} {file : FileId}
variable {cache : IndexCache}

/-- The header is accepted, and the segment is opened if the columns exist. -/
theorem openSegment_of (hg : g.Hosts r.segmentId s file) :
    r.openSegment file s.info g
      = (ColumnMapping.build s.schema r.context.used r.context.bloomColumns s.header).map
          fun m => ⟨file, s.info, s.options.decompressor?, s.options.rowsPerBlock.toNat, m,
            ⟨[], [], 0⟩⟩ := by
  have hversion : s.info.header.checkVersion = .ok () := by
    rw [WrittenSegment.info, s.header_eq, segmentHeader, SegmentHeader.checkVersion, if_pos rfl]
  have hpos := s.rowsPerBlock_pos
  have hrows : rowsPerBlock s.info.header g = .ok s.options.rowsPerBlock.toNat := by
    have hne : s.options.rowsPerBlock ≠ 0 := by
      intro hzero
      rw [hzero] at hpos
      exact absurd hpos (by decide)
    rw [WrittenSegment.info, s.header_eq, segmentHeader, rowsPerBlock]
    simp only [hne, if_false]
  have hdecompress : g.codecs.decompressorFor s.info.header.compression = .ok s.options.decompressor? := by
    rw [WrittenSegment.info, s.header_eq, segmentHeader, hg.codecs]
    exact s.options.decompressorFor_tag
  simp only [openSegment, hversion, hrows, hdecompress, hg.schema, bind, Except.bind, pure, Except.pure]
  have hheader : s.info.header = s.header := rfl
  rw [hheader]
  cases ColumnMapping.build s.schema r.context.used r.context.bloomColumns s.header <;> rfl

/-- A reader is initialised when its request can be answered. -/
theorem init_of (hg : g.Hosts r.segmentId s file) (hfits : s.Fits) (hlossless : s.Lossless)
    (hcache : r.context.cached = true → cache.Agrees (g.segmentPath r.segmentId) s)
    (hr : Answerable r.context s.schema) (fillCache : Bool) (stats : ScanStatistics) :
    ∃ o metas cache' stats', r.init fillCache g cache stats
        = ⟨.ok (), { r with segment? := some o, readers? := none, blocks? := none, cursor := .start },
            { g with metas }, cache', stats'⟩
      ∧ Opened { r with segment? := some o, readers? := none, blocks? := none, cursor := .start }
          { g with metas } s file o := by
  have hopen : r.openFile g = .ok (file, ⟨r.context.options.backend, g.files.content file⟩) := by
    simp only [openFile, hg.schema, hr.conditions, hg.named, bind, Except.bind, pure, Except.pure]
  obtain ⟨metas, hmeta, hg'⟩ := SegmentGroup.segmentMeta_hosts hg hfits r.context.options.backend
  obtain ⟨m, hm⟩ := ColumnMapping.exists_build hr.used hr.bloom
  have hsegment := openSegment_of (r := r) hg'
  rw [hm] at hsegment
  let q : IndexRequest :=
    { file := ⟨r.context.options.backend, g.files.content file⟩
      fileName := { g with metas : SegmentGroup }.segmentPath r.segmentId
      info := s.info, mapping := m, schema := g.schema
      decompress? := s.options.decompressor?, cached := r.context.cached, fillCache
      rowsPerBlock := s.options.rowsPerBlock.toNat }
  have hq : q.Of s r.context.used :=
    ⟨hg.bytes, rfl, (ColumnMapping.of_build hm).1, hg.schema, rfl, rfl⟩
  obtain ⟨set, cache', traffic, hload, hset, hzones⟩ :=
    IndexRequest.load_of cache hq hfits hlossless hcache
  let o : OpenSegment := ⟨file, s.info, s.options.decompressor?,
    s.options.rowsPerBlock.toNat, m, set⟩
  refine ⟨o, metas, cache'.releaseAll r.buffers, stats.addTraffic traffic, ?_,
    rfl, rfl, ⟨rfl, rfl, rfl, (ColumnMapping.of_build hm).1, hset, hzones⟩, hg', hr.used, rfl⟩
  simp only [q] at hload
  simp only [init, hopen, hmeta, hsegment, Except.map, hload, o]

/-- A reader is initialised exactly when its request can be answered. -/
theorem init_result_iff (hg : g.Hosts r.segmentId s file) (hfits : s.Fits) (hlossless : s.Lossless)
    (hcache : r.context.cached = true → cache.Agrees (g.segmentPath r.segmentId) s)
    (fillCache : Bool) (stats : ScanStatistics) :
    (r.init fillCache g cache stats).result = .ok () ↔ Answerable r.context s.schema := by
  constructor
  · intro h
    cases hconditions : checkContext r.context s.schema with
    | error e =>
      have hopen : r.openFile g = .error e := by
        simp only [openFile, hg.schema, hconditions, bind, Except.bind]
      simp [init, hopen] at h
    | ok u =>
      have hopen : r.openFile g = .ok (file, ⟨r.context.options.backend, g.files.content file⟩) := by
        simp only [openFile, hg.schema, hconditions, hg.named, bind, Except.bind, pure, Except.pure]
      obtain ⟨metas, hmeta, hg'⟩ := SegmentGroup.segmentMeta_hosts hg hfits r.context.options.backend
      have hsegment := openSegment_of (r := r) hg'
      cases hm : ColumnMapping.build s.schema r.context.used r.context.bloomColumns s.header with
      | error e =>
        rw [hm] at hsegment
        simp [init, hopen, hmeta, hsegment, Except.map] at h
      | ok m =>
        obtain ⟨-, hused, hbloom⟩ := ColumnMapping.of_build hm
        exact ⟨hconditions, hused, hbloom⟩
  · intro hr
    obtain ⟨o, metas, cache', stats', hinit, -⟩ := init_of hg hfits hlossless hcache hr fillCache stats
    rw [hinit]

/-- What initialising a reader leaves behind. -/
theorem init_opened (hg : g.Hosts r.segmentId s file) (hfits : s.Fits) (hlossless : s.Lossless)
    (hcache : r.context.cached = true → cache.Agrees (g.segmentPath r.segmentId) s)
    {fillCache : Bool} {stats : ScanStatistics} (h : (r.init fillCache g cache stats).result = .ok ()) :
    ∃ o, (r.init fillCache g cache stats).reader.Opened (r.init fillCache g cache stats).group s file o
      ∧ (r.init fillCache g cache stats).reader.context = r.context
      ∧ (r.init fillCache g cache stats).group.version = g.version := by
  have hr := (init_result_iff hg hfits hlossless hcache fillCache stats).mp h
  obtain ⟨o, metas, cache', stats', hinit, ho⟩ := init_of hg hfits hlossless hcache hr fillCache stats
  rw [hinit]
  exact ⟨o, ho, rfl, rfl⟩

end SegmentReader

end SegmentStore
