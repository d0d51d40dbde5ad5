import SegmentStore.Proofs.Phases
import SegmentStore.Proofs.Readers

/-!
# Seeking in a written segment

* `PruneRequest.Of` says that pruning looks at the indexes of a written segment.
* `SegmentReader.seekRange_eq` is the reader that a seek leaves, pruned or not.
* `SegmentReader.seekToBlock_pruned` says that a seek to a range of blocks succeeds, and leaves the
  dispositions that pruning found; `SegmentReader.init_seekToBlock` is the same right after `init`.
-/

namespace SegmentStore

/-! ### What pruning looks at -/

namespace PruneRequest

/-- What pruning looks at is the segment. -/
structure Of (q : PruneRequest) (s : WrittenSegment) (used : List ColumnId) : Prop where
  schema : q.schema = s.schema
  mapping : q.mapping.Of s used
  indexes : q.indexes.Of s

/-- What pruning is asked for is what the scan asks for. -/
structure Asks (q : PruneRequest) (context : ReadContext) (version : Version) : Prop where
  conditions : q.conditions? = context.conditions?
  deletes : q.deletes? = context.deletes?
  deleteStatus : q.deleteStatus = context.deleteStatus
  bloomColumns : q.bloomColumns = context.bloomColumns
  version : q.version = version

/-- The statistic that a zone map has of a block describes the values of its rows. -/
theorem Of.describes {q : PruneRequest} {s : WrittenSegment} {used : List ColumnId} (h : q.Of s used)
    {cid : ColumnId} {uid : UniqueId} (huid : q.mapping.storedId? cid = some uid)
    {z : Loaded ZoneMapEntry} (hz : q.indexes.zoneMap? uid = some z) {b : Nat}
    (hb : b < s.blocks.length) :
    (z.entries[b]?.getD default).statistic.Describes ((s.block b).map fun row => s.cell row cid) := by
  obtain ⟨j, c, hcid, hc, rfl⟩ := h.mapping.storedId?_eq_some.mp huid
  exact h.indexes.describes hcid hc hz hb

end PruneRequest

namespace SegmentReader

variable {s : WrittenSegment} {r : SegmentReader} {g : SegmentGroup} {file : FileId} {o : OpenSegment}

/-- The first seek makes the column readers and goes to the range. -/
theorem seekToBlock_of (hr : r.Opened g s file o) (hfits : s.Fits) (hlossless : s.Lossless)
    (first last : Nat) (unfiltered : Bool) (stats : ScanStatistics) :
    ∃ t, t.Of s (r.scanFile g file) r.context.used
      ∧ r.seekToBlock first last unfiltered g stats
          = { r with readers? := some t }.seekRange o first last unfiltered g stats := by
  obtain ⟨t, hmake, ht⟩ := makeReaders_of hr hfits hlossless
  refine ⟨t, ht, ?_⟩
  simp only [seekToBlock, hr.segment, hr.readers, hmake]

/-- Where a scan of a range starts: the columns have to be led to its first block. -/
def ranged (r : SegmentReader) (last : Nat) (unfiltered : Bool) (p : PruneState) : SegmentReader :=
  { r with
    blocks? := if unfiltered then none else some p.blocks
    cursor := ⟨r.cursor.current, 0, last, false, unfiltered, true⟩ }

/-- Going to a range of a segment that has blocks. A range goes at most to the last of them. -/
theorem seekRange_eq (r : SegmentReader) (g : SegmentGroup) {first : Nat} (last : Nat)
    (unfiltered : Bool) (hcount : o.indexes.blockCount ≠ 0)
    (hvalid : unfiltered = false → first ≤ min last (o.indexes.blockCount - 1))
    (stats : ScanStatistics) :
    ∃ stats', r.seekRange o first last unfiltered g stats
      = (.ok ((r.ranged (min last (o.indexes.blockCount - 1)) unfiltered
            ((r.pruneRequest o g).pruned first (min last (o.indexes.blockCount - 1)))).advance
              first).cursor.position,
          (r.ranged (min last (o.indexes.blockCount - 1)) unfiltered
            ((r.pruneRequest o g).pruned first (min last (o.indexes.blockCount - 1)))).advance first,
          stats') := by
  cases unfiltered with
  | true =>
    refine ⟨stats, ?_⟩
    simp only [seekRange, hcount, if_false, if_true]
    rfl
  | false =>
    have hlast : min last (o.indexes.blockCount - 1) < (r.pruneRequest o g).indexes.blockCount := by
      show min last (o.indexes.blockCount - 1) < o.indexes.blockCount
      omega
    have hprune := PruneRequest.prune_eq (hvalid rfl) hlast
    refine ⟨stats.addFiltered
      ((r.pruneRequest o g).pruned first (min last (o.indexes.blockCount - 1))).deleted
      ((r.pruneRequest o g).pruned first (min last (o.indexes.blockCount - 1))).ruledOut, ?_⟩
    have hprune' : ∀ r' : SegmentReader, r'.context = r.context →
        (r'.pruneRequest o g).prune first (min last (o.indexes.blockCount - 1))
          = .ok ((r.pruneRequest o g).pruned first (min last (o.indexes.blockCount - 1))) := by
      intro r' hcontext
      rw [← hprune, pruneRequest, pruneRequest, hcontext]
    simp only [seekRange, hcount, if_false, Bool.false_eq_true, hprune']
    rfl

theorem pruneRequest_of (hr : r.Opened g s file o) : (r.pruneRequest o g).Of s r.context.used :=
  ⟨hr.hosts.schema, hr.written.mapping, hr.written.indexes⟩

theorem pruneRequest_asks (r : SegmentReader) (o : OpenSegment) (g : SegmentGroup) :
    (r.pruneRequest o g).Asks r.context g.version :=
  ⟨rfl, rfl, rfl, rfl, rfl⟩

/-- The blocks of a seek are those that pruning found, over the part of the range that exists. -/
theorem seekToBlock_pruned (hr : r.Opened g s file o) (hfits : s.Fits) (hlossless : s.Lossless)
    {first last : Nat} (hrange : first ≤ last) (hfirst : first < s.blocks.length)
    (stats : ScanStatistics) :
    ∃ p r' stats', r.seekToBlock first last false g stats = (.ok p, r', stats')
      ∧ r'.blocks?
          = some ((r.pruneRequest o g).pruned first (min last (s.blocks.length - 1))).blocks := by
  obtain ⟨t, -, hseek⟩ := seekToBlock_of hr hfits hlossless first last false stats
  have hcount := hr.written.indexes.blockCount
  have hne : o.indexes.blockCount ≠ 0 := by omega
  have hvalid : false = false → first ≤ min last (o.indexes.blockCount - 1) := fun _ => by omega
  obtain ⟨stats', hranged⟩ := seekRange_eq { r with readers? := some t } g last false hne hvalid stats
  rw [← hcount]
  exact ⟨_, _, stats', hseek.trans hranged, rfl⟩

/-- A reader that can be answered is initialised, and a seek to some blocks prunes them by the indexes of the
segment. -/
theorem init_seekToBlock (hfits : s.Fits) (hlossless : s.Lossless) (hg : g.Hosts r.segmentId s file)
    {cache : IndexCache}
    (hcache : r.context.cached = true → cache.Agrees (g.segmentPath r.segmentId) s)
    (hr : Answerable r.context s.schema) {first last : Nat} (hrange : first ≤ last)
    (hfirst : first < s.blocks.length) (fillCache : Bool) (stats : ScanStatistics) :
    (r.init fillCache g cache stats).result = .ok ()
      ∧ ∃ o q p r' stats', (r.init fillCache g cache stats).reader.segment? = some o
      ∧ (r.init fillCache g cache stats).reader.pruneRequest o (r.init fillCache g cache stats).group = q
      ∧ q.Of s r.context.used ∧ q.Asks r.context g.version
      ∧ (r.init fillCache g cache stats).reader.seekToBlock first last false
          (r.init fillCache g cache stats).group (r.init fillCache g cache stats).stats
            = (.ok p, r', stats')
      ∧ r'.blocks? = some (q.pruned first (min last (s.blocks.length - 1))).blocks := by
  have hresult := (init_result_iff hg hfits hlossless hcache fillCache stats).mpr hr
  obtain ⟨o, hopened, hcontext, hversion⟩ := init_opened hg hfits hlossless hcache hresult
  obtain ⟨p, r', stats', hseek, hmap⟩ := seekToBlock_pruned hopened hfits hlossless hrange hfirst
    (r.init fillCache g cache stats).stats
  have hof := pruneRequest_of hopened
  have hasks := pruneRequest_asks (r.init fillCache g cache stats).reader o
    (r.init fillCache g cache stats).group
  rw [hcontext] at hof hasks
  rw [hversion] at hasks
  exact ⟨hresult, o, _, p, r', stats', hopened.segment, rfl, hof, hasks, hseek, hmap⟩

end SegmentReader

end SegmentStore
