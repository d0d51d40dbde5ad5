import SegmentStore.Proofs.Extent
import SegmentStore.Proofs.Seeking

/-!
# Zone maps lose no matching row

* `WrittenSegment.satisfies` says which rows the conditions of a scan ask for.
* `PruneRequest.zoneTest_of_satisfies`: a zone map passes a block with such a row.
* `PruneRequest.zoned_ne_excluded`: deletes aside, a block with such a row is left until the bloom filters
  are asked.
* `SegmentReader.seekToBlock_keeps_matches` says that a seek without deletes and bloom filters keeps all
  blocks of the range that have such a row, and excludes every block outside.
-/

namespace SegmentStore

namespace WrittenSegment

/-- The row satisfies every condition. Columns that the table lacks ask for nothing, those that the segment
lacks have their default. -/
def satisfies (s : WrittenSegment) (conditions : Conditions) (row : List Value) : Bool :=
  conditions.entries.all fun (cid, cond) =>
    (s.schema.column? cid).isNone || cond.holds (s.cell row cid)

theorem holds_of_satisfies {s : WrittenSegment} {conditions : Conditions} {row : List Value}
    (h : s.satisfies conditions row = true) {cid : ColumnId} {cond : ColumnCondition} {c : Column}
    (hcond : (cid, cond) ∈ conditions.entries) (hc : s.schema.column? cid = some c) :
    cond.holds (s.cell row cid) = true := by
  have hentry := List.all_eq_true.mp h (cid, cond) hcond
  simpa [hc] using hentry

end WrittenSegment

namespace PruneRequest

variable {q : PruneRequest} {s : WrittenSegment} {used : List ColumnId} {conditions : Conditions}

/-- The test of a zone map passes a block with a row that satisfies the conditions. -/
theorem zoneTest_of_satisfies (hq : q.Of s used) {b : Nat} (hb : b < s.blocks.length)
    {row : List Value} (hrow : row ∈ s.block b) (h : s.satisfies conditions row = true) :
    ∀ test ∈ q.zoneTests conditions, test b = true := by
  intro test htest
  rw [zoneTests, List.mem_filterMap] at htest
  obtain ⟨⟨cid, cond⟩, hcond, htest⟩ := htest
  simp only [zoneTest?] at htest
  split at htest
  · rw [Option.map_eq_some_iff] at htest
    obtain ⟨z, hz, rfl⟩ := htest
    rw [Option.bind_eq_some_iff] at hz
    obtain ⟨uid, huid, hz⟩ := hz
    obtain ⟨c, hc, -⟩ := hq.mapping.column?_of_storedId? huid
    exact ColumnCondition.mayMatch_of_holds (hq.describes huid hz hb) (List.mem_map_of_mem hrow)
      (WrittenSegment.holds_of_satisfies h hcond hc)
  · cases htest

/-- Where nothing is deleted, zone maps leave a block with a row that satisfies the conditions. -/
theorem zoned_ne_excluded (hq : q.Of s used) (hdeletes : q.activeDeletes = []) {first last b : Nat}
    (hb : first ≤ b ∧ b ≤ last) (hlast : last < s.blocks.length) {row : List Value}
    (hrow : row ∈ s.block b) (h : s.satisfies conditions row = true) :
    (q.zoned conditions first last).blocks.get b ≠ .excluded := by
  have htests := zoneTest_of_satisfies hq (by omega) hrow h
  rw [← hq.indexes.blockCount] at hlast
  rw [(get_zoned conditions first hlast).2, if_pos ⟨hb, htests⟩, hdeletes]
  exact Disposition.noConfusion

end PruneRequest

namespace SegmentReader

/-- A scan without deletes and bloom filters keeps every block of its range that has a row satisfying the
conditions, and excludes the blocks outside of the range. -/
theorem seekToBlock_keeps_matches (s : WrittenSegment) (hfits : s.Fits) (hlossless : s.Lossless)
    {r : SegmentReader} {g : SegmentGroup} {file : FileId} (hg : g.Hosts r.segmentId s file)
    {cache : IndexCache}
    (hcache : r.context.cached = true → cache.Agrees (g.segmentPath r.segmentId) s)
    (hr : Answerable r.context s.schema) {conditions : Conditions}
    (hconditions : r.context.conditions? = some conditions) (hdeletes : r.context.deletes? = none)
    (hbloom : r.context.bloomColumns = []) {first last : Nat} (hrange : first ≤ last)
    (hfirst : first < s.blocks.length) (fillCache : Bool) (stats : ScanStatistics) :
    (r.init fillCache g cache stats).result = .ok ()
      ∧ ∃ p r' stats' m, (r.init fillCache g cache stats).reader.seekToBlock first last false
          (r.init fillCache g cache stats).group (r.init fillCache g cache stats).stats
            = (.ok p, r', stats')
      ∧ r'.blocks? = some m
      ∧ (∀ b, first ≤ b → b ≤ last →
          (∃ row ∈ s.block b, s.satisfies conditions row = true) → m.get b ≠ .excluded)
      ∧ ∀ b, b < first ∨ last < b → m.get b = .excluded := by
  obtain ⟨hresult, o, q, p, r', stats', -, -, hof, hasks, hseek, hmap⟩ :=
    init_seekToBlock hfits hlossless hg hcache hr hrange hfirst fillCache stats
  have hactive := PruneRequest.activeDeletes_of_none (hasks.deletes.trans hdeletes)
  have hsome : q.conditions? = some conditions := hasks.conditions.trans hconditions
  have hnoTests : q.bloomTests conditions = [] := by
    rw [PruneRequest.bloomTests, hasks.bloomColumns, hbloom, List.filterMap_nil]
  have hlast : min last (s.blocks.length - 1) < q.indexes.blockCount := by
    rw [hof.indexes.blockCount]
    omega
  -- without bloom filters the zone maps have the last word
  have hget : ∀ b, (q.pruned first (min last (s.blocks.length - 1))).blocks.get b
      = (q.zoned conditions first (min last (s.blocks.length - 1))).blocks.get b := by
    intro b
    rcases PruneRequest.get_pruned hsome first hlast b with hsame | ⟨-, ⟨test, htest, -⟩, -⟩
    · exact hsame
    · rw [hnoTests] at htest
      exact absurd htest List.not_mem_nil
  refine ⟨hresult, p, r', stats', _, hseek, hmap, ?_, ?_⟩
  · rintro b hle hb ⟨row, hrow, hsatisfies⟩
    have hblock : b < s.blocks.length := by
      by_contra hbehind
      rw [WrittenSegment.block_eq_nil (by omega)] at hrow
      exact absurd hrow List.not_mem_nil
    rw [hget]
    exact PruneRequest.zoned_ne_excluded hof hactive ⟨hle, by omega⟩ (by omega) hrow hsatisfies
  · intro b hout
    rw [hget, (PruneRequest.get_zoned conditions first hlast).2, if_neg]
    rintro ⟨hin, -⟩
    omega

/-- Rows of key three are wanted, with a note as no row has stored one. -/
def sampleConditions : Conditions :=
  .ofList [(0, .compare .eq (.int32 3)), (2, .isIn [.string "new"])]

def filteringContext : ReadContext :=
  ⟨[0, 2], [], some sampleConditions, none, .unknown, false, .default⟩

theorem seekToBlock_keeps_matches_sample :
    let opened := (make 0 filteringContext).init true (.single .sample) .empty .zero
    ∃ p r stats m, opened.reader.seekToBlock 0 1 false opened.group opened.stats = (.ok p, r, stats)
      ∧ r.blocks? = some m ∧ m.get 1 ≠ .excluded ∧ m.get 2 = .excluded := by
  have hcache : (make 0 filteringContext).context.cached = true →
      IndexCache.empty.Agrees ((SegmentGroup.single .sample).segmentPath 0) .sample := nofun
  have hr : Answerable (make 0 filteringContext).context WrittenSegment.sample.schema :=
    ⟨rfl, List.all_eq_true.mp rfl, List.all_eq_true.mp rfl⟩
  have hrange : 0 ≤ 1 := by decide
  obtain ⟨-, p, r, stats, m, hseek, hmap, hkept, hout⟩ := seekToBlock_keeps_matches .sample
    WrittenSegment.fits_sample WrittenSegment.lossless_sample (SegmentGroup.hosts_single .sample) hcache
    hr rfl rfl rfl hrange (by decide) true .zero
  refine ⟨p, r, stats, m, hseek, hmap, hkept 1 (by decide) (by decide) ?_, hout 2 (by decide)⟩
  exact ⟨[.float64 ⟨0x4000000000000000⟩, .int32 3], by decide +kernel, by decide +kernel⟩

end SegmentReader

end SegmentStore
