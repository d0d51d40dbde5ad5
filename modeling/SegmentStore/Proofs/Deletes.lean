import SegmentStore.Proofs.Extent
import SegmentStore.Proofs.Seeking

/-!
# Deleted rows stay hidden, all others are seen

* `WrittenSegment.matchedBy` says which rows a delete matches, `WrittenSegment.survives` which rows no
  delete matches that concerns the segment.
* `Disposition.Agrees` relates the disposition of a block to the rows that survive. Applying a delete
  preserves it (`PruneRequest.agrees_deleted`), and so do all deletes one after the other
  (`PruneRequest.agrees_foldl`).
* `SegmentReader.seekToBlock_survivors` says that the dispositions of a range, and a check of the rows in
  blocks that ask for one, select exactly the rows that survive.
-/

namespace SegmentStore

/-! ### Meaning -/

namespace WrittenSegment

variable (s : WrittenSegment)

/-- The delete matches the row: it has conditions, each with predicates, and the row satisfies them all. -/
def matchedBy (d : DeleteCondition) (row : List Value) : Bool :=
  !d.conditions.isEmpty && d.conditions.entries.all fun (cid, cond) =>
    !cond.predicates.isEmpty && cond.holds (s.cell row cid)

/-- None of the deletes matches the row. -/
def survives (ds : List DeleteCondition) (row : List Value) : Bool := ds.all fun d => !s.matchedBy d row

variable {s}

theorem survives_concat (ds : List DeleteCondition) (d : DeleteCondition) (row : List Value) :
    s.survives (ds ++ [d]) row = (s.survives ds row && !s.matchedBy d row) := by
  simp [survives]

theorem matchedBy_iff {d : DeleteCondition} {row : List Value} :
    s.matchedBy d row = true ↔ d.conditions.entries ≠ [] ∧ ∀ e ∈ d.conditions.entries,
      e.2.predicates ≠ [] ∧ e.2.holds (s.cell row e.1) = true := by
  simp [matchedBy, Conditions.isEmpty]

end WrittenSegment

namespace Disposition

variable {α : Type}

/-- The rows that a consumer takes from a block, checking them where the disposition asks for it. -/
def select (keep : α → Bool) (rows : List α) : Disposition → List α
  | .included => rows
  | .needsRowFilter => rows.filter keep
  | .excluded => []

/-- A block is excluded only if no row is kept, and included only if all rows are. -/
structure Agrees (d : Disposition) (keep : α → Bool) (rows : List α) : Prop where
  excluded : d = .excluded → ∀ row ∈ rows, keep row = false
  included : d = .included → ∀ row ∈ rows, keep row = true

theorem Agrees.select_eq {d : Disposition} {keep : α → Bool} {rows : List α}
    (h : d.Agrees keep rows) : d.select keep rows = rows.filter keep := by
  cases d with
  | included => exact (List.filter_eq_self.mpr (h.included rfl)).symm
  | needsRowFilter => rfl
  | excluded =>
    refine (List.filter_eq_nil_iff.mpr fun row hrow => ?_).symm
    rw [h.excluded rfl row hrow]
    exact Bool.false_ne_true

end Disposition

/-! ### One delete -/

namespace PruneRequest

variable {q : PruneRequest} {s : WrittenSegment} {used : List ColumnId} {b : Nat}
variable {d : DeleteCondition} {ds : List DeleteCondition}

/-- An extent that decides a block comes from a statistic of the block. -/
theorem exists_statistic (hq : q.Of s used) (hb : b < s.blocks.length) {cid : ColumnId}
    {cond : ColumnCondition} {x : MatchExtent} (hextent : q.columnExtent? b cid cond = some x)
    (hx : x ≠ .some) :
    ∃ t : Statistic, t.Describes ((s.block b).map fun row => s.cell row cid) ∧ cond.extent t = x := by
  rw [columnExtent?, Option.map_eq_some_iff] at hextent
  obtain ⟨uid, huid, hextent⟩ := hextent
  cases hz : q.indexes.zoneMap? uid with
  | none =>
    simp only [hz] at hextent
    exact absurd hextent.symm hx
  | some z =>
    simp only [hz] at hextent
    exact ⟨_, hq.describes huid hz hb, hextent⟩

theorem holds_of_columnExtent_full (hq : q.Of s used) (hb : b < s.blocks.length) {cid : ColumnId}
    {cond : ColumnCondition} (hextent : q.columnExtent? b cid cond = some .full) :
    cond.predicates ≠ [] ∧ ∀ row ∈ s.block b, cond.holds (s.cell row cid) = true := by
  obtain ⟨t, ht, hfull⟩ := exists_statistic hq hb hextent (by decide)
  obtain ⟨hne, hall⟩ := ColumnCondition.extent_full ht hfull
  exact ⟨hne, fun row hrow => hall _ (List.mem_map_of_mem hrow)⟩

theorem holds_of_columnExtent_none (hq : q.Of s used) (hb : b < s.blocks.length) {cid : ColumnId}
    {cond : ColumnCondition} (hextent : q.columnExtent? b cid cond = some .none) :
    cond.predicates = [] ∨ ∀ row ∈ s.block b, cond.holds (s.cell row cid) = false := by
  obtain ⟨t, ht, hnone⟩ := exists_statistic hq hb hextent (by decide)
  refine (ColumnCondition.extent_none ht hnone).imp_right ?_
  exact fun hall row hrow => hall _ (List.mem_map_of_mem hrow)

/-- The segment stores the columns that a delete names. -/
def Stored (s : WrittenSegment) (d : DeleteCondition) : Prop := ∀ e ∈ d.conditions.entries, e.1 ∈ s.cids

/-- A stored column always has an extent. -/
theorem exists_columnExtent (hq : q.Of s used) {cid : ColumnId} (hcid : cid ∈ s.cids) (b : Nat)
    (cond : ColumnCondition) : ∃ x, q.columnExtent? b cid cond = some x := by
  obtain ⟨j, c, hj, hc⟩ := WrittenSegment.exists_column hcid
  have huid := hq.mapping.storedId?_eq_some.mpr ⟨j, c, hj, hc, rfl⟩
  rw [columnExtent?, huid, Option.map_some]
  exact ⟨_, rfl⟩

/-- Where the extent of a delete is full, every row of the block satisfies its conditions on the stored
columns. -/
theorem holds_of_extent_full (hq : q.Of s used) (hb : b < s.blocks.length)
    (hextent : q.deleteExtent d b = .full) :
    d.conditions.entries ≠ [] ∧ ∀ e ∈ d.conditions.entries, e.1 ∈ s.cids →
      e.2.predicates ≠ [] ∧ ∀ row ∈ s.block b, e.2.holds (s.cell row e.1) = true := by
  unfold deleteExtent at hextent
  split at hextent
  · cases hextent
  · rename_i hne
    refine ⟨by simpa [Conditions.isEmpty] using hne, fun e he hcid => ?_⟩
    obtain ⟨x, hx⟩ := exists_columnExtent hq hcid b e.2
    have hfull := MatchExtent.all_eq_full.mp hextent x (List.mem_filterMap.mpr ⟨e, he, hx⟩)
    rw [hfull] at hx
    exact holds_of_columnExtent_full hq hb hx

/-- Where the extent of a delete is full, it matches every row of the block. -/
theorem matchedBy_of_extent_full (hq : q.Of s used) (hstored : Stored s d) (hb : b < s.blocks.length)
    (hextent : q.deleteExtent d b = .full) : ∀ row ∈ s.block b, s.matchedBy d row = true := by
  intro row hrow
  obtain ⟨hne, hholds⟩ := holds_of_extent_full hq hb hextent
  rw [WrittenSegment.matchedBy_iff]
  refine ⟨hne, fun e he => ?_⟩
  obtain ⟨hpredicates, hall⟩ := hholds e he (hstored e he)
  exact ⟨hpredicates, hall row hrow⟩

/-- Where the extent of a delete is none, it matches no row of the block. -/
theorem matchedBy_of_extent_none (hq : q.Of s used) (hb : b < s.blocks.length)
    (hextent : q.deleteExtent d b = .none) : ∀ row ∈ s.block b, s.matchedBy d row = false := by
  intro row hrow
  rw [← Bool.not_eq_true, WrittenSegment.matchedBy_iff]
  rintro ⟨hne, hall⟩
  unfold deleteExtent at hextent
  split at hextent
  · rename_i hempty
    exact hne (by simpa [Conditions.isEmpty] using hempty)
  · rw [MatchExtent.all_eq_none, List.mem_filterMap] at hextent
    obtain ⟨e, he, hx⟩ := hextent
    obtain ⟨hpredicates, hholds⟩ := hall e he
    rcases holds_of_columnExtent_none hq hb hx with hempty | hnone
    · exact hpredicates hempty
    · rw [hnone row hrow] at hholds
      cases hholds

/-! ### All deletes -/

/-- One more delete leaves a block that agrees with the rows that it leaves. -/
theorem agrees_deleted (hq : q.Of s used) (hstored : Stored s d) (hb : b < s.blocks.length)
    {before : Disposition} (h : before.Agrees (s.survives ds) (s.block b)) :
    (q.deleted b before d).Agrees (s.survives (ds ++ [d])) (s.block b) := by
  unfold deleted
  split
  · rename_i hexcluded
    refine ⟨fun _ row hrow => ?_, nofun⟩
    rw [WrittenSegment.survives_concat, h.excluded hexcluded row hrow, Bool.false_and]
  · cases hextent : q.deleteExtent d b with
    | full =>
      refine ⟨fun _ row hrow => ?_, nofun⟩
      rw [WrittenSegment.survives_concat, matchedBy_of_extent_full hq hstored hb hextent row hrow,
        Bool.not_true, Bool.and_false]
    | some => exact ⟨nofun, nofun⟩
    | none =>
      cases before with
      | needsRowFilter => exact ⟨nofun, nofun⟩
      | excluded => contradiction
      | included =>
        refine ⟨nofun, fun _ row hrow => ?_⟩
        rw [WrittenSegment.survives_concat, h.included rfl row hrow,
          matchedBy_of_extent_none hq hb hextent row hrow]
        rfl

/-- So do any number of deletes. -/
theorem agrees_foldl (hq : q.Of s used) (hb : b < s.blocks.length) {more : List DeleteCondition}
    (hstored : ∀ d ∈ more, Stored s d) {before : Disposition}
    (h : before.Agrees (s.survives ds) (s.block b)) :
    (more.foldl (q.deleted b) before).Agrees (s.survives (ds ++ more)) (s.block b) := by
  induction more generalizing ds before with
  | nil => rwa [List.append_nil]
  | cons d more ih =>
    have hnext := agrees_deleted hq (hstored d List.mem_cons_self) hb h
    have hall := ih (fun d' hd' => hstored d' (List.mem_cons_of_mem d hd')) hnext
    rwa [List.append_assoc, List.singleton_append] at hall

/-- Every block of a range agrees with the rows that no delete matches. -/
theorem agrees_pruned (hq : q.Of s used) (hconditions : q.conditions? = none)
    (hstored : ∀ d ∈ q.activeDeletes, Stored s d) {first last : Nat} (hlast : last < s.blocks.length)
    (hb : first ≤ b ∧ b ≤ last) :
    ((q.pruned first last).blocks.get b).Agrees (s.survives q.activeDeletes) (s.block b) := by
  rw [← hq.indexes.blockCount] at hlast
  have hget := (get_deletePhase_make first hlast).2 b
  have hstart : Disposition.included.Agrees (s.survives []) (s.block b) :=
    ⟨nofun, fun _ _ _ => rfl⟩
  rw [pruned_of_none hconditions, hget, if_pos hb]
  have hcount := hq.indexes.blockCount
  exact agrees_foldl hq (by omega) hstored hstart

end PruneRequest

/-! ### Seeking with deletes -/

namespace SegmentReader

/-- The deletes of a scan select exactly the rows of the range that none of them matches, provided that they
name stored columns. A block that is excluded has none of these rows, one that is included no other ones. -/
theorem seekToBlock_survivors (s : WrittenSegment) (hfits : s.Fits) (hlossless : s.Lossless)
    {r : SegmentReader} {g : SegmentGroup} {file : FileId} (hg : g.Hosts r.segmentId s file)
    {cache : IndexCache}
    (hcache : r.context.cached = true → cache.Agrees (g.segmentPath r.segmentId) s)
    (hr : Answerable r.context s.schema) (hconditions : r.context.conditions? = none)
    {handler : DeleteHandler} (hdeletes : r.context.deletes? = some handler)
    (hstatus : r.context.deleteStatus ≠ .notSatisfied)
    (hstored : ∀ d ∈ handler, ∀ e ∈ d.conditions.entries, e.1 ∈ s.cids)
    {first last : Nat} (hrange : first ≤ last) (hfirst : first < s.blocks.length)
    (fillCache : Bool) (stats : ScanStatistics) :
    (r.init fillCache g cache stats).result = .ok ()
      ∧ ∃ p r' stats' m, (r.init fillCache g cache stats).reader.seekToBlock first last false
          (r.init fillCache g cache stats).group (r.init fillCache g cache stats).stats
            = (.ok p, r', stats')
      ∧ r'.blocks? = some m
      ∧ ((PruneRequest.range first last).flatMap fun b =>
          (m.get b).select (s.survives (handler.applicable g.version)) (s.block b))
        = ((PruneRequest.range first last).flatMap s.block).filter
            (s.survives (handler.applicable g.version))
      ∧ ∀ b, first ≤ b → b ≤ last →
          (m.get b).Agrees (s.survives (handler.applicable g.version)) (s.block b) := by
  obtain ⟨hresult, o, q, p, r', stats', -, -, hof, hasks, hseek, hmap⟩ :=
    init_seekToBlock hfits hlossless hg hcache hr hrange hfirst fillCache stats
  have hactive : q.activeDeletes = handler.applicable g.version := by
    simp only [PruneRequest.activeDeletes, hasks.deletes, hdeletes, hasks.deleteStatus, hstatus,
      hasks.version, if_false]
  have hnone : q.conditions? = none := hasks.conditions.trans hconditions
  have hagrees : ∀ b, first ≤ b → b ≤ last →
      ((q.pruned first (min last (s.blocks.length - 1))).blocks.get b).Agrees
        (s.survives (handler.applicable g.version)) (s.block b) := by
    intro b hle hb
    by_cases hblock : b < s.blocks.length
    · rw [← hactive]
      refine PruneRequest.agrees_pruned hof hnone (fun d hd => ?_) (by omega) ⟨hle, by omega⟩
      rw [hactive] at hd
      exact hstored d (List.mem_filter.mp hd).1
    · -- behind the last block there are no rows
      rw [WrittenSegment.block_eq_nil (by omega)]
      exact ⟨fun _ => List.forall_mem_nil _, fun _ => List.forall_mem_nil _⟩
  refine ⟨hresult, p, r', stats', _, hseek, hmap, ?_, hagrees⟩
  rw [List.filter_flatMap]
  refine List.flatMap_congr fun b hb => ?_
  obtain ⟨hle, hlast⟩ := PruneRequest.mem_range.mp hb
  exact (hagrees b hle hlast).select_eq

/-- Rows of key seven are deleted, and then those of a value from two on. -/
def sampleDeletes : DeleteHandler :=
  [⟨1, .ofList [(0, .compare .eq (.int32 7))]⟩,
    ⟨2, .ofList [(1, .compare .ge (.float64 ⟨0x4000000000000000⟩))]⟩]

/-- The values of the small segment are read, less the deleted ones. -/
def deletingContext : ReadContext := ⟨[1], [], none, some sampleDeletes, .unknown, false, .default⟩

theorem seekToBlock_survivors_sample :
    let opened := (make 0 deletingContext).init true (.single .sample) .empty .zero
    ∃ p r stats m, opened.reader.seekToBlock 0 7 false opened.group opened.stats = (.ok p, r, stats)
      ∧ r.blocks? = some m
      ∧ ((PruneRequest.range 0 7).flatMap fun b =>
          (m.get b).select (WrittenSegment.sample.survives sampleDeletes) (WrittenSegment.sample.block b))
        = [[.float64 ⟨0x3FF0000000000000⟩, .null]] := by
  have hcache : (make 0 deletingContext).context.cached = true →
      IndexCache.empty.Agrees ((SegmentGroup.single .sample).segmentPath 0) .sample := nofun
  have hr : Answerable (make 0 deletingContext).context WrittenSegment.sample.schema :=
    ⟨rfl, List.all_eq_true.mp rfl, List.all_eq_true.mp rfl⟩
  have hstored : ∀ d ∈ sampleDeletes, ∀ e ∈ d.conditions.entries, e.1 ∈ WrittenSegment.sample.cids := by
    decide
  have hrange : 0 ≤ 7 := by decide
  obtain ⟨-, p, r, stats, m, hseek, hmap, hrows, -⟩ := seekToBlock_survivors .sample
    WrittenSegment.fits_sample WrittenSegment.lossless_sample (SegmentGroup.hosts_single .sample) hcache
    hr rfl rfl (by decide) hstored hrange (by decide) true .zero
  refine ⟨p, r, stats, m, hseek, hmap, hrows.trans ?_⟩
  decide +kernel

end SegmentReader

end SegmentStore
