import SegmentStore.Proofs.Deletes

/-!
# Deletes on columns that were added later

A delete may name columns that a segment lacks. A scan gives such a column its default, but pruning looks at
the stored columns only.

* `WrittenSegment.matchedWhereStored` and `WrittenSegment.defaultsMatch` are the two parts of
  `WrittenSegment.matchedBy`: the conditions on stored columns, and those on the defaults of the others.
* `PruneRequest.exists_full_of_excluded` leads a block that deletes exclude back to one of them, and
  `PruneRequest.excluded_of_absent` says what a delete does that names no stored column.
* `SegmentReader.seekToBlock_excluded_matched` says what is true of the rows of a block that deletes exclude.
-/

namespace SegmentStore

/-! ### Meaning -/

namespace WrittenSegment

variable {s : WrittenSegment}

variable (s) in
/-- The row satisfies the conditions of the delete on stored columns. -/
def matchedWhereStored (d : DeleteCondition) (row : List Value) : Prop :=
  ∀ e ∈ d.conditions.entries, e.1 ∈ s.cids →
    e.2.predicates ≠ [] ∧ e.2.holds (s.cell row e.1) = true

variable (s) in
/-- The value that every row has in a column that is not stored. -/
def defaultCell (cid : ColumnId) : Value := (s.schema.column? cid).elim .null Column.default

variable (s) in
/-- The defaults of the columns that are not stored satisfy the conditions of the delete on them. -/
def defaultsMatch (d : DeleteCondition) : Prop :=
  ∀ e ∈ d.conditions.entries, e.1 ∉ s.cids →
    e.2.predicates ≠ [] ∧ e.2.holds (s.defaultCell e.1) = true

theorem cell_eq_defaultCell {row : List Value} {cid : ColumnId} (hcid : cid ∉ s.cids) :
    s.cell row cid = s.defaultCell cid := by
  rw [cell, lookup_absent hcid]
  rfl

/-- A delete matches a row by its stored columns and the defaults of the others. -/
theorem matchedBy_iff_defaultsMatch {d : DeleteCondition} {row : List Value}
    (hne : d.conditions.entries ≠ []) (hstored : s.matchedWhereStored d row) :
    s.matchedBy d row = true ↔ s.defaultsMatch d := by
  rw [matchedBy_iff]
  constructor
  · rintro ⟨-, hall⟩ e he hcid
    rw [← cell_eq_defaultCell hcid]
    exact hall e he
  · refine fun hdefaults => ⟨hne, fun e he => ?_⟩
    by_cases hcid : e.1 ∈ s.cids
    · exact hstored e he hcid
    · rw [cell_eq_defaultCell hcid]
      exact hdefaults e he hcid

end WrittenSegment

/-! ### Pruning -/

namespace PruneRequest

variable {q : PruneRequest} {s : WrittenSegment} {used : List ColumnId} {b : Nat}
variable {d : DeleteCondition} {ds : List DeleteCondition}

/-- What the deletes make of the blocks of a range, before anything else is asked. -/
def afterDeletes (q : PruneRequest) (first last : Nat) : BlockMap :=
  (q.deletePhase first last ⟨.make q.indexes.blockCount first last, 0, 0⟩).blocks

theorem deleted_eq_excluded {before : Disposition} (hbefore : before ≠ .excluded) :
    q.deleted b before d = .excluded ↔ q.deleteExtent d b = .full := by
  rw [deleted, if_neg hbefore]
  cases q.deleteExtent d b with
  | full => simp [Disposition.applyDelete]
  | some => simp [Disposition.applyDelete]
  | none =>
    rw [Disposition.applyDelete]
    split <;> simp

/-- A block stays excluded. -/
theorem foldl_deleted_excluded (q : PruneRequest) (b : Nat) (ds : List DeleteCondition) :
    ds.foldl (q.deleted b) .excluded = .excluded := by
  induction ds with
  | nil => rfl
  | cons d ds ih => rwa [List.foldl_cons, deleted, if_pos rfl]

/-- Deletes exclude a block if the extent of one of them is full, and only then. -/
theorem foldl_deleted_eq_excluded {before : Disposition} (hbefore : before ≠ .excluded) :
    ds.foldl (q.deleted b) before = .excluded ↔ ∃ d ∈ ds, q.deleteExtent d b = .full := by
  induction ds generalizing before with
  | nil => simp [hbefore]
  | cons d ds ih =>
    rw [List.foldl_cons, List.exists_mem_cons_iff, ← deleted_eq_excluded hbefore]
    by_cases hfull : q.deleted b before d = .excluded
    · rw [hfull, foldl_deleted_excluded]
      exact iff_of_true rfl (.inl rfl)
    · rw [ih hfull, or_iff_right hfull]

/-- Deletes exclude a block of the range if the extent of one of them is full, and only then. -/
theorem get_afterDeletes {first last : Nat} (hlast : last < q.indexes.blockCount)
    (hb : first ≤ b ∧ b ≤ last) :
    (q.afterDeletes first last).get b = .excluded
      ↔ ∃ d ∈ q.activeDeletes, q.deleteExtent d b = .full := by
  rw [afterDeletes, (get_deletePhase_make first hlast).2, if_pos hb]
  exact foldl_deleted_eq_excluded (by decide)

/-- A scan without conditions leaves what the deletes make of the blocks. -/
theorem pruned_eq_afterDeletes (h : q.conditions? = none) (first last : Nat) :
    (q.pruned first last).blocks = q.afterDeletes first last := by
  rw [pruned_of_none h, afterDeletes]

/-- A column that is not stored does not decide. -/
theorem columnExtent?_absent (hq : q.Of s used) {cid : ColumnId} (hcid : cid ∉ s.cids)
    (cond : ColumnCondition) : q.columnExtent? b cid cond = none := by
  rw [columnExtent?, Option.map_eq_none_iff, Option.eq_none_iff_forall_ne_some]
  intro uid huid
  obtain ⟨j, -, hj, -⟩ := hq.mapping.storedId?_eq_some.mp huid
  exact hcid (List.mem_of_getElem? hj)

/-- A delete that names columns, but no stored one, excludes every block. -/
theorem deleteExtent_absent (hq : q.Of s used) (hne : d.conditions.entries ≠ [])
    (habsent : ∀ e ∈ d.conditions.entries, e.1 ∉ s.cids) (b : Nat) : q.deleteExtent d b = .full := by
  have hdecides : (d.conditions.entries.filterMap fun e => q.columnExtent? b e.1 e.2) = [] :=
    List.filterMap_eq_nil_iff.mpr fun e he => columnExtent?_absent hq (habsent e he) e.2
  have hempty : d.conditions.isEmpty = false := by simpa [Conditions.isEmpty] using hne
  rw [deleteExtent, hempty, hdecides]
  rfl

theorem get_afterDeletes_absent (hq : q.Of s used) {first last : Nat} (hlast : last < s.blocks.length)
    (hb : first ≤ b ∧ b ≤ last) (hd : d ∈ q.activeDeletes) (hne : d.conditions.entries ≠ [])
    (habsent : ∀ e ∈ d.conditions.entries, e.1 ∉ s.cids) :
    (q.afterDeletes first last).get b = .excluded := by
  rw [← hq.indexes.blockCount] at hlast
  exact (get_afterDeletes hlast hb).mpr ⟨d, hd, deleteExtent_absent hq hne habsent b⟩

end PruneRequest

/-! ### Seeking with deletes -/

namespace SegmentReader

/-- A block that the deletes of a scan exclude is one whose rows all satisfy, on the stored columns, the
conditions of one of the deletes. These rows are matched by that delete if the defaults of the columns that
the segment lacks satisfy its other conditions, and only then. -/
theorem seekToBlock_excluded_matched (s : WrittenSegment) (hfits : s.Fits) (hlossless : s.Lossless)
    {r : SegmentReader} {g : SegmentGroup} {file : FileId} (hg : g.Hosts r.segmentId s file)
    {cache : IndexCache}
    (hcache : r.context.cached = true → cache.Agrees (g.segmentPath r.segmentId) s)
    (hr : Answerable r.context s.schema)
    {handler : DeleteHandler} (hdeletes : r.context.deletes? = some handler)
    {first last : Nat} (hrange : first ≤ last) (hfirst : first < s.blocks.length)
    (fillCache : Bool) (stats : ScanStatistics) :
    (r.init fillCache g cache stats).result = .ok ()
      ∧ ∃ o p r' stats' q, (r.init fillCache g cache stats).reader.segment? = some o
      ∧ (r.init fillCache g cache stats).reader.seekToBlock first last false
          (r.init fillCache g cache stats).group (r.init fillCache g cache stats).stats
            = (.ok p, r', stats')
      ∧ (r.init fillCache g cache stats).reader.pruneRequest o (r.init fillCache g cache stats).group = q
      ∧ (r.context.conditions? = none →
          r'.blocks? = some (q.afterDeletes first (min last (s.blocks.length - 1))))
      ∧ ∀ b, first ≤ b → b ≤ last → b < s.blocks.length →
          (q.afterDeletes first (min last (s.blocks.length - 1))).get b = .excluded →
          ∃ d ∈ handler.applicable g.version, d.conditions.entries ≠ []
            ∧ ∀ row ∈ s.block b, s.matchedWhereStored d row
              ∧ (s.matchedBy d row = true ↔ s.defaultsMatch d) := by
  obtain ⟨hresult, o, q, p, r', stats', hsegment, hq, hof, hasks, hseek, hmap⟩ :=
    init_seekToBlock hfits hlossless hg hcache hr hrange hfirst fillCache stats
  refine ⟨hresult, o, p, r', stats', q, hsegment, hseek, hq, fun hnone => ?_,
    fun b hle hb hblock hexcluded => ?_⟩
  · rw [hmap, PruneRequest.pruned_eq_afterDeletes (hasks.conditions.trans hnone)]
  have hcount := hof.indexes.blockCount
  obtain ⟨d, hd, hfull⟩ := (PruneRequest.get_afterDeletes (by omega) ⟨hle, by omega⟩).mp hexcluded
  have hactive : d ∈ handler.applicable g.version := by
    rw [PruneRequest.activeDeletes, hasks.deletes, hdeletes, hasks.version] at hd
    dsimp only at hd
    split at hd
    · cases hd
    · exact hd
  obtain ⟨hne, hholds⟩ := PruneRequest.holds_of_extent_full hof hblock hfull
  refine ⟨d, hactive, hne, fun row hrow => ?_⟩
  have hstored : s.matchedWhereStored d row := fun e he hcid =>
    ⟨(hholds e he hcid).1, (hholds e he hcid).2 row hrow⟩
  exact ⟨hstored, WrittenSegment.matchedBy_iff_defaultsMatch hne hstored⟩

/-- The rows with the given note are deleted. The small segment has no notes. -/
def notedDelete (note : String) : DeleteCondition := ⟨1, .ofList [(2, .compare .eq (.string note))]⟩

/-- The values of the small segment are read, less the deleted ones. -/
def notedContext (note : String) : ReadContext :=
  ⟨[1], [], none, some [notedDelete note], .unknown, false, .default⟩

theorem answerable_noted (note : String) :
    Answerable (make 0 (notedContext note)).context WrittenSegment.sample.schema :=
  ⟨rfl, List.all_eq_true.mp rfl, List.all_eq_true.mp rfl⟩

/-- Whatever the note, the first block is excluded. -/
theorem seekToBlock_noted (note : String) :
    let opened := (make 0 (notedContext note)).init true (.single .sample) .empty .zero
    opened.result = .ok () ∧ ∃ o p r stats, opened.reader.segment? = some o
      ∧ opened.reader.seekToBlock 0 7 false opened.group opened.stats = (.ok p, r, stats)
      ∧ r.blocks? = some ((opened.reader.pruneRequest o opened.group).afterDeletes 0 1)
      ∧ ((opened.reader.pruneRequest o opened.group).afterDeletes 0 1).get 0 = .excluded := by
  have hcache : (make 0 (notedContext note)).context.cached = true →
      IndexCache.empty.Agrees ((SegmentGroup.single .sample).segmentPath 0) .sample :=
    fun hcached => absurd hcached Bool.false_ne_true
  have hrange : 0 ≤ 7 := by decide
  have hblocks : WrittenSegment.sample.blocks.length = 2 := by decide +kernel
  obtain ⟨hresult, o, q, p, r, stats, hsegment, rfl, hof, hasks, hseek, hmap⟩ :=
    init_seekToBlock WrittenSegment.fits_sample WrittenSegment.lossless_sample
      (SegmentGroup.hosts_single .sample) hcache (answerable_noted note) hrange (by omega) true .zero
  rw [PruneRequest.pruned_eq_afterDeletes hasks.conditions, hblocks] at hmap
  refine ⟨hresult, o, p, r, stats, hsegment, hseek, hmap, ?_⟩
  refine PruneRequest.get_afterDeletes_absent hof (by omega) ⟨Nat.le_refl 0, by decide⟩
    (d := notedDelete note) ?_ (List.cons_ne_nil _ _) ?_
  · rw [PruneRequest.activeDeletes, hasks.deletes, hasks.deleteStatus, hasks.version]
    exact List.mem_singleton_self _
  · intro e he
    obtain rfl := List.mem_singleton.mp he
    show (2 : ColumnId) ∉ WrittenSegment.sample.cids
    decide

theorem seekToBlock_excluded_matched_new :
    let opened := (make 0 (notedContext "new")).init true (.single .sample) .empty .zero
    ∃ p r stats m, opened.reader.seekToBlock 0 7 false opened.group opened.stats = (.ok p, r, stats)
      ∧ r.blocks? = some m ∧ m.get 0 = .excluded
      ∧ ∀ row ∈ WrittenSegment.sample.block 0,
          WrittenSegment.sample.matchedBy (notedDelete "new") row = true := by
  have hcache : (make 0 (notedContext "new")).context.cached = true →
      IndexCache.empty.Agrees ((SegmentGroup.single .sample).segmentPath 0) .sample :=
    fun hcached => absurd hcached Bool.false_ne_true
  have hrange : 0 ≤ 7 := by decide
  have hblocks : WrittenSegment.sample.blocks.length = 2 := by decide +kernel
  obtain ⟨-, o, p, r, stats, q, hsegment, hseek, rfl, hmap, hmatched⟩ := seekToBlock_excluded_matched .sample
    WrittenSegment.fits_sample WrittenSegment.lossless_sample (SegmentGroup.hosts_single .sample) hcache
    (answerable_noted "new") rfl hrange (by omega) true .zero
  obtain ⟨-, o', -, -, -, hsegment', -, -, hexcluded⟩ := seekToBlock_noted "new"
  obtain rfl : o = o' := Option.some.inj (hsegment.symm.trans hsegment')
  refine ⟨p, r, stats, _, hseek, hmap rfl, ?_, fun row hrow => ?_⟩
  · rw [hblocks]
    exact hexcluded
  · rw [hblocks] at hmatched
    obtain ⟨d, hd, -, hrows⟩ := hmatched 0 (Nat.le_refl 0) (by decide) (by decide) hexcluded
    obtain rfl : d = notedDelete "new" := List.mem_singleton.mp (List.mem_filter.mp hd).1
    refine (hrows row hrow).2.mpr ?_
    rintro e he -
    obtain rfl := List.mem_singleton.mp he
    decide +kernel

/-- No row has an old note, but the delete of old notes hides the block. -/
theorem seekToBlock_hides_default :
    let opened := (make 0 (notedContext "old")).init true (.single .sample) .empty .zero
    opened.result = .ok () ∧ ∃ p r stats m,
      opened.reader.seekToBlock 0 7 false opened.group opened.stats = (.ok p, r, stats)
      ∧ r.blocks? = some m ∧ m.get 0 = .excluded ∧ WrittenSegment.sample.block 0 ≠ []
      ∧ ∀ row ∈ WrittenSegment.sample.block 0,
          WrittenSegment.sample.survives [notedDelete "old"] row = true := by
  obtain ⟨hresult, o, p, r, stats, -, hseek, hmap, hexcluded⟩ := seekToBlock_noted "old"
  exact ⟨hresult, p, r, stats, _, hseek, hmap, hexcluded, by decide +kernel, by decide +kernel⟩

end SegmentReader

end SegmentStore
