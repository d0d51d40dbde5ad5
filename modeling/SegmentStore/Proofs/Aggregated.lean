import SegmentStore.Proofs.Verdict

/-!
# Statistics of aggregated columns

What a reader observes of an aggregated column is not bounded by the statistics of its blocks. The conditions of a scan
are therefore not held against them, but those of the deletes are.

* `IndexSet.statistics?` and `IndexSet.filters?` are what the indexes say of the blocks of a column, and
  `PruneRequest.SameUnaggregated` relates indexes that may say different things of aggregated columns only.
* `PruneRequest.zoneRejects_congr` and `PruneRequest.bloomRejects_congr` say that the conditions of a scan then rule
  the same blocks out.
* `PruneRequest.dispositions_same_iff` says that pruning comes to the same, whatever number of blocks is enough for the
  bloom filters, exactly if the deletes make the same of each block that the zone maps leave.
* `PruneRequest.dispositions_same` is the case of deletes that look at no aggregated column.
-/

namespace SegmentStore

namespace IndexSet

/-- The bounds of the blocks of a column, if its zone map is loaded. -/
def statistics? (set : IndexSet) (uid : UniqueId) : Option (Nat → Statistic) :=
  (set.zoneMap? uid).map fun z b => (z.entries[b]?.getD default).statistic

/-- The filters of the blocks of a column, if they are loaded. -/
def filters? (set : IndexSet) (uid : UniqueId) : Option (Nat → Option BloomFilter) :=
  (set.bloom? uid).map fun f b => f.entries[b]?

end IndexSet

namespace PruneRequest

/-- The dispositions that pruning gives to the blocks. -/
def dispositions (q : PruneRequest) (first last : Nat) : Except StorageError (Array Disposition) :=
  (q.prune first last).map (·.blocks.dispositions)

/-- Indexes of the same columns and blocks, which say the same of each stored column without aggregation. -/
structure SameUnaggregated (q : PruneRequest) (set : IndexSet) : Prop where
  blockCount : set.blockCount = q.indexes.blockCount
  zoneMaps : ∀ uid, (set.zoneMap? uid).isSome = (q.indexes.zoneMap? uid).isSome
  blooms : ∀ uid, (set.bloom? uid).isSome = (q.indexes.bloom? uid).isSome
  statistics : ∀ cid uid, q.prunable cid = true → q.mapping.storedId? cid = some uid →
    set.statistics? uid = q.indexes.statistics? uid
  filters : ∀ cid uid, q.prunable cid = true → q.mapping.storedId? cid = some uid →
    set.filters? uid = q.indexes.filters? uid

/-- The request over other indexes. -/
def withIndexes (q : PruneRequest) (set : IndexSet) : PruneRequest := { q with indexes := set }

/-- The request with another number of blocks that is enough for the bloom filters. -/
def enough (q : PruneRequest) (n : Nat) : PruneRequest := { q with minFilterBlocks := n }

variable {q : PruneRequest} {set : IndexSet} {b first last : Nat}

/-! ### The conditions of a scan -/

theorem zoneTest?_eq (q : PruneRequest) (cid : ColumnId) (cond : ColumnCondition) :
    q.zoneTest? cid cond
      = if q.prunable cid then
          ((q.mapping.storedId? cid).bind q.indexes.statistics?).map fun s b => cond.mayMatch (s b)
        else none := by
  rw [zoneTest?]
  cases q.mapping.storedId? cid with
  | none => rfl
  | some uid =>
    simp only [Option.bind_some, IndexSet.statistics?, Option.map_map]
    rfl

theorem bloomTest?_eq (q : PruneRequest) (c : Conditions) (cid : ColumnId) :
    q.bloomTest? c cid
      = if q.prunable cid then
          (c.get? cid).bind fun cond =>
            ((q.mapping.storedId? cid).bind q.indexes.filters?).map fun f b =>
              cond.mayMatchBloom ((f b).elim (fun _ => true) BloomFilter.test)
        else none := by
  rw [bloomTest?]
  cases q.mapping.storedId? cid with
  | none => rfl
  | some uid =>
    simp only [Option.bind_some, IndexSet.filters?, Option.map_map]
    rfl

theorem zoneTests_congr (h : q.SameUnaggregated set) (c : Conditions) :
    (q.withIndexes set).zoneTests c = q.zoneTests c := by
  refine List.filterMap_congr fun e _ => ?_
  rw [zoneTest?_eq, zoneTest?_eq]
  change (if q.prunable e.1 then ((q.mapping.storedId? e.1).bind set.statistics?).map _ else none) = _
  split
  · rename_i hprunable
    cases huid : q.mapping.storedId? e.1 with
    | none => rfl
    | some uid => rw [Option.bind_some, Option.bind_some, h.statistics e.1 uid hprunable huid]
  · rfl

theorem bloomTests_congr (h : q.SameUnaggregated set) (c : Conditions) :
    (q.withIndexes set).bloomTests c = q.bloomTests c := by
  refine List.filterMap_congr fun cid _ => ?_
  rw [bloomTest?_eq, bloomTest?_eq]
  change (if q.prunable cid then (c.get? cid).bind fun _ => ((q.mapping.storedId? cid).bind set.filters?).map _
    else none) = _
  split
  · rename_i hprunable
    cases huid : q.mapping.storedId? cid with
    | none => rfl
    | some uid =>
      simp only [Option.bind_some]
      rw [h.filters cid uid hprunable huid]
  · rfl

/-- Zone maps rule the same blocks out. -/
theorem zoneRejects_congr (h : q.SameUnaggregated set) :
    (q.withIndexes set).ZoneRejects b ↔ q.ZoneRejects b := by
  rw [← zoneRejects_iff, ← zoneRejects_iff]
  exact iff_of_eq (congrArg (fun tests => ∃ test ∈ tests, test b = false) (zoneTests_congr h q.asked))

/-- Bloom filters rule the same blocks out. -/
theorem bloomRejects_congr (h : q.SameUnaggregated set) :
    (q.withIndexes set).BloomRejects b ↔ q.BloomRejects b := by
  rw [← bloomRejects_iff, ← bloomRejects_iff]
  exact iff_of_eq (congrArg (fun tests => ∃ test ∈ tests, test b = false) (bloomTests_congr h q.asked))

/-! ### The deletes -/

theorem get_afterDeletes_eq (hlast : last < q.indexes.blockCount) (hb : first ≤ b ∧ b ≤ last) :
    (q.afterDeletes first last).get b
      = if q.Wiped b then .excluded else if q.Touched b then .needsRowFilter else .included := by
  rw [afterDeletes, (get_deletePhase_make first hlast).2, if_pos hb, foldl_deleted_eq]
  simp only [deleteExtent_eq_full_iff, deleteExtent_eq_some_iff]
  rfl

theorem get_afterDeletes_eq_excluded (hlast : last < q.indexes.blockCount) (hb : first ≤ b ∧ b ≤ last) :
    (q.afterDeletes first last).get b = .excluded ↔ q.Wiped b := by
  rw [get_afterDeletes_eq hlast hb]
  split
  · exact iff_of_true rfl ‹_›
  · split
    · exact iff_of_false (by decide) ‹_›
    · exact iff_of_false (by decide) ‹_›

/-- The verdict is what the deletes make of a block, unless a condition rules it out. -/
theorem verdict_eq_afterDeletes (hlast : last < q.indexes.blockCount) (hb : first ≤ b ∧ b ≤ last) :
    q.verdict first last b
      = if q.ZoneRejects b ∨ (q.minFilterBlocks ≤ q.leftBefore first last ∧ q.BloomRejects b) then .excluded
        else (q.afterDeletes first last).get b := by
  rw [get_afterDeletes_eq hlast hb, verdict]
  simp only [hb, and_self, not_true_eq_false, false_or]
  by_cases hwiped : q.Wiped b
  · simp only [hwiped, true_or, if_true, ite_self]
  · simp only [hwiped, false_or, if_false]

theorem leftBefore_eq (hlast : last < q.indexes.blockCount) :
    q.leftBefore first last
      = ((range first last).filter fun b =>
          ¬(q.ZoneRejects b ∨ (q.afterDeletes first last).get b = .excluded)).length := by
  rw [leftBefore]
  congr 1
  refine List.filter_congr fun b hb => ?_
  rw [decide_eq_decide, get_afterDeletes_eq_excluded hlast (mem_range.mp hb), or_comm]

/-- A delete counts for a block by what the statistics of its columns say. -/
theorem columnExtent?_eq (q : PruneRequest) (b : Nat) (cid : ColumnId) (cond : ColumnCondition) :
    q.columnExtent? b cid cond
      = (q.mapping.storedId? cid).map fun uid =>
          (q.indexes.statistics? uid).elim .some fun s => cond.extent (s b) := by
  rw [columnExtent?]
  cases q.mapping.storedId? cid with
  | none => rfl
  | some uid =>
    rw [Option.map_some, Option.map_some, IndexSet.statistics?]
    cases q.indexes.zoneMap? uid <;> rfl

/-- The deletes that are looked at have no condition on the statistics of an aggregated column. -/
def DeletesUnaggregated (q : PruneRequest) : Prop :=
  ∀ d ∈ q.activeDeletes, ∀ e ∈ d.conditions.entries, q.prunable e.1 = true
    ∨ ∀ uid, q.mapping.storedId? e.1 = some uid → q.indexes.zoneMap? uid = none

theorem columnExtent?_congr (h : q.SameUnaggregated set) {cid : ColumnId} (cond : ColumnCondition)
    (hcid : q.prunable cid = true ∨ ∀ uid, q.mapping.storedId? cid = some uid → q.indexes.zoneMap? uid = none) :
    (q.withIndexes set).columnExtent? b cid cond = q.columnExtent? b cid cond := by
  rw [columnExtent?_eq, columnExtent?_eq]
  change (q.mapping.storedId? cid).map _ = _
  cases huid : q.mapping.storedId? cid with
  | none => rfl
  | some uid =>
    have hsame : set.statistics? uid = q.indexes.statistics? uid := by
      rcases hcid with hprunable | hnone
      · exact h.statistics cid uid hprunable huid
      · have hloaded := h.zoneMaps uid
        rw [hnone uid huid, Option.isSome_none, Option.isSome_eq_false_iff, Option.isNone_iff_eq_none] at hloaded
        rw [IndexSet.statistics?, IndexSet.statistics?, hnone uid huid, hloaded]
    rw [Option.map_some, Option.map_some]
    change some ((set.statistics? uid).elim _ _) = _
    rw [hsame]

/-- Deletes that look at no aggregated column make the same of each block. -/
theorem afterDeletes_congr (h : q.SameUnaggregated set) (hdeletes : q.DeletesUnaggregated)
    (hlast : last < q.indexes.blockCount) (hb : first ≤ b ∧ b ≤ last) :
    ((q.withIndexes set).afterDeletes first last).get b = (q.afterDeletes first last).get b := by
  have hextent : ∀ d ∈ q.activeDeletes,
      (q.withIndexes set).deleteExtent d b = q.deleteExtent d b := by
    intro d hd
    rw [deleteExtent, deleteExtent, List.filterMap_congr (g := fun e => q.columnExtent? b e.1 e.2)]
    intro e he
    exact columnExtent?_congr h e.2 (hdeletes d hd e he)
  have hlast' : last < (q.withIndexes set).indexes.blockCount := h.blockCount ▸ hlast
  rw [afterDeletes, afterDeletes, (get_deletePhase_make first hlast').2, (get_deletePhase_make first hlast).2,
    if_pos hb, if_pos hb]
  change q.activeDeletes.foldl _ _ = _
  refine List.foldl_ext _ _ _ fun before d hd => ?_
  rw [deleted, deleted, hextent d hd]

/-! ### Pruning -/

/-- Requests over the same number of blocks prune alike if their verdicts on each block of the range are the same. -/
theorem dispositions_eq_iff {q' : PruneRequest} (hcount : q'.indexes.blockCount = q.indexes.blockCount)
    (hrange : first ≤ last) (hlast : last < q.indexes.blockCount) :
    q.dispositions first last = q'.dispositions first last
      ↔ ∀ b, first ≤ b → b ≤ last → q.verdict first last b = q'.verdict first last b := by
  have hlast' : last < q'.indexes.blockCount := hcount ▸ hlast
  rw [dispositions, dispositions, prune_eq hrange hlast, prune_eq hrange hlast']
  constructor
  · intro h b _ _
    have hsame : (q.pruned first last).blocks.dispositions = (q'.pruned first last).blocks.dispositions :=
      Except.ok.inj h
    rw [← get_pruned_eq hrange hlast, ← get_pruned_eq hrange hlast', BlockMap.get, BlockMap.get, hsame]
  · intro h
    -- the maps are compared without what they count
    have hmap : (⟨(q.pruned first last).blocks.dispositions, 0⟩ : BlockMap)
        = ⟨(q'.pruned first last).blocks.dispositions, 0⟩ := by
      refine BlockMap.ext_get ?_ (fun b => ?_) rfl
      · exact (size_pruned hlast).trans (hcount.symm.trans (size_pruned hlast').symm)
      · change (q.pruned first last).blocks.get b = (q'.pruned first last).blocks.get b
        by_cases hb : first ≤ b ∧ b ≤ last
        · rw [get_pruned_eq hrange hlast, get_pruned_eq hrange hlast', h b hb.1 hb.2]
        · rw [get_pruned_outside hlast hb, get_pruned_outside hlast' hb]
    exact congrArg Except.ok (BlockMap.mk.inj hmap).1

/-- A range that is refused is refused over all indexes of as many blocks. -/
theorem dispositions_refused (h : q.SameUnaggregated set) (hinvalid : ¬(first ≤ last ∧ last < q.indexes.blockCount)) :
    q.dispositions first last = (q.withIndexes set).dispositions first last := by
  have hrefused : (decide (last < first) || decide (q.indexes.blockCount ≤ last)) = true := by
    rw [Bool.or_eq_true, decide_eq_true_iff, decide_eq_true_iff]
    omega
  have hcount : (q.withIndexes set).indexes.blockCount = q.indexes.blockCount := h.blockCount
  rw [dispositions, dispositions, prune, prune]
  simp only [hcount, hrefused, if_true]

/-- The verdict over the other indexes: only deletes and the number of blocks that they leave are asked anew. -/
theorem verdict_withIndexes (h : q.SameUnaggregated set) (hlast : last < q.indexes.blockCount)
    (hb : first ≤ b ∧ b ≤ last) :
    (q.withIndexes set).verdict first last b
      = if q.ZoneRejects b ∨ (q.minFilterBlocks ≤ (q.withIndexes set).leftBefore first last ∧ q.BloomRejects b) then
          .excluded
        else ((q.withIndexes set).afterDeletes first last).get b := by
  have hlast' : last < (q.withIndexes set).indexes.blockCount := h.blockCount ▸ hlast
  rw [verdict_eq_afterDeletes hlast' hb]
  exact if_congr (or_congr (zoneRejects_congr h) (and_congr_right' (bloomRejects_congr h))) rfl rfl

/-- Where the deletes make the same of the blocks that the zone maps leave, as many are left. -/
theorem leftBefore_withIndexes (h : q.SameUnaggregated set) (hlast : last < q.indexes.blockCount)
    (hdeletes : ∀ b, first ≤ b → b ≤ last → last < q.indexes.blockCount → ¬q.ZoneRejects b →
      (q.afterDeletes first last).get b = ((q.withIndexes set).afterDeletes first last).get b) :
    (q.withIndexes set).leftBefore first last = q.leftBefore first last := by
  have hlast' : last < (q.withIndexes set).indexes.blockCount := h.blockCount ▸ hlast
  rw [leftBefore_eq hlast, leftBefore_eq hlast']
  congr 1
  refine List.filter_congr fun b hb => ?_
  obtain ⟨hfirst, hb⟩ := mem_range.mp hb
  rw [decide_eq_decide, zoneRejects_congr h]
  by_cases hzone : q.ZoneRejects b
  · simp only [hzone, true_or]
  · rw [hdeletes b hfirst hb hlast hzone]

theorem dispositions_withIndexes (h : q.SameUnaggregated set)
    (hdeletes : ∀ b, first ≤ b → b ≤ last → last < q.indexes.blockCount → ¬q.ZoneRejects b →
      (q.afterDeletes first last).get b = ((q.withIndexes set).afterDeletes first last).get b) :
    q.dispositions first last = (q.withIndexes set).dispositions first last := by
  by_cases hvalid : first ≤ last ∧ last < q.indexes.blockCount
  · obtain ⟨hrange, hlast⟩ := hvalid
    refine (dispositions_eq_iff h.blockCount hrange hlast).mpr fun b hfirst hb => ?_
    rw [verdict_eq_afterDeletes hlast ⟨hfirst, hb⟩, verdict_withIndexes h hlast ⟨hfirst, hb⟩,
      leftBefore_withIndexes h hlast hdeletes]
    by_cases hzone : q.ZoneRejects b
    · rw [if_pos (.inl hzone), if_pos (.inl hzone)]
    · rw [hdeletes b hfirst hb hlast hzone]
  · exact dispositions_refused h hvalid

/-- What indexes say of aggregated columns has no part in pruning where no delete asks for it. -/
theorem dispositions_same (h : q.SameUnaggregated set) (hdeletes : q.DeletesUnaggregated) (first last : Nat) :
    q.dispositions first last = (q.withIndexes set).dispositions first last :=
  dispositions_withIndexes h fun _ hfirst hb hlast _ => (afterDeletes_congr h hdeletes hlast ⟨hfirst, hb⟩).symm

theorem SameUnaggregated.enough (h : q.SameUnaggregated set) (n : Nat) : (q.enough n).SameUnaggregated set :=
  ⟨h.blockCount, h.zoneMaps, h.blooms, h.statistics, h.filters⟩

/-- What indexes say of aggregated columns has no part in pruning, whatever number of blocks is enough for the bloom
filters, exactly if the deletes make the same of each block that the zone maps leave. -/
theorem dispositions_same_iff (h : q.SameUnaggregated set) (first last : Nat) :
    (∀ n, (q.enough n).dispositions first last = ((q.enough n).withIndexes set).dispositions first last)
      ↔ ∀ b, first ≤ b → b ≤ last → last < q.indexes.blockCount → ¬q.ZoneRejects b →
          (q.afterDeletes first last).get b = ((q.withIndexes set).afterDeletes first last).get b := by
  constructor
  · intro hsame b hfirst hb hlast hzone
    -- bloom filters are not asked where no number of blocks is enough
    let n := q.leftBefore first last + (q.withIndexes set).leftBefore first last + 1
    have hverdict := (dispositions_eq_iff (q := q.enough n) (h.enough n).blockCount (hfirst.trans hb) hlast).mp
      (hsame n) b hfirst hb
    rw [verdict_eq_afterDeletes (q := q.enough n) hlast ⟨hfirst, hb⟩,
      verdict_withIndexes (h.enough n) hlast ⟨hfirst, hb⟩, if_neg, if_neg] at hverdict
    · exact hverdict
    · refine not_or.mpr ⟨hzone, fun hasked => ?_⟩
      have hfew : n ≤ (q.withIndexes set).leftBefore first last := hasked.1
      omega
    · refine not_or.mpr ⟨hzone, fun hasked => ?_⟩
      have hfew : n ≤ q.leftBefore first last := hasked.1
      omega
  · exact fun hdeletes n => dispositions_withIndexes (h.enough n) hdeletes

/-- A block of two rows whose values are merged by their sum: keys one and two, values from five to `high`. -/
def summed (handler : DeleteHandler) (high : Int32) : PruneRequest where
  schema := ⟨[⟨10, "key", .int32, true, false, .none, none⟩, ⟨20, "value", .int32, false, false, .sum, none⟩]⟩
  mapping := ⟨[10, 20], [⟨10, .int32, false, .plain⟩, ⟨20, .int32, false, .plain⟩], [10, 20], []⟩
  indexes := ⟨[(10, ⟨#[⟨[], ⟨.int32 1, .int32 2, false⟩⟩], .owned []⟩),
    (20, ⟨#[⟨[], ⟨.int32 5, .int32 high, false⟩⟩], .owned []⟩)], [], 1⟩
  conditions? := none
  deletes? := some handler
  deleteStatus := .unknown
  bloomColumns := []
  version := 0
  rowCount := 2
  rowsPerBlock := 2
  minFilterBlocks := 10

/-- The two values of a block bound its sums neither way, and may be anything. -/
theorem sameUnaggregated_summed (handler : DeleteHandler) :
    (summed handler 5).SameUnaggregated (summed handler 6).indexes := by
  have hzones : ∀ uid, ((summed handler 6).indexes.zoneMap? uid).isSome
      = ((summed handler 5).indexes.zoneMap? uid).isSome := by
    intro uid
    simp only [summed, IndexSet.zoneMap?, List.lookup_cons, List.lookup_nil]
    split
    · rfl
    · split <;> rfl
  refine ⟨rfl, hzones, fun _ => rfl, fun cid uid hprunable huid => ?_, fun _ _ _ _ => rfl⟩
  -- only the keys are without aggregation
  have hkey : cid.toNat = 0 := by
    rw [prunable, TabletSchema.column?] at hprunable
    rcases hcid : cid.toNat with _ | _ | n <;> rw [hcid] at hprunable
    · cases hprunable
    · cases hprunable
  rw [ColumnMapping.storedId?, ColumnMapping.uniqueId?, hkey] at huid
  obtain rfl : 10 = uid := Option.some.inj huid
  rfl

/-- Keys above one are deleted. -/
def keyDelete : DeleteCondition := ⟨1, .ofList [(0, .compare .gt (.int32 1))]⟩

/-- The value five is deleted. -/
def valueDelete : DeleteCondition := ⟨1, .ofList [(1, .compare .eq (.int32 5))]⟩

theorem dispositions_same_iff_keyDelete :
    (summed [keyDelete] 5).SameUnaggregated (summed [keyDelete] 6).indexes
      ∧ ∀ n, ((summed [keyDelete] 5).enough n).dispositions 0 0
          = (((summed [keyDelete] 5).enough n).withIndexes (summed [keyDelete] 6).indexes).dispositions 0 0 := by
  have hsame := sameUnaggregated_summed [keyDelete]
  have hdeletes : (summed [keyDelete] 5).DeletesUnaggregated := by
    have hkeys : ∀ d ∈ (summed [keyDelete] 5).activeDeletes, ∀ e ∈ d.conditions.entries,
        (summed [keyDelete] 5).prunable e.1 = true := by decide
    exact fun d hd e he => .inl (hkeys d hd e he)
  refine ⟨hsame, (dispositions_same_iff hsame 0 0).mpr fun b hfirst hb hlast _ => ?_⟩
  exact (afterDeletes_congr hsame hdeletes hlast ⟨hfirst, hb⟩).symm

/-- A delete excludes a block by the statistics of its sums, and leaves it with other ones. -/
theorem dispositions_valueDelete :
    (summed [valueDelete] 5).SameUnaggregated (summed [valueDelete] 6).indexes
      ∧ (summed [valueDelete] 5).dispositions 0 0 = .ok #[.excluded]
      ∧ ((summed [valueDelete] 5).withIndexes (summed [valueDelete] 6).indexes).dispositions 0 0
          = .ok #[.needsRowFilter] :=
  ⟨sameUnaggregated_summed [valueDelete], rfl, rfl⟩

end PruneRequest

end SegmentStore
