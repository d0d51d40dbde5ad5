import SegmentStore.Proofs.AddedColumns
import SegmentStore.Proofs.Ledger

/-!
# What becomes of each block

Pruning updates the dispositions in place, delete by delete and test by test. What comes out is a function of
the block, and of how many blocks are left before the bloom filters are asked.

* `PruneRequest.verdict` is that function. It speaks of what holds of the block: `Wiped` and `Touched` by the
  deletes, `ZoneRejects` and `BloomRejects` by the conditions of the scan.
* `PruneRequest.foldl_deleted_eq` is the outcome of any number of deletes, `PruneRequest.deletePhase_congr` says
  that their order and their number do not count, only which there are.
* `PruneRequest.prune_eq_verdict` says that pruning gives each block its verdict, counts the blocks that are
  left, and does not depend on the order in which deletes were registered.
-/

namespace SegmentStore

theorem MatchExtent.all_eq_some {xs : List MatchExtent} :
    all xs = .some ↔ .none ∉ xs ∧ .some ∈ xs := by
  induction xs with
  | nil => simp
  | cons x xs ih =>
    rw [all_cons]
    cases x with
    | none => simp [MatchExtent.and]
    | some =>
      cases hall : all xs with
      | none => simp [MatchExtent.and, all_eq_none.mp hall]
      | some => simp [MatchExtent.and, (ih.mp hall).1]
      | full =>
        have hnone : MatchExtent.none ∉ xs := fun hmem =>
          absurd (all_eq_full.mp hall _ hmem) (by decide)
        simp [MatchExtent.and, hnone]
    | full =>
      have hand : (MatchExtent.full).and (all xs) = all xs := by cases all xs <;> rfl
      rw [hand, ih]
      simp

namespace PruneRequest

variable {q : PruneRequest} {d : DeleteCondition} {ds : List DeleteCondition} {b first last : Nat}

/-! ### One delete -/

/-- Every row of the block matches the delete: it has conditions, and all that decide are met. -/
def Covers (q : PruneRequest) (d : DeleteCondition) (b : Nat) : Prop :=
  d.conditions.entries ≠ [] ∧ ∀ e ∈ d.conditions.entries, ∀ x ∈ q.columnExtent? b e.1 e.2, x = .full

/-- Some rows of the block may match the delete: no condition excludes it, and one leaves it open. -/
def Touches (q : PruneRequest) (d : DeleteCondition) (b : Nat) : Prop :=
  (∀ e ∈ d.conditions.entries, ∀ x ∈ q.columnExtent? b e.1 e.2, x ≠ .none)
    ∧ ∃ e ∈ d.conditions.entries, ∃ x ∈ q.columnExtent? b e.1 e.2, x = .some

instance (q : PruneRequest) (d : DeleteCondition) (b : Nat) : Decidable (q.Covers d b) :=
  inferInstanceAs (Decidable (_ ∧ _))

instance (q : PruneRequest) (d : DeleteCondition) (b : Nat) : Decidable (q.Touches d b) :=
  inferInstanceAs (Decidable (_ ∧ _))

theorem isEmpty_iff {c : Conditions} : c.isEmpty = true ↔ c.entries = [] := by
  rw [Conditions.isEmpty, List.isEmpty_iff]

theorem deleteExtent_eq_full_iff : q.deleteExtent d b = .full ↔ q.Covers d b := by
  rw [deleteExtent, Covers]
  by_cases hempty : d.conditions.isEmpty = true
  · rw [if_pos hempty]
    exact iff_of_false (by decide) fun h => h.1 (isEmpty_iff.mp hempty)
  · rw [if_neg hempty, MatchExtent.all_eq_full]
    rw [isEmpty_iff] at hempty
    constructor
    · intro hall
      refine ⟨hempty, fun e he x hx => ?_⟩
      apply hall
      rw [List.mem_filterMap]
      exact ⟨e, he, hx⟩
    · intro hall x hx
      rw [List.mem_filterMap] at hx
      obtain ⟨e, he, hx⟩ := hx
      exact hall.2 e he x hx

theorem deleteExtent_eq_some_iff : q.deleteExtent d b = .some ↔ q.Touches d b := by
  rw [deleteExtent, Touches]
  by_cases hempty : d.conditions.isEmpty = true
  · rw [if_pos hempty, isEmpty_iff.mp hempty]
    refine iff_of_false (by decide) fun h => ?_
    obtain ⟨e, he, -⟩ := h.2
    cases he
  · rw [if_neg hempty, MatchExtent.all_eq_some, List.mem_filterMap, List.mem_filterMap]
    constructor
    · intro h
      obtain ⟨hnone, e, he, hsome⟩ := h
      refine ⟨fun e he x hx hx' => ?_, e, he, .some, hsome, rfl⟩
      subst hx'
      exact hnone ⟨e, he, hx⟩
    · intro h
      obtain ⟨hnone, e, he, x, hsome, rfl⟩ := h
      refine ⟨fun hmem => ?_, e, he, hsome⟩
      obtain ⟨e, he, hx⟩ := hmem
      exact hnone e he .none hx rfl

/-! ### Any number of deletes -/

/-- Some delete matches every row of the block. -/
def Wiped (q : PruneRequest) (b : Nat) : Prop := ∃ d ∈ q.activeDeletes, q.Covers d b

/-- Some delete may match rows of the block. -/
def Touched (q : PruneRequest) (b : Nat) : Prop := ∃ d ∈ q.activeDeletes, q.Touches d b

instance (q : PruneRequest) (b : Nat) : Decidable (q.Wiped b) :=
  inferInstanceAs (Decidable (∃ d ∈ q.activeDeletes, q.Covers d b))

instance (q : PruneRequest) (b : Nat) : Decidable (q.Touched b) :=
  inferInstanceAs (Decidable (∃ d ∈ q.activeDeletes, q.Touches d b))

/-- The deletes that are looked at are the registered ones after the version of the data, unless it is known
that they match nothing. -/
theorem mem_activeDeletes :
    d ∈ q.activeDeletes ↔ q.deleteStatus ≠ .notSatisfied
      ∧ ∃ h, q.deletes? = some h ∧ d ∈ h ∧ q.version < d.version := by
  rw [activeDeletes]
  cases q.deletes? with
  | none => simp
  | some h =>
    dsimp only
    by_cases hstatus : q.deleteStatus = .notSatisfied
    · simp [hstatus]
    · rw [if_neg hstatus, DeleteHandler.applicable, List.mem_filter, decide_eq_true_iff]
      simp [hstatus]

/-- One delete does not make a block milder, and a delete without a match changes nothing. -/
theorem deleted_included : q.deleted b .included d
    = match q.deleteExtent d b with | .full => .excluded | .some => .needsRowFilter | .none => .included := by
  rw [deleted, if_neg (by decide)]
  cases q.deleteExtent d b <;> rfl

theorem deleted_needsRowFilter : q.deleted b .needsRowFilter d
    = match q.deleteExtent d b with | .full => .excluded | .some => .needsRowFilter | .none => .needsRowFilter := by
  rw [deleted, if_neg (by decide)]
  cases q.deleteExtent d b <;> rfl

/-- A block that is to be filtered is excluded by a full match, and stays to be filtered else. -/
theorem foldl_deleted_needsRowFilter (q : PruneRequest) (b : Nat) (ds : List DeleteCondition) :
    ds.foldl (q.deleted b) .needsRowFilter
      = if ∃ d ∈ ds, q.deleteExtent d b = .full then .excluded else .needsRowFilter := by
  induction ds with
  | nil => simp
  | cons d ds ih =>
    rw [List.foldl_cons, deleted_needsRowFilter]
    cases hextent : q.deleteExtent d b with
    | full =>
      rw [foldl_deleted_excluded, if_pos ⟨d, List.mem_cons_self, hextent⟩]
    | some =>
      rw [ih]
      simp [hextent]
    | none =>
      rw [ih]
      simp [hextent]

/-- All deletes together: a full match excludes the block, else a possible one has it filtered. -/
theorem foldl_deleted_eq (q : PruneRequest) (b : Nat) (ds : List DeleteCondition) :
    ds.foldl (q.deleted b) .included
      = if ∃ d ∈ ds, q.deleteExtent d b = .full then .excluded
        else if ∃ d ∈ ds, q.deleteExtent d b = .some then .needsRowFilter
        else .included := by
  induction ds with
  | nil => simp
  | cons d ds ih =>
    rw [List.foldl_cons, deleted_included]
    cases hextent : q.deleteExtent d b with
    | full =>
      rw [foldl_deleted_excluded, if_pos ⟨d, List.mem_cons_self, hextent⟩]
    | some =>
      rw [foldl_deleted_needsRowFilter]
      simp [hextent]
    | none =>
      rw [ih]
      simp [hextent]

/-- What the deletes make of a block depends on which there are, not on their order. -/
theorem foldl_deleted_congr {ds' : List DeleteCondition} (h : ∀ d, d ∈ ds' ↔ d ∈ ds) :
    ds'.foldl (q.deleted b) .included = ds.foldl (q.deleted b) .included := by
  rw [foldl_deleted_eq, foldl_deleted_eq]
  simp only [h]

/-! ### The conditions of the scan -/

/-- The conditions that are looked at. -/
def asked (q : PruneRequest) : Conditions := q.conditions?.getD .empty

/-- The zone map of some column rules the block out. -/
def ZoneRejects (q : PruneRequest) (b : Nat) : Prop :=
  ∃ e ∈ q.asked.entries, q.prunable e.1 = true
    ∧ ∃ z ∈ (q.mapping.storedId? e.1).bind q.indexes.zoneMap?,
      e.2.mayMatch (z.entries[b]?.getD default).statistic = false

/-- The bloom filter of some column rules the block out. -/
def BloomRejects (q : PruneRequest) (b : Nat) : Prop :=
  ∃ cid ∈ q.bloomColumns, q.prunable cid = true ∧ ∃ cond ∈ q.asked.get? cid,
    ∃ f ∈ (q.mapping.storedId? cid).bind q.indexes.bloom?,
      cond.mayMatchBloom (f.entries[b]?.elim (fun _ => true) BloomFilter.test) = false

instance (q : PruneRequest) (b : Nat) : Decidable (q.ZoneRejects b) :=
  inferInstanceAs (Decidable (∃ e ∈ q.asked.entries, _ ∧ _))

instance (q : PruneRequest) (b : Nat) : Decidable (q.BloomRejects b) :=
  inferInstanceAs (Decidable (∃ cid ∈ q.bloomColumns, _ ∧ _))

theorem zoneRejects_iff : (∃ test ∈ q.zoneTests q.asked, test b = false) ↔ q.ZoneRejects b := by
  constructor
  · intro h
    obtain ⟨test, htest, hfalse⟩ := h
    rw [zoneTests, List.mem_filterMap] at htest
    obtain ⟨e, he, htest⟩ := htest
    rw [zoneTest?] at htest
    split at htest
    · rename_i hprunable
      obtain ⟨z, hz, rfl⟩ := Option.map_eq_some_iff.mp htest
      exact ⟨e, he, hprunable, z, hz, hfalse⟩
    · cases htest
  · intro h
    obtain ⟨e, he, hprunable, z, hz, hfalse⟩ := h
    refine ⟨fun block => e.2.mayMatch (z.entries[block]?.getD default).statistic, ?_, hfalse⟩
    rw [zoneTests, List.mem_filterMap]
    refine ⟨e, he, ?_⟩
    rw [zoneTest?, if_pos hprunable]
    exact Option.map_eq_some_iff.mpr ⟨z, hz, rfl⟩

theorem bloomRejects_iff : (∃ test ∈ q.bloomTests q.asked, test b = false) ↔ q.BloomRejects b := by
  constructor
  · intro h
    obtain ⟨test, htest, hfalse⟩ := h
    rw [bloomTests, List.mem_filterMap] at htest
    obtain ⟨cid, hcid, htest⟩ := htest
    rw [bloomTest?] at htest
    split at htest
    · rename_i hprunable
      obtain ⟨cond, hcond, htest⟩ := Option.bind_eq_some_iff.mp htest
      obtain ⟨f, hf, rfl⟩ := Option.map_eq_some_iff.mp htest
      exact ⟨cid, hcid, hprunable, cond, hcond, f, hf, hfalse⟩
    · cases htest
  · intro h
    obtain ⟨cid, hcid, hprunable, cond, hcond, f, hf, hfalse⟩ := h
    refine ⟨fun block => cond.mayMatchBloom (f.entries[block]?.elim (fun _ => true) BloomFilter.test), ?_,
      hfalse⟩
    rw [bloomTests, List.mem_filterMap]
    refine ⟨cid, hcid, ?_⟩
    rw [bloomTest?, if_pos hprunable]
    exact Option.bind_eq_some_iff.mpr ⟨cond, hcond, Option.map_eq_some_iff.mpr ⟨f, hf, rfl⟩⟩

/-- Without conditions there is nothing to test. -/
theorem tests_of_empty {c : Conditions} (h : c.entries = []) : q.zoneTests c = [] ∧ q.bloomTests c = [] := by
  refine ⟨by rw [zoneTests, h, List.filterMap_nil], ?_⟩
  rw [bloomTests, List.filterMap_eq_nil_iff]
  intro cid _
  rw [bloomTest?, Conditions.get?, h]
  split <;> rfl

/-! ### The verdict -/

/-- How many blocks of the range neither deletes nor zone maps rule out. -/
def leftBefore (q : PruneRequest) (first last : Nat) : Nat :=
  ((range first last).filter fun b => ¬(q.Wiped b ∨ q.ZoneRejects b)).length

/-- What becomes of a block. Bloom filters count only if enough blocks are left without them. -/
def verdict (q : PruneRequest) (first last b : Nat) : Disposition :=
  if ¬(first ≤ b ∧ b ≤ last) ∨ q.Wiped b ∨ q.ZoneRejects b
      ∨ (q.minFilterBlocks ≤ q.leftBefore first last ∧ q.BloomRejects b) then .excluded
  else if q.Touched b then .needsRowFilter
  else .included

/-- What deletes and zone maps make of a block of the range. -/
theorem get_zoned_eq (hlast : last < q.indexes.blockCount) (hb : first ≤ b ∧ b ≤ last) :
    (q.zoned q.asked first last).blocks.get b
      = if q.Wiped b ∨ q.ZoneRejects b then .excluded
        else if q.Touched b then .needsRowFilter
        else .included := by
  rw [(get_zoned q.asked first hlast).2]
  by_cases hzone : q.ZoneRejects b
  · have hfails : ¬((first ≤ b ∧ b ≤ last) ∧ ∀ test ∈ q.zoneTests q.asked, test b = true) := by
      intro hall
      obtain ⟨test, htest, hfalse⟩ := zoneRejects_iff.mpr hzone
      rw [hall.2 test htest] at hfalse
      cases hfalse
    rw [if_neg hfails, if_pos (.inr hzone)]
  · have hpass : ∀ test ∈ q.zoneTests q.asked, test b = true := by
      intro test htest
      rw [← Bool.not_eq_false]
      intro hfalse
      exact hzone (zoneRejects_iff.mp ⟨test, htest, hfalse⟩)
    rw [if_pos ⟨hb, hpass⟩, foldl_deleted_eq]
    simp only [deleteExtent_eq_full_iff, deleteExtent_eq_some_iff, hzone, or_false]
    rfl

/-- The number of blocks that decides whether bloom filters are asked. -/
theorem remaining_zoned (hrange : first ≤ last) (hlast : last < q.indexes.blockCount) :
    (q.zoned q.asked first last).blocks.remaining = q.leftBefore first last := by
  have hsize := (get_deletePhase_make (q := q) first hlast).1
  have hcounted := (filterPhase_balanced (deletePhase_balanced (q := q) hrange hlast).1
    (hsize.symm ▸ hlast) (q.zoneTests q.asked)).1.counted
  have hsplit := BlockMap.charge_add_length (q.zoned q.asked first last).blocks (range first last)
  have hleft : (range first last).filter (fun b => (q.zoned q.asked first last).blocks.get b ≠ .excluded)
      = (range first last).filter fun b => ¬(q.Wiped b ∨ q.ZoneRejects b) := by
    refine List.filter_congr fun b hb => ?_
    rw [get_zoned_eq hlast (mem_range.mp hb), decide_eq_decide]
    by_cases hout : q.Wiped b ∨ q.ZoneRejects b
    · simp [hout]
    · by_cases htouched : q.Touched b
      · simp [hout, htouched]
      · simp [hout, htouched]
  rw [leftBefore, ← hleft]
  change (q.zoned q.asked first last).blocks.remaining
    + (q.zoned q.asked first last).blocks.charge _ _ = _ at hcounted
  omega

/-- All phases, with or without conditions. -/
theorem pruned_eq (q : PruneRequest) (first last : Nat) :
    q.pruned first last
      = if (q.zoned q.asked first last).blocks.remaining < q.minFilterBlocks then
          q.zoned q.asked first last
        else q.filterPhase (q.bloomTests q.asked) first last (q.zoned q.asked first last) := by
  -- without conditions both branches are what the deletes leave
  have hnone : q.asked.entries = [] →
      q.deletePhase first last ⟨.make q.indexes.blockCount first last, 0, 0⟩
        = if (q.zoned q.asked first last).blocks.remaining < q.minFilterBlocks then
            q.zoned q.asked first last
          else q.filterPhase (q.bloomTests q.asked) first last (q.zoned q.asked first last) := by
    intro hempty
    obtain ⟨hzone, hbloom⟩ := tests_of_empty (q := q) hempty
    rw [hbloom, zoned, hzone]
    exact (ite_self _).symm
  rw [pruned]
  cases hconditions : q.conditions? with
  | none => exact hnone (by rw [asked, hconditions]; rfl)
  | some c =>
    have hasked : q.asked = c := by rw [asked, hconditions, Option.getD_some]
    dsimp only
    by_cases hempty : c.isEmpty = true
    · rw [if_pos hempty]
      exact hnone (by rw [hasked]; exact isEmpty_iff.mp hempty)
    · rw [if_neg hempty, hasked]
      rfl

/-- Each block gets its verdict. -/
theorem get_pruned_eq (hrange : first ≤ last) (hlast : last < q.indexes.blockCount) (b : Nat) :
    (q.pruned first last).blocks.get b = q.verdict first last b := by
  have hsize := (get_zoned (q := q) q.asked first hlast).1
  by_cases hb : first ≤ b ∧ b ≤ last
  · rw [pruned_eq, remaining_zoned hrange hlast, verdict]
    have hbloomed := (get_filterPhase (q := q) (q.bloomTests q.asked) first (hsize.symm ▸ hlast)).2 b
    simp only [hb, true_and, bloomRejects_iff] at hbloomed
    by_cases henough : q.leftBefore first last < q.minFilterBlocks
    · have hskip : ¬q.minFilterBlocks ≤ q.leftBefore first last := Nat.not_le.mpr henough
      rw [if_pos henough, get_zoned_eq hlast hb]
      simp only [hb, hskip, not_true_eq_false, and_self, false_and, or_false, false_or]
    · have hask : q.minFilterBlocks ≤ q.leftBefore first last := Nat.not_lt.mp henough
      rw [if_neg henough, hbloomed, get_zoned_eq hlast hb]
      simp only [hb, hask, not_true_eq_false, and_self, true_and, false_or]
      by_cases hbloom : q.BloomRejects b
      · simp only [hbloom, if_true, or_true]
      · simp only [hbloom, if_false, or_false]
  · rw [get_pruned_outside hlast hb, verdict, if_pos (.inl hb)]

/-! ### The order of the deletes -/

/-- Requests that differ in their registered deletes only, and look at the same ones, prune alike. -/
theorem deletePhase_congr {handler : DeleteHandler}
    (h : ∀ d, d ∈ { q with deletes? := some handler }.activeDeletes ↔ d ∈ q.activeDeletes)
    (hrange : first ≤ last) (hlast : last < q.indexes.blockCount) :
    { q with deletes? := some handler }.deletePhase first last (q.started first last)
      = q.deletePhase first last (q.started first last) := by
  let q' : PruneRequest := { q with deletes? := some handler }
  change q'.deletePhase first last (q'.started first last) = _
  obtain ⟨hbalanced, hruledOut⟩ := deletePhase_balanced (q := q) hrange hlast
  obtain ⟨hbalanced', hruledOut'⟩ := deletePhase_balanced (q := q') hrange hlast
  obtain ⟨hsize, hget⟩ := get_deletePhase_make (q := q) first hlast
  obtain ⟨hsize', hget'⟩ := get_deletePhase_make (q := q') first hlast
  change (q.deletePhase first last (q.started first last)).blocks.dispositions.size = _ at hsize
  change (q'.deletePhase first last (q'.started first last)).blocks.dispositions.size = _ at hsize'
  have hsame : ∀ b, (q'.deletePhase first last (q'.started first last)).blocks.get b
      = (q.deletePhase first last (q.started first last)).blocks.get b := by
    intro b
    have hfold : q'.activeDeletes.foldl (q'.deleted b) .included
        = q.activeDeletes.foldl (q.deleted b) .included :=
      foldl_deleted_congr (q := q) (b := b) h
    rw [started, started, hget', hget, hfold]
  -- the counters follow from the dispositions
  have hcharge : ∀ w : Nat → Nat,
      (q'.deletePhase first last (q'.started first last)).blocks.charge w (range first last)
        = (q.deletePhase first last (q.started first last)).blocks.charge w (range first last) :=
    fun w => BlockMap.charge_congr fun b _ => hsame b
  have hcounted := hbalanced.counted
  have hcounted' := hbalanced'.counted
  rw [hcharge] at hcounted'
  have hdeleted := deletePhase_deleted (q := q) hrange hlast
  have hdeleted' := deletePhase_deleted (q := q') hrange hlast
  rw [hcharge] at hdeleted'
  have hblocks := BlockMap.ext_get (hsize'.trans hsize.symm) hsame (by omega)
  have hrows : (q'.deletePhase first last (q'.started first last)).deleted
      = (q.deletePhase first last (q.started first last)).deleted := hdeleted'.trans hdeleted.symm
  have hnone : (q'.deletePhase first last (q'.started first last)).ruledOut
      = (q.deletePhase first last (q.started first last)).ruledOut := hruledOut'.trans hruledOut.symm
  calc q'.deletePhase first last (q'.started first last)
      = ⟨(q'.deletePhase first last (q'.started first last)).blocks,
          (q'.deletePhase first last (q'.started first last)).deleted,
          (q'.deletePhase first last (q'.started first last)).ruledOut⟩ := rfl
    _ = ⟨(q.deletePhase first last (q.started first last)).blocks,
          (q.deletePhase first last (q.started first last)).deleted,
          (q.deletePhase first last (q.started first last)).ruledOut⟩ := by rw [hblocks, hrows, hnone]
    _ = q.deletePhase first last (q.started first last) := rfl

/-- Deletes may be registered in any order. -/
theorem pruned_perm {handler handler' : DeleteHandler} (hdeletes : q.deletes? = some handler)
    (hperm : handler'.Perm handler) (hrange : first ≤ last) (hlast : last < q.indexes.blockCount) :
    { q with deletes? := some handler' }.pruned first last = q.pruned first last := by
  have hactive : ∀ d, d ∈ { q with deletes? := some handler' }.activeDeletes ↔ d ∈ q.activeDeletes := by
    intro d
    rw [mem_activeDeletes, mem_activeDeletes]
    simp only [hdeletes, Option.some.injEq, exists_eq_left', hperm.mem_iff]
  have hphase := deletePhase_congr hactive hrange hlast
  rw [started] at hphase
  simp only [pruned]
  rw [hphase]
  rfl

/-- Pruning a range gives each block of the segment its verdict and counts those that are not excluded. The
order in which deletes were registered has no part in it. -/
theorem prune_eq_verdict (q : PruneRequest) {first last : Nat} (hrange : first ≤ last)
    (hlast : last < q.indexes.blockCount) :
    ∃ s, q.prune first last = .ok s
      ∧ s.blocks.dispositions = ((List.range q.indexes.blockCount).map (q.verdict first last)).toArray
      ∧ s.blocks.remaining
          = ((List.range q.indexes.blockCount).filter fun b => q.verdict first last b ≠ .excluded).length
      ∧ ∀ handler handler' : DeleteHandler, q.deletes? = some handler → handler'.Perm handler →
          { q with deletes? := some handler' }.prune first last = .ok s := by
  refine ⟨q.pruned first last, prune_eq hrange hlast, ?_, ?_, fun handler handler' hdeletes hperm => ?_⟩
  · refine Array.ext (by simp [size_pruned hlast]) fun b hb hb' => ?_
    have hget := get_pruned_eq hrange hlast b
    rw [BlockMap.get, Array.getElem?_eq_getElem hb, Option.getD_some] at hget
    simpa using hget
  · rw [remaining_pruned hrange hlast, BlockMap.kept, size_pruned hlast]
    simp only [get_pruned_eq hrange hlast]
  · rw [prune_eq (q := { q with deletes? := some handler' }) hrange hlast,
      pruned_perm hdeletes hperm hrange hlast]

/-- Keys from five to seven are deleted. -/
def middleDelete : DeleteCondition :=
  ⟨1, .ofList [(0, .compare .ge (.int32 5)), (0, .compare .le (.int32 7))]⟩

/-- Keys above ninety are deleted. -/
def highDelete : DeleteCondition := ⟨2, .ofList [(0, .compare .gt (.int32 90))]⟩

/-- Four blocks with two keys each, from one to eight, of which those above two are asked for. -/
def eightKeys (handler : DeleteHandler) : PruneRequest where
  schema := ⟨[⟨10, "key", .int32, true, false, .none, none⟩]⟩
  mapping := ⟨[10], [⟨10, .int32, false, .plain⟩], [10], []⟩
  indexes := ⟨[(10, ⟨#[⟨[], ⟨.int32 1, .int32 2, false⟩⟩, ⟨[], ⟨.int32 3, .int32 4, false⟩⟩,
    ⟨[], ⟨.int32 5, .int32 6, false⟩⟩, ⟨[], ⟨.int32 7, .int32 8, false⟩⟩], .owned []⟩)], [], 4⟩
  conditions? := some (.ofList [(0, .compare .gt (.int32 2))])
  deletes? := some handler
  deleteStatus := .unknown
  bloomColumns := [0]
  version := 0
  rowCount := 8
  rowsPerBlock := 2
  minFilterBlocks := 1

/-- The delete that matches nothing takes nothing back, whether it comes before or after the other. -/
theorem prune_eq_verdict_eightKeys :
    ∃ s, (eightKeys [middleDelete, highDelete]).prune 0 3 = .ok s
      ∧ s.blocks.dispositions = #[.excluded, .included, .excluded, .needsRowFilter]
      ∧ s.blocks.remaining = 2
      ∧ (eightKeys [highDelete, middleDelete]).prune 0 3 = .ok s := by
  obtain ⟨s, hprune, hverdict, hremaining, hperm⟩ :=
    prune_eq_verdict (eightKeys [middleDelete, highDelete]) (show 0 ≤ 3 by decide) (show 3 < 4 by decide)
  refine ⟨s, hprune, hverdict.trans (by decide +kernel), hremaining.trans (by decide +kernel), ?_⟩
  exact hperm _ _ rfl (List.Perm.swap _ _ [])

end PruneRequest

end SegmentStore
