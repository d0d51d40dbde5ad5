import Mathlib.Data.List.Range
import SegmentStore.Prune.Blocks

/-!
# Pruning, block by block

The phases of pruning go through the blocks of a range again and again, but what becomes of a block depends
on that block alone.

* `BlockMap.get_make` and `BlockMap.get_set` are the laws of the map.
* `PruneRequest.get_foldl` is the pass of one test over a range.
* `PruneRequest.get_deletePhase` and `PruneRequest.get_filterPhase` are the phases as folds over one block.
* `PruneRequest.get_zoned` and `PruneRequest.get_pruned` are the outcome before and after bloom filters.
-/

namespace SegmentStore

namespace BlockMap

@[simp]
theorem size_make (count first last : Nat) : (make count first last).dispositions.size = count := by
  simp [make]

theorem get_make (count first last block : Nat) :
    (make count first last).get block
      = if first ≤ block ∧ block ≤ last ∧ block < count then .included else .excluded := by
  rw [get, make]
  by_cases hblock : block < count
  · simp [hblock]
  · simp [hblock]

@[simp]
theorem size_set (m : BlockMap) (block : Nat) (d : Disposition) :
    (m.set block d).dispositions.size = m.dispositions.size := by
  simp [set]

theorem get_set (m : BlockMap) {block : Nat} (hblock : block < m.dispositions.size) (d : Disposition)
    (other : Nat) : (m.set block d).get other = if other = block then d else m.get other := by
  rw [get, get, set]
  by_cases hsame : other = block
  · subst hsame
    simp [hblock]
  · rw [if_neg hsame, Array.getElem?_setIfInBounds_ne fun h => hsame h.symm]

end BlockMap

namespace PruneRequest

variable {q : PruneRequest}

/-! ### One pass -/

/-- A step over a block changes the disposition of that block only, as `g` says. -/
def Acts (step : PruneState → Nat → PruneState) (g : Nat → Disposition → Disposition) : Prop :=
  ∀ (s : PruneState) (block : Nat), block < s.blocks.dispositions.size →
    (step s block).blocks.dispositions.size = s.blocks.dispositions.size
      ∧ ∀ other, (step s block).blocks.get other
          = if other = block then g block (s.blocks.get block) else s.blocks.get other

theorem mem_range {first last block : Nat} : block ∈ range first last ↔ first ≤ block ∧ block ≤ last := by
  rw [range, List.mem_range'_1]
  omega

theorem nodup_range (first last : Nat) : (range first last).Nodup := List.nodup_range'

/-- A pass over a list of blocks acts once on each of them. -/
theorem get_foldl {step : PruneState → Nat → PruneState} {g : Nat → Disposition → Disposition}
    (hstep : Acts step g) {blocks : List Nat} (hnodup : blocks.Nodup) {s : PruneState}
    (hblocks : ∀ b ∈ blocks, b < s.blocks.dispositions.size) :
    (blocks.foldl step s).blocks.dispositions.size = s.blocks.dispositions.size
      ∧ ∀ b, (blocks.foldl step s).blocks.get b
          = if b ∈ blocks then g b (s.blocks.get b) else s.blocks.get b := by
  induction blocks generalizing s with
  | nil => exact ⟨rfl, fun b => rfl⟩
  | cons a blocks ih =>
    obtain ⟨ha, hnodup⟩ := List.nodup_cons.mp hnodup
    obtain ⟨hsize, hget⟩ := hstep s a (hblocks a List.mem_cons_self)
    obtain ⟨hsize', hget'⟩ := ih (s := step s a) hnodup fun b hb => by
      rw [hsize]
      exact hblocks b (List.mem_cons_of_mem a hb)
    refine ⟨hsize'.trans hsize, fun b => ?_⟩
    rw [List.foldl_cons, hget', hget]
    by_cases hsame : b = a
    · subst hsame
      rw [if_neg ha, if_pos rfl, if_pos List.mem_cons_self]
    · rw [if_neg hsame]
      by_cases hmem : b ∈ blocks
      · rw [if_pos hmem, if_pos (List.mem_cons_of_mem a hmem)]
      · rw [if_neg hmem, if_neg (by simp [hsame, hmem])]

/-- A pass over a range of the blocks. -/
theorem get_foldl_range {step : PruneState → Nat → PruneState} {g : Nat → Disposition → Disposition}
    (hstep : Acts step g) (first : Nat) {last : Nat} {s : PruneState}
    (hlast : last < s.blocks.dispositions.size) :
    ((range first last).foldl step s).blocks.dispositions.size = s.blocks.dispositions.size
      ∧ ∀ b, ((range first last).foldl step s).blocks.get b
          = if first ≤ b ∧ b ≤ last then g b (s.blocks.get b) else s.blocks.get b := by
  have hblocks : ∀ b ∈ range first last, b < s.blocks.dispositions.size := fun b hb => by
    have := mem_range.mp hb
    omega
  obtain ⟨hsize, hget⟩ := get_foldl hstep (nodup_range first last) hblocks
  refine ⟨hsize, fun b => ?_⟩
  rw [hget]
  by_cases hb : first ≤ b ∧ b ≤ last
  · rw [if_pos hb, if_pos (mem_range.mpr hb)]
  · rw [if_neg hb, if_neg fun hmem => hb (mem_range.mp hmem)]

/-! ### Deletes -/

/-- What one delete does to a block. -/
def deleted (q : PruneRequest) (block : Nat) (before : Disposition) (d : DeleteCondition) : Disposition :=
  if before = .excluded then .excluded else before.applyDelete (q.deleteExtent d block)

theorem activeDeletes_of_none (h : q.deletes? = none) : q.activeDeletes = [] := by
  rw [activeDeletes, h]

theorem acts_deleteBlock (q : PruneRequest) (d : DeleteCondition) :
    Acts (q.deleteBlock d) fun block before => q.deleted block before d := by
  intro s block hblock
  rw [deleteBlock]
  by_cases hexcluded : s.blocks.get block = .excluded
  · refine ⟨by simp [hexcluded], fun other => ?_⟩
    by_cases hsame : other = block
    · subst hsame
      simp [deleted, hexcluded]
    · simp [hexcluded, hsame]
  · simp only [hexcluded, if_false]
    refine ⟨BlockMap.size_set _ _ _, fun other => ?_⟩
    rw [BlockMap.get_set _ hblock, deleted, if_neg hexcluded]

/-- All deletes go over the range one after the other. -/
theorem get_deletePhase (first : Nat) {last : Nat} {s : PruneState}
    (hlast : last < s.blocks.dispositions.size) :
    (q.deletePhase first last s).blocks.dispositions.size = s.blocks.dispositions.size
      ∧ ∀ b, (q.deletePhase first last s).blocks.get b
          = if first ≤ b ∧ b ≤ last then q.activeDeletes.foldl (q.deleted b) (s.blocks.get b)
            else s.blocks.get b := by
  rw [deletePhase]
  generalize q.activeDeletes = ds
  induction ds generalizing s with
  | nil => exact ⟨rfl, fun b => by simp⟩
  | cons d ds ih =>
    obtain ⟨hsize, hget⟩ := get_foldl_range (acts_deleteBlock q d) first hlast
    obtain ⟨hsize', hget'⟩ := ih (s := (range first last).foldl (q.deleteBlock d) s) (by rwa [hsize])
    refine ⟨hsize'.trans hsize, fun b => ?_⟩
    rw [List.foldl_cons, hget', hget, List.foldl_cons]
    by_cases hb : first ≤ b ∧ b ≤ last
    · simp only [if_pos hb]
    · simp only [if_neg hb]

/-! ### Tests -/

/-- What one test does to a block. -/
def filtered (block : Nat) (before : Disposition) (test : Nat → Bool) : Disposition :=
  if test block then before else .excluded

theorem acts_filterBlock (q : PruneRequest) (test : Nat → Bool) :
    Acts (q.filterBlock test) fun block before => filtered block before test := by
  intro s block hblock
  rw [filterBlock]
  by_cases hkept : (decide (s.blocks.get block = .excluded) || test block) = true
  · rw [if_pos hkept]
    refine ⟨rfl, fun other => ?_⟩
    by_cases hsame : other = block
    · subst hsame
      rw [Bool.or_eq_true, decide_eq_true_iff] at hkept
      rw [if_pos rfl]
      show s.blocks.get other = if test other then s.blocks.get other else .excluded
      split
      · rfl
      · exact hkept.resolve_right ‹_›
    · rw [if_neg hsame]
  · rw [if_neg hkept]
    refine ⟨BlockMap.size_set _ _ _, fun other => ?_⟩
    rw [Bool.or_eq_true, not_or] at hkept
    rw [BlockMap.get_set _ hblock]
    show _ = if other = block then (if test block then s.blocks.get block else .excluded) else _
    rw [if_neg hkept.2]

/-- All tests go over the range one after the other. -/
theorem get_filterPhase (tests : List (Nat → Bool)) (first : Nat) {last : Nat} {s : PruneState}
    (hlast : last < s.blocks.dispositions.size) :
    (q.filterPhase tests first last s).blocks.dispositions.size = s.blocks.dispositions.size
      ∧ ∀ b, (q.filterPhase tests first last s).blocks.get b
          = if (first ≤ b ∧ b ≤ last) ∧ ∃ test ∈ tests, test b = false then .excluded
            else s.blocks.get b := by
  rw [filterPhase]
  induction tests generalizing s with
  | nil => exact ⟨rfl, fun b => by simp⟩
  | cons test tests ih =>
    obtain ⟨hsize, hget⟩ := get_foldl_range (acts_filterBlock q test) first hlast
    obtain ⟨hsize', hget'⟩ := ih (s := (range first last).foldl (q.filterBlock test) s) (by rwa [hsize])
    refine ⟨hsize'.trans hsize, fun b => ?_⟩
    rw [List.foldl_cons, hget', hget]
    by_cases hb : first ≤ b ∧ b ≤ last
    · by_cases htest : test b = true
      · simp [hb, htest, filtered]
      · simp [hb, htest, filtered]
    · simp [hb]

/-! ### All phases -/

/-- What the phases make of a range of existing blocks. -/
def pruned (q : PruneRequest) (first last : Nat) : PruneState :=
  let s := q.deletePhase first last ⟨.make q.indexes.blockCount first last, 0, 0⟩
  match q.conditions? with
  | none => s
  | some c => if c.isEmpty then s else q.conditionPhases c first last s

theorem pruned_of_none (h : q.conditions? = none) (first last : Nat) :
    q.pruned first last
      = q.deletePhase first last ⟨.make q.indexes.blockCount first last, 0, 0⟩ := by
  simp only [pruned, h]

theorem prune_eq {first last : Nat} (hrange : first ≤ last) (hlast : last < q.indexes.blockCount) :
    q.prune first last = .ok (q.pruned first last) := by
  have hvalid : (decide (last < first) || decide (q.indexes.blockCount ≤ last)) = false := by
    simp only [Bool.or_eq_false_iff, decide_eq_false_iff_not]
    omega
  simp only [prune, pruned, hvalid, Bool.false_eq_true, if_false]
  cases q.conditions? with
  | none => rfl
  | some c =>
    dsimp only
    split <;> rfl

/-- After the deletes every block outside the range is excluded. -/
theorem get_deletePhase_make (first : Nat) {last : Nat} (hlast : last < q.indexes.blockCount) :
    (q.deletePhase first last ⟨.make q.indexes.blockCount first last, 0, 0⟩).blocks.dispositions.size
        = q.indexes.blockCount
      ∧ ∀ b, (q.deletePhase first last ⟨.make q.indexes.blockCount first last, 0, 0⟩).blocks.get b
          = if first ≤ b ∧ b ≤ last then q.activeDeletes.foldl (q.deleted b) .included
            else .excluded := by
  have hsize := BlockMap.size_make q.indexes.blockCount first last
  have hlast' : last < (BlockMap.make q.indexes.blockCount first last).dispositions.size := by
    rwa [hsize]
  obtain ⟨hsize', hget⟩ := get_deletePhase (q := q) first
    (s := ⟨.make q.indexes.blockCount first last, 0, 0⟩) hlast'
  refine ⟨hsize'.trans hsize, fun b => ?_⟩
  rw [hget, BlockMap.get_make]
  by_cases hb : first ≤ b ∧ b ≤ last
  · rw [if_pos hb, if_pos hb, if_pos (by omega)]
  · rw [if_neg hb, if_neg hb, if_neg (by omega)]

/-- The tests of the conditions on the zone maps that are at hand. -/
def zoneTests (q : PruneRequest) (c : Conditions) : List (Nat → Bool) :=
  c.entries.filterMap fun e => q.zoneTest? e.1 e.2

/-- The tests of the conditions on the bloom filters that are at hand. -/
def bloomTests (q : PruneRequest) (c : Conditions) : List (Nat → Bool) :=
  q.bloomColumns.filterMap (q.bloomTest? c)

/-- What deletes and zone maps make of a range, before any bloom filter is asked. -/
def zoned (q : PruneRequest) (c : Conditions) (first last : Nat) : PruneState :=
  q.filterPhase (q.zoneTests c) first last
    (q.deletePhase first last ⟨.make q.indexes.blockCount first last, 0, 0⟩)

theorem get_zoned (c : Conditions) (first : Nat) {last : Nat} (hlast : last < q.indexes.blockCount) :
    (q.zoned c first last).blocks.dispositions.size = q.indexes.blockCount
      ∧ ∀ b, (q.zoned c first last).blocks.get b
          = if (first ≤ b ∧ b ≤ last) ∧ ∀ test ∈ q.zoneTests c, test b = true then
              q.activeDeletes.foldl (q.deleted b) .included
            else .excluded := by
  obtain ⟨hsize, hget⟩ := get_deletePhase_make (q := q) first hlast
  rw [← hsize] at hlast
  obtain ⟨hsize', hget'⟩ := get_filterPhase (q := q) (q.zoneTests c) first hlast
  refine ⟨hsize'.trans hsize, fun b => ?_⟩
  rw [zoned, hget', hget]
  by_cases hb : first ≤ b ∧ b ≤ last
  · by_cases htests : ∃ test ∈ q.zoneTests c, test b = false
    · rw [if_pos ⟨hb, htests⟩, if_neg]
      rintro ⟨-, hall⟩
      obtain ⟨test, htest, hfalse⟩ := htests
      rw [hall test htest] at hfalse
      cases hfalse
    · rw [if_neg fun h => htests h.2, if_pos hb, if_pos]
      refine ⟨hb, fun test htest => ?_⟩
      by_contra hfalse
      exact htests ⟨test, htest, Bool.not_eq_true _ ▸ hfalse⟩
  · rw [if_neg fun h => hb h.1, if_neg hb, if_neg fun h => hb h.1]

/-- Bloom filters are asked, or not, after everything else. -/
theorem pruned_cases {c : Conditions} (hconditions : q.conditions? = some c) (first last : Nat) :
    q.pruned first last = q.zoned c first last
      ∨ q.pruned first last = q.filterPhase (q.bloomTests c) first last (q.zoned c first last) := by
  simp only [pruned, hconditions]
  split
  · rename_i hempty
    refine .inl ?_
    have hnone : c.entries = [] := by simpa [Conditions.isEmpty] using hempty
    simp only [zoned, zoneTests, hnone, List.filterMap_nil, filterPhase, List.foldl_nil]
  · rw [conditionPhases]
    split
    · exact .inl rfl
    · exact .inr rfl

/-- What becomes of a block was decided before the bloom filters, or by one of them. -/
theorem get_pruned {c : Conditions} (hconditions : q.conditions? = some c) (first : Nat) {last : Nat}
    (hlast : last < q.indexes.blockCount) (b : Nat) :
    (q.pruned first last).blocks.get b = (q.zoned c first last).blocks.get b
      ∨ (first ≤ b ∧ b ≤ last) ∧ (∃ test ∈ q.bloomTests c, test b = false)
        ∧ (q.pruned first last).blocks.get b = .excluded := by
  obtain ⟨hsize, -⟩ := get_zoned (q := q) c first hlast
  rcases pruned_cases hconditions first last with hpruned | hpruned
  · exact .inl (by rw [hpruned])
  · rw [← hsize] at hlast
    obtain ⟨-, hget⟩ := get_filterPhase (q := q) (q.bloomTests c) first hlast
    rw [hpruned, hget]
    by_cases htest : (first ≤ b ∧ b ≤ last) ∧ ∃ test ∈ q.bloomTests c, test b = false
    · rw [if_pos htest]
      exact .inr ⟨htest.1, htest.2, rfl⟩
    · rw [if_neg htest]
      exact .inl rfl

end PruneRequest

end SegmentStore
