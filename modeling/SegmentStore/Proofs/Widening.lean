import Mathlib.Data.List.Perm.Subperm
import SegmentStore.Proofs.Aggregated

/-!
# Wider ranges and lower thresholds

Whether bloom filters are asked for a block hangs on how many blocks of the range are left, and so on its neighbours. All
else that becomes of a block is its own affair.

* `PruneRequest.withoutBlooms` is what deletes and zone maps make of a block, in whichever range, and
  `PruneRequest.verdict_eq` what the bloom filters add to it.
* `PruneRequest.leftBefore_mono` says that more blocks are left in a wider range, and `PruneRequest.BloomExcludes.widen`
  that a bloom filter which is asked for a block is asked in a wider range as well.
* `PruneRequest.prune_widened` compares two runs: the wider one only excludes more.
-/

namespace SegmentStore

theorem Disposition.rank_le_excluded (d : Disposition) : d.rank ≤ Disposition.excluded.rank := by
  cases d <;> decide

namespace PruneRequest

variable {q : PruneRequest} {first last first' last' n n' b : Nat}

/-- What deletes and zone maps make of a block. -/
def withoutBlooms (q : PruneRequest) (b : Nat) : Disposition :=
  if q.Wiped b ∨ q.ZoneRejects b then .excluded
  else if q.Touched b then .needsRowFilter
  else .included

/-- Enough blocks of the range are left for the bloom filters to be asked, and one of them rules the block out. -/
def BloomExcludes (q : PruneRequest) (first last b : Nat) : Prop :=
  q.minFilterBlocks ≤ q.leftBefore first last ∧ q.BloomRejects b

instance (q : PruneRequest) (first last b : Nat) : Decidable (q.BloomExcludes first last b) :=
  inferInstanceAs (Decidable (_ ∧ _))

/-- The range counts for the bloom filters alone. -/
theorem verdict_eq (hb : first ≤ b ∧ b ≤ last) :
    q.verdict first last b = if q.BloomExcludes first last b then .excluded else q.withoutBlooms b := by
  rw [verdict, withoutBlooms]
  by_cases hbloom : q.BloomExcludes first last b
  · rw [if_pos (.inr (.inr (.inr hbloom))), if_pos hbloom]
  · have hquiet : ¬(q.minFilterBlocks ≤ q.leftBefore first last ∧ q.BloomRejects b) := hbloom
    rw [if_neg hbloom]
    simp only [hb, hquiet, and_self, not_true_eq_false, false_or, or_false]

/-- A wider range has no fewer blocks left. -/
theorem leftBefore_mono (q : PruneRequest) (hfirst : first' ≤ first) (hlast : last ≤ last') :
    q.leftBefore first last ≤ q.leftBefore first' last' := by
  have hnodup := (nodup_range first last).filter fun b => ¬(q.Wiped b ∨ q.ZoneRejects b)
  refine (List.subperm_of_subset hnodup fun b hb => ?_).length_le
  rw [List.mem_filter, mem_range] at hb ⊢
  exact ⟨⟨hfirst.trans hb.1.1, hb.1.2.trans hlast⟩, hb.2⟩

/-- A bloom filter that excludes a block does so in a wider range, and with a lower threshold. -/
theorem BloomExcludes.widen (h : (q.enough n).BloomExcludes first last b) (hfirst : first' ≤ first)
    (hlast : last ≤ last') (hn : n' ≤ n) : (q.enough n').BloomExcludes first' last' b := by
  obtain ⟨henough, hrejects⟩ := h
  exact ⟨hn.trans (henough.trans (q.leftBefore_mono hfirst hlast)), hrejects⟩

/-- Bloom filters rule nothing out where none of their columns has a condition. -/
theorem not_bloomRejects (h : ∀ cid ∈ q.bloomColumns, q.asked.get? cid = none) : ¬q.BloomRejects b := by
  rintro ⟨cid, hcid, -, cond, hcond, -⟩
  rw [h cid hcid] at hcond
  cases hcond

/-- In a wider range, and with a lower threshold, a block has the same verdict or is excluded by a bloom filter. -/
theorem verdict_widened (hfirst : first' ≤ first) (hlast : last ≤ last') (hn : n' ≤ n) (hb : first ≤ b ∧ b ≤ last) :
    (q.enough n').verdict first' last' b = (q.enough n).verdict first last b
      ∨ (q.enough n').verdict first' last' b = .excluded ∧ q.BloomRejects b := by
  rw [verdict_eq (q := q.enough n') ⟨hfirst.trans hb.1, hb.2.trans hlast⟩, verdict_eq (q := q.enough n) hb]
  by_cases hwide : (q.enough n').BloomExcludes first' last' b
  · rw [if_pos hwide]
    exact .inr ⟨rfl, hwide.2⟩
  · -- what is not asked in the wider range is not asked in the narrower one
    have hnarrow : ¬(q.enough n).BloomExcludes first last b := fun h => hwide (h.widen hfirst hlast hn)
    rw [if_neg hwide, if_neg hnarrow]
    exact .inl rfl

/-- Blocks that are pruned as part of a wider range, and with a threshold that is no higher, are treated no milder. They
are treated otherwise only where they are excluded then and were not before, and never if no column with a bloom filter
has a condition. -/
theorem prune_widened (q : PruneRequest) (hfirst : first' ≤ first) (hrange : first ≤ last) (hlast : last ≤ last')
    (hcount : last' < q.indexes.blockCount) (hn : n' ≤ n) :
    ∃ s s', (q.enough n).prune first last = .ok s ∧ (q.enough n').prune first' last' = .ok s'
      ∧ ∀ b, first ≤ b → b ≤ last →
        (s.blocks.get b).rank ≤ (s'.blocks.get b).rank
        ∧ (s'.blocks.get b ≠ s.blocks.get b → s'.blocks.get b = .excluded ∧ s.blocks.get b ≠ .excluded)
        ∧ ((∀ cid ∈ q.bloomColumns, q.asked.get? cid = none) → s'.blocks.get b = s.blocks.get b) := by
  have hnarrow : last < (q.enough n).indexes.blockCount := Nat.lt_of_le_of_lt hlast hcount
  have hrange' : first' ≤ last' := hfirst.trans (hrange.trans hlast)
  refine ⟨_, _, prune_eq (q := q.enough n) hrange hnarrow, prune_eq (q := q.enough n') hrange' hcount, ?_⟩
  intro b hb hb'
  rw [get_pruned_eq (q := q.enough n) hrange hnarrow, get_pruned_eq (q := q.enough n') hrange' hcount]
  rcases verdict_widened (q := q) hfirst hlast hn ⟨hb, hb'⟩ with hsame | ⟨hexcluded, hrejects⟩
  · rw [hsame]
    exact ⟨Nat.le_refl _, fun hne => absurd rfl hne, fun _ => rfl⟩
  · rw [hexcluded]
    refine ⟨Disposition.rank_le_excluded _, fun hne => ⟨rfl, hne.symm⟩, fun hnone => ?_⟩
    exact absurd hrejects (not_bloomRejects hnone)

/-- Four blocks with a key each, whose bloom filters are empty. A single key is asked for that the bounds of each block
leave open. -/
def fourFilters : PruneRequest where
  schema := ⟨[⟨10, "key", .int32, true, false, .none, none⟩]⟩
  mapping := ⟨[10], [⟨10, .int32, false, .plain⟩], [10], [10]⟩
  indexes := ⟨[(10, ⟨Array.replicate 4 ⟨[], ⟨.int32 1, .int32 9, false⟩⟩, .owned []⟩)],
    [(10, ⟨Array.replicate 4 (.empty 8 1), .owned []⟩)], 4⟩
  conditions? := some (.ofList [(0, .compare .eq (.int32 5))])
  deletes? := none
  deleteStatus := .unknown
  bloomColumns := [0]
  version := 0
  rowCount := 4
  rowsPerBlock := 1
  minFilterBlocks := 10

/-- Two blocks are too few to ask the bloom filters of them, four are enough. -/
theorem prune_widened_fourFilters :
    ∃ s s', (fourFilters.enough 3).prune 1 2 = .ok s ∧ (fourFilters.enough 3).prune 0 3 = .ok s'
      ∧ s.blocks.get 1 = .included ∧ s'.blocks.get 1 = .excluded
      ∧ (s.blocks.get 1).rank ≤ (s'.blocks.get 1).rank := by
  obtain ⟨s, s', hs, hs', hwider⟩ := prune_widened fourFilters (show 0 ≤ 1 by decide) (show 1 ≤ 2 by decide)
    (show 2 ≤ 3 by decide) (by decide) (Nat.le_refl 3)
  have hnarrow : ((fourFilters.enough 3).prune 1 2).toOption.map (·.blocks.get 1) = some .included := by
    decide +kernel
  have hwide : ((fourFilters.enough 3).prune 0 3).toOption.map (·.blocks.get 1) = some .excluded := by
    decide +kernel
  rw [hs] at hnarrow
  rw [hs'] at hwide
  exact ⟨s, s', hs, hs', Option.some.inj hnarrow, Option.some.inj hwide, (hwider 1 (by decide) (by decide)).1⟩

end PruneRequest

end SegmentStore
