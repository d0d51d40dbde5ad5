import Mathlib.Algebra.GroupWithZero.Nat
import SegmentStore.Proofs.Phases

/-!
# The books of pruning

Pruning counts by hand: a number of blocks that are left goes down with every block that is excluded, and the
rows of that block are added to one of two counters.

* `BlockMap.charge` is the sum over the excluded blocks of a list, `BlockMap.kept` are the blocks that are not
  excluded.
* `PruneRequest.Balanced` says that the counters agree with the dispositions. `PruneRequest.Balanced.set` is
  the one entry there is, `deleteBlock_balanced` and `filterBlock_balanced` are the two steps that make it.
* `PruneRequest.deletePhase_balanced` and `PruneRequest.pruned_balanced` say so of the deletes and of the whole.
-/

namespace SegmentStore

namespace BlockMap

variable {m : BlockMap} {blocks : List Nat} {block : Nat} {w : Nat → Nat}

/-! ### Sums over excluded blocks -/

/-- What the excluded blocks of a list weigh together. -/
def charge (m : BlockMap) (w : Nat → Nat) (blocks : List Nat) : Nat :=
  (blocks.map fun b => if m.get b = .excluded then w b else 0).sum

/-- Nothing is charged where nothing is excluded. -/
theorem charge_eq_zero (h : ∀ b ∈ blocks, m.get b ≠ .excluded) : m.charge w blocks = 0 := by
  induction blocks with
  | nil => rfl
  | cons a blocks ih =>
    have hrest := ih fun b hb => h b (List.mem_cons_of_mem a hb)
    have ha := h a List.mem_cons_self
    simp only [charge, List.map_cons, List.sum_cons, if_neg ha] at hrest ⊢
    omega

/-- The charge reads the dispositions of the listed blocks only. -/
theorem charge_congr {m' : BlockMap} (h : ∀ b ∈ blocks, m'.get b = m.get b) :
    m'.charge w blocks = m.charge w blocks := by
  rw [charge, charge]
  refine congrArg List.sum (List.map_congr_left fun b hb => ?_)
  rw [h b hb]

/-- To exclude one more block adds its weight. -/
theorem charge_set (hnodup : blocks.Nodup) (hmem : block ∈ blocks)
    (hblock : block < m.dispositions.size) (hbefore : m.get block ≠ .excluded) (d : Disposition) :
    (m.set block d).charge w blocks
      = m.charge w blocks + if d = .excluded then w block else 0 := by
  induction blocks with
  | nil => cases hmem
  | cons a blocks ih =>
    obtain ⟨ha, hnodup⟩ := List.nodup_cons.mp hnodup
    by_cases hsame : a = block
    · -- the entry is made here, and the rest of the list does not have the block again
      subst hsame
      have hrest : (m.set a d).charge w blocks = m.charge w blocks := by
        refine charge_congr fun b hb => ?_
        rw [get_set m hblock, if_neg]
        rintro rfl
        exact ha hb
      simp only [charge, List.map_cons, List.sum_cons, get_set m hblock, if_true, if_neg hbefore] at hrest ⊢
      omega
    · have hin : block ∈ blocks := (List.mem_cons.mp hmem).resolve_left fun h => hsame h.symm
      have hrest := ih hnodup hin
      simp only [charge, List.map_cons, List.sum_cons] at hrest ⊢
      rw [get_set m hblock, if_neg hsame]
      omega

/-- Every block of a list is excluded or not. -/
theorem charge_add_length (m : BlockMap) (blocks : List Nat) :
    m.charge (fun _ => 1) blocks + (blocks.filter fun b => m.get b ≠ .excluded).length
      = blocks.length := by
  induction blocks with
  | nil => rfl
  | cons a blocks ih =>
    by_cases ha : m.get a = .excluded
    · simp only [charge, List.map_cons, List.sum_cons, if_pos ha, List.length_cons] at ih ⊢
      rw [List.filter_cons_of_neg (by simpa using ha)]
      omega
    · simp only [charge, List.map_cons, List.sum_cons, if_neg ha, List.length_cons] at ih ⊢
      rw [List.filter_cons_of_pos (by simpa using ha), List.length_cons]
      omega

/-! ### The blocks that are left -/

/-- What holds only within a range is found by going through the range. -/
theorem filter_range_eq {holds : Nat → Bool} {count first last : Nat} (hlast : last < count)
    (hout : ∀ b, ¬(first ≤ b ∧ b ≤ last) → holds b = false) :
    (List.range count).filter holds = (PruneRequest.range first last).filter holds := by
  have hnone : ∀ start n, (∀ b, start ≤ b → b < start + n → ¬(first ≤ b ∧ b ≤ last)) →
      (List.range' start n).filter holds = [] := by
    intro start n houtside
    rw [List.filter_eq_nil_iff]
    intro b hb
    rw [List.mem_range'_1] at hb
    rw [hout b (houtside b hb.1 hb.2)]
    decide
  by_cases hrange : first ≤ last
  · have hsplit : List.range count
        = List.range' 0 first ++ (PruneRequest.range first last
          ++ List.range' (last + 1) (count - (last + 1))) := by
      rw [List.range_eq_range', PruneRequest.range]
      have hmid := @List.range'_append_1 first (last + 1 - first) (count - (last + 1))
      rw [show first + (last + 1 - first) = last + 1 from by omega] at hmid
      have hall := @List.range'_append_1 0 first (last + 1 - first + (count - (last + 1)))
      rw [Nat.zero_add] at hall
      rw [hmid, hall]
      congr 1
      omega
    rw [hsplit, List.filter_append, List.filter_append, hnone 0 first (by omega),
      hnone (last + 1) (count - (last + 1)) (by omega), List.nil_append, List.append_nil]
  · have hempty : PruneRequest.range first last = [] := by
      rw [PruneRequest.range, show last + 1 - first = 0 from by omega, List.range'_zero]
    rw [hempty, List.filter_nil, List.range_eq_range', hnone 0 count (by omega)]

/-- The blocks that are not excluded, in ascending order. -/
def kept (m : BlockMap) : List Nat :=
  (List.range m.dispositions.size).filter fun b => m.get b ≠ .excluded

/-- Where only blocks of a range are left, they are found by going through the range. -/
theorem kept_eq {first last : Nat} (hlast : last < m.dispositions.size)
    (hout : ∀ b, ¬(first ≤ b ∧ b ≤ last) → m.get b = .excluded) :
    m.kept = (PruneRequest.range first last).filter fun b => m.get b ≠ .excluded :=
  filter_range_eq hlast fun b hb => by simpa using hout b hb

/-- Maps of one size with equal dispositions and counts are equal. -/
theorem ext_get {m' : BlockMap} (hsize : m.dispositions.size = m'.dispositions.size)
    (hget : ∀ b, m.get b = m'.get b) (hremaining : m.remaining = m'.remaining) : m = m' := by
  obtain ⟨ds, n⟩ := m
  obtain ⟨ds', n'⟩ := m'
  obtain rfl : n = n' := hremaining
  have hds : ds = ds' := by
    refine Array.ext hsize fun i hi hi' => ?_
    have h := hget i
    simpa only [get, Array.getElem?_eq_getElem hi, Array.getElem?_eq_getElem hi', Option.getD_some] using h
  rw [hds]

end BlockMap

namespace PruneRequest

variable {q : PruneRequest} {blocks : List Nat} {s : PruneState} {b : Nat}

/-! ### One entry -/

/-- The counters agree with the dispositions of some blocks: so many are left, and the rows of the others were
counted. -/
structure Balanced (q : PruneRequest) (blocks : List Nat) (s : PruneState) : Prop where
  counted : s.blocks.remaining + s.blocks.charge (fun _ => 1) blocks = blocks.length
  charged : s.deleted + s.ruledOut = s.blocks.charge q.blockRows blocks

/-- Setting a disposition keeps the books, if the rows of a block that becomes excluded are counted once. -/
theorem Balanced.set (h : q.Balanced blocks s) (hnodup : blocks.Nodup) (hmem : b ∈ blocks)
    (hb : b < s.blocks.dispositions.size) (hbefore : s.blocks.get b ≠ .excluded) {d : Disposition}
    {deleted ruledOut : Nat}
    (hrows : deleted + ruledOut
      = s.deleted + s.ruledOut + if d = .excluded then q.blockRows b else 0) :
    q.Balanced blocks ⟨s.blocks.set b d, deleted, ruledOut⟩ := by
  have hone : (s.blocks.set b d).charge (fun _ => 1) blocks = _ :=
    BlockMap.charge_set hnodup hmem hb hbefore d
  have hall : (s.blocks.set b d).charge q.blockRows blocks = _ :=
    BlockMap.charge_set hnodup hmem hb hbefore d
  have hcounted := h.counted
  have hle := BlockMap.charge_add_length (s.blocks.set b d) blocks
  refine ⟨?_, ?_⟩
  · show (s.blocks.set b d).remaining + (s.blocks.set b d).charge (fun _ => 1) blocks = blocks.length
    by_cases hd : d = .excluded
    · -- a block is excluded that was not, so one was left
      rw [if_pos hd] at hone
      have hremaining : (s.blocks.set b d).remaining = s.blocks.remaining - 1 := by
        show (if d = .excluded ∧ s.blocks.get b ≠ .excluded then s.blocks.remaining - 1
          else s.blocks.remaining) = _
        rw [if_pos ⟨hd, hbefore⟩]
      omega
    · rw [if_neg hd] at hone
      have hremaining : (s.blocks.set b d).remaining = s.blocks.remaining := by
        show (if d = .excluded ∧ s.blocks.get b ≠ .excluded then s.blocks.remaining - 1
          else s.blocks.remaining) = _
        rw [if_neg fun hboth => hd hboth.1]
      omega
  · show deleted + ruledOut = (s.blocks.set b d).charge q.blockRows blocks
    rw [hall, hrows, h.charged]

/-- A delete counts the rows of a block that it excludes, as deleted. -/
theorem deleteBlock_balanced (h : q.Balanced blocks s) (hnodup : blocks.Nodup) (hmem : b ∈ blocks)
    (hb : b < s.blocks.dispositions.size) (d : DeleteCondition) :
    q.Balanced blocks (q.deleteBlock d s b) ∧ (q.deleteBlock d s b).ruledOut = s.ruledOut := by
  rw [deleteBlock]
  by_cases hbefore : s.blocks.get b = .excluded
  · rw [if_pos hbefore]
    exact ⟨h, rfl⟩
  · rw [if_neg hbefore]
    refine ⟨h.set hnodup hmem hb hbefore ?_, rfl⟩
    omega

/-- A test counts the rows of a block that it excludes, as ruled out. -/
theorem filterBlock_balanced (h : q.Balanced blocks s) (hnodup : blocks.Nodup) (hmem : b ∈ blocks)
    (hb : b < s.blocks.dispositions.size) (test : Nat → Bool) :
    q.Balanced blocks (q.filterBlock test s b) ∧ (q.filterBlock test s b).deleted = s.deleted := by
  rw [filterBlock]
  by_cases hkept : (decide (s.blocks.get b = .excluded) || test b) = true
  · rw [if_pos hkept]
    exact ⟨h, rfl⟩
  · rw [if_neg hkept]
    rw [Bool.or_eq_true, not_or, decide_eq_true_iff] at hkept
    refine ⟨h.set hnodup hmem hb hkept.1 ?_, rfl⟩
    rw [if_pos rfl]
    omega

/-! ### Passes -/

/-- Deletes that go over the blocks one after the other keep the books, and rule nothing out. -/
theorem foldl_deleteBlock_balanced (h : q.Balanced blocks s) (hnodup : blocks.Nodup)
    (hblocks : ∀ b ∈ blocks, b < s.blocks.dispositions.size) (ds : List DeleteCondition) :
    q.Balanced blocks (ds.foldl (fun s d => blocks.foldl (q.deleteBlock d) s) s)
      ∧ (ds.foldl (fun s d => blocks.foldl (q.deleteBlock d) s) s).ruledOut = s.ruledOut := by
  let Kept (t : PruneState) : Prop :=
    t.blocks.dispositions.size = s.blocks.dispositions.size ∧ q.Balanced blocks t
      ∧ t.ruledOut = s.ruledOut
  have hstart : Kept s := ⟨rfl, h, rfl⟩
  have hend : Kept (ds.foldl (fun s d => blocks.foldl (q.deleteBlock d) s) s) := by
    refine List.foldlRecOn ds _ hstart fun t ht d _ => ?_
    refine List.foldlRecOn blocks _ ht fun t ht b hb => ?_
    have hlt : b < t.blocks.dispositions.size := ht.1 ▸ hblocks b hb
    obtain ⟨hbalanced, hruledOut⟩ := deleteBlock_balanced ht.2.1 hnodup hb hlt d
    exact ⟨((acts_deleteBlock q d) t b hlt).1.trans ht.1, hbalanced, hruledOut.trans ht.2.2⟩
  exact hend.2

/-- Tests that go over the blocks one after the other keep the books, and delete nothing. -/
theorem foldl_filterBlock_balanced (h : q.Balanced blocks s) (hnodup : blocks.Nodup)
    (hblocks : ∀ b ∈ blocks, b < s.blocks.dispositions.size) (tests : List (Nat → Bool)) :
    q.Balanced blocks (tests.foldl (fun s test => blocks.foldl (q.filterBlock test) s) s)
      ∧ (tests.foldl (fun s test => blocks.foldl (q.filterBlock test) s) s).deleted = s.deleted := by
  let Kept (t : PruneState) : Prop :=
    t.blocks.dispositions.size = s.blocks.dispositions.size ∧ q.Balanced blocks t
      ∧ t.deleted = s.deleted
  have hstart : Kept s := ⟨rfl, h, rfl⟩
  have hend : Kept (tests.foldl (fun s test => blocks.foldl (q.filterBlock test) s) s) := by
    refine List.foldlRecOn tests _ hstart fun t ht test _ => ?_
    refine List.foldlRecOn blocks _ ht fun t ht b hb => ?_
    have hlt : b < t.blocks.dispositions.size := ht.1 ▸ hblocks b hb
    obtain ⟨hbalanced, hdeleted⟩ := filterBlock_balanced ht.2.1 hnodup hb hlt test
    exact ⟨((acts_filterBlock q test) t b hlt).1.trans ht.1, hbalanced, hdeleted.trans ht.2.2⟩
  exact hend.2

/-! ### The phases -/

/-- What pruning starts from. -/
def started (q : PruneRequest) (first last : Nat) : PruneState :=
  ⟨.make q.indexes.blockCount first last, 0, 0⟩

variable {first last : Nat}

theorem started_balanced (hrange : first ≤ last) (hlast : last < q.indexes.blockCount) :
    q.Balanced (range first last) (q.started first last) := by
  have hincluded : ∀ b ∈ range first last,
      (BlockMap.make q.indexes.blockCount first last).get b ≠ .excluded := by
    intro b hb
    rw [mem_range] at hb
    rw [BlockMap.get_make, if_pos (by omega)]
    decide
  refine ⟨?_, ?_⟩
  · show last - first + 1 + (BlockMap.make _ first last).charge _ _ = _
    rw [BlockMap.charge_eq_zero hincluded, range, List.length_range']
    omega
  · show 0 = (BlockMap.make _ first last).charge _ _
    rw [BlockMap.charge_eq_zero hincluded]

/-- The books after the deletes. -/
theorem deletePhase_balanced (hrange : first ≤ last) (hlast : last < q.indexes.blockCount) :
    q.Balanced (range first last) (q.deletePhase first last (q.started first last))
      ∧ (q.deletePhase first last (q.started first last)).ruledOut = 0 := by
  refine foldl_deleteBlock_balanced (started_balanced hrange hlast) (nodup_range first last) ?_ _
  intro b hb
  rw [mem_range] at hb
  show b < (BlockMap.make _ first last).dispositions.size
  rw [BlockMap.size_make]
  omega

/-- The books after some tests. -/
theorem filterPhase_balanced (h : q.Balanced (range first last) s)
    (hlast : last < s.blocks.dispositions.size) (tests : List (Nat → Bool)) :
    q.Balanced (range first last) (q.filterPhase tests first last s)
      ∧ (q.filterPhase tests first last s).deleted = s.deleted := by
  refine foldl_filterBlock_balanced h (nodup_range first last) ?_ tests
  intro b hb
  rw [mem_range] at hb
  omega

/-- The books when all is done: what the deletes have counted stays, and the rest is what was ruled out. -/
theorem pruned_balanced (hrange : first ≤ last) (hlast : last < q.indexes.blockCount) :
    q.Balanced (range first last) (q.pruned first last)
      ∧ (q.pruned first last).deleted = (q.deletePhase first last (q.started first last)).deleted := by
  obtain ⟨hdeletes, -⟩ := deletePhase_balanced (q := q) hrange hlast
  cases hconditions : q.conditions? with
  | none =>
    rw [pruned_of_none hconditions]
    exact ⟨hdeletes, rfl⟩
  | some c =>
    have hsize := (get_deletePhase_make (q := q) first hlast).1
    obtain ⟨hzoned, hdeleted⟩ := filterPhase_balanced hdeletes (hsize.symm ▸ hlast) (q.zoneTests c)
    rcases pruned_cases hconditions first last with hpruned | hpruned
    · rw [hpruned]
      exact ⟨hzoned, hdeleted⟩
    · obtain ⟨hbloomed, hdeleted'⟩ := filterPhase_balanced hzoned
        ((get_zoned (q := q) c first hlast).1.symm ▸ hlast) (q.bloomTests c)
      rw [hpruned]
      exact ⟨hbloomed, hdeleted'.trans hdeleted⟩

/-- The rows that the deletes have counted are those of the blocks that they exclude. -/
theorem deletePhase_deleted (hrange : first ≤ last) (hlast : last < q.indexes.blockCount) :
    (q.deletePhase first last (q.started first last)).deleted
      = (q.deletePhase first last (q.started first last)).blocks.charge q.blockRows
          (range first last) := by
  obtain ⟨hbalanced, hnone⟩ := deletePhase_balanced (q := q) hrange hlast
  have hcharged := hbalanced.charged
  omega

/-- Blocks outside the range are not left. -/
theorem get_pruned_outside (hlast : last < q.indexes.blockCount) (hb : ¬(first ≤ b ∧ b ≤ last)) :
    (q.pruned first last).blocks.get b = .excluded := by
  cases hconditions : q.conditions? with
  | none =>
    rw [pruned_of_none hconditions, (get_deletePhase_make first hlast).2, if_neg hb]
  | some c =>
    rcases get_pruned hconditions first hlast b with hget | ⟨hin, -⟩
    · rw [hget, (get_zoned c first hlast).2, if_neg fun h => hb h.1]
    · exact absurd hin hb

theorem size_pruned (hlast : last < q.indexes.blockCount) :
    (q.pruned first last).blocks.dispositions.size = q.indexes.blockCount := by
  cases hconditions : q.conditions? with
  | none => rw [pruned_of_none hconditions, (get_deletePhase_make first hlast).1]
  | some c =>
    have hsize := (get_zoned (q := q) c first hlast).1
    rcases pruned_cases hconditions first last with hpruned | hpruned
    · rw [hpruned, hsize]
    · rw [hpruned, (get_filterPhase (q.bloomTests c) first (hsize.symm ▸ hlast)).1, hsize]

/-- The number of blocks that are left is kept by hand, and right. -/
theorem remaining_pruned (hrange : first ≤ last) (hlast : last < q.indexes.blockCount) :
    (q.pruned first last).blocks.remaining = (q.pruned first last).blocks.kept.length := by
  have hcounted := (pruned_balanced (q := q) hrange hlast).1.counted
  have hsplit := BlockMap.charge_add_length (q.pruned first last).blocks (range first last)
  rw [BlockMap.kept_eq (by rwa [size_pruned hlast]) fun b hb => get_pruned_outside hlast hb]
  omega

end PruneRequest

end SegmentStore
