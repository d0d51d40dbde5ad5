import Mathlib.Data.List.Forall2
import SegmentStore.Proofs.Ledger

/-!
# Lookups and subtractions that stay in bounds

The engine looks blocks up in maps and indexes without asking whether they are there, and subtracts rows without
asking whether there are so many. Here pruning is given once more with each lookup and each subtraction checked.

* `Overrun` lists what a check can find. `entryAt` and `minus` are the lookup and the subtraction that are checked.
* `IndexSet.Spans` says that the indexes have an entry for each block, and that no block starts after the last row.
* `PruneRequest.guardedPrune` is pruning with checks, and `PruneRequest.guardedPrune_eq` says that it never runs into
  one, over such indexes.
-/

namespace SegmentStore

/-! ### Checks -/

/-- What a check can find. -/
inductive Overrun
  /-- A map of the dispositions of `count` blocks is asked for another block. -/
  | disposition (block count : Nat)
  /-- A zone map of `count` entries is asked for another block. -/
  | zoneMap (block count : Nat)
  /-- A bloom filter stream of `count` entries is asked for another block. -/
  | bloom (block count : Nat)
  /-- The bloom filter of a block goes beyond the bytes of its stream. -/
  | bloomBytes (block length : Nat)
  /-- So many rows come before a block, of `total` rows in all. -/
  | rows (total before : Nat)
  /-- A block is excluded where none is left. -/
  | remaining
  deriving DecidableEq

/-- The result of a function whose lookups and subtractions are checked. -/
abbrev Guarded (α : Type) := Except Overrun α

/-- The entry of a block, if there is one. -/
def entryAt {α : Type} (fault : Nat → Nat → Overrun) (xs : Array α) (block : Nat) : Guarded α :=
  match xs[block]? with
  | some x => pure x
  | none => throw (fault block xs.size)

theorem entryAt_eq {α : Type} (fault : Nat → Nat → Overrun) {xs : Array α} {block : Nat}
    (h : block < xs.size) (d : α) : entryAt fault xs block = pure (xs[block]?.getD d) := by
  rw [entryAt, Array.getElem?_eq_getElem h]
  rfl

/-- The difference, if it is not below zero. -/
def minus (fault : Overrun) (a b : Nat) : Guarded Nat := if b ≤ a then pure (a - b) else throw fault

theorem minus_eq (fault : Overrun) {a b : Nat} (h : b ≤ a) : minus fault a b = pure (a - b) := if_pos h

/-- A loop whose turns pass their checks and keep what the next turn needs passes all checks. -/
theorem foldlM_eq_pure {ε σ α : Type} {step : σ → α → Except ε σ} {turn : σ → α → σ} {P : σ → Prop} {xs : List α}
    (hstep : ∀ s, P s → ∀ x ∈ xs, step s x = pure (turn s x) ∧ P (turn s x)) {s : σ} (hs : P s) :
    xs.foldlM step s = pure (xs.foldl turn s) ∧ P (xs.foldl turn s) := by
  induction xs generalizing s with
  | nil => exact ⟨rfl, hs⟩
  | cons x xs ih =>
    obtain ⟨hx, hkept⟩ := hstep s hs x List.mem_cons_self
    rw [List.foldlM_cons, hx, pure_bind]
    exact ih (fun s hs y hy => hstep s hs y (List.mem_cons_of_mem x hy)) hkept

/-! ### Dispositions -/

namespace BlockMap

def guardedGet (m : BlockMap) (block : Nat) : Guarded Disposition :=
  entryAt .disposition m.dispositions block

def guardedSet (m : BlockMap) (block : Nat) (d : Disposition) : Guarded BlockMap := do
  let before ← m.guardedGet block
  let remaining ← if d = .excluded ∧ before ≠ .excluded then minus .remaining m.remaining 1
    else pure m.remaining
  return ⟨m.dispositions.setIfInBounds block d, remaining⟩

variable {m : BlockMap} {block : Nat}

theorem guardedGet_eq (h : block < m.dispositions.size) : m.guardedGet block = pure (m.get block) :=
  entryAt_eq _ h _

example : (make 2 0 1).guardedGet 2 = throw (.disposition 2 2) := rfl

theorem guardedSet_eq (h : block < m.dispositions.size)
    (hleft : m.get block ≠ .excluded → 0 < m.remaining) (d : Disposition) :
    m.guardedSet block d = pure (m.set block d) := by
  rw [guardedSet, guardedGet_eq h, pure_bind, set]
  split
  · rename_i hexcludes
    rw [minus_eq _ (hleft hexcludes.2), pure_bind]
  · rw [pure_bind]

end BlockMap

/-! ### Indexes -/

/-- The filter of a block, cut out of the bytes of its stream. -/
def Loaded.filterAt (b : Loaded BloomFilter) (block : Nat) : Guarded BloomFilter := do
  let f ← entryAt .bloom b.entries block
  if (block + 1) * (f.bitCount / 8) ≤ b.buffer.bytes.length then return f
  else throw (.bloomBytes block b.buffer.bytes.length)

/-- The filter of each block lies within the bytes of the stream. -/
def Loaded.Sliced (b : Loaded BloomFilter) : Prop :=
  ∀ (block : Nat) (f : BloomFilter), b.entries[block]? = some f →
    (block + 1) * (f.bitCount / 8) ≤ b.buffer.bytes.length

theorem Loaded.filterAt_eq {b : Loaded BloomFilter} (h : b.Sliced) {block : Nat}
    (hblock : block < b.entries.size) : b.filterAt block = pure b.entries[block] := by
  rw [filterAt, entryAt_eq _ hblock b.entries[block], Array.getElem?_eq_getElem hblock, pure_bind]
  exact if_pos (h block _ (Array.getElem?_eq_getElem hblock))

/-- The indexes have an entry for each block, and no block starts after the last row. -/
structure IndexSet.Spans (set : IndexSet) (rowCount rowsPerBlock : Nat) : Prop where
  zoneMap : ∀ uid z, set.zoneMap? uid = some z → set.blockCount ≤ z.entries.size
  bloom : ∀ uid b, set.bloom? uid = some b → set.blockCount ≤ b.entries.size ∧ b.Sliced
  rows : ∀ block < set.blockCount, block * rowsPerBlock ≤ rowCount

/-! ### Pruning -/

namespace PruneRequest

def guardedBlockRows (q : PruneRequest) (block : Nat) : Guarded Nat :=
  if block + 1 < q.indexes.blockCount then pure q.rowsPerBlock
  else minus (.rows q.rowCount (block * q.rowsPerBlock)) q.rowCount (block * q.rowsPerBlock)

def guardedColumnExtent? (q : PruneRequest) (block : Nat) (cid : ColumnId) (cond : ColumnCondition) :
    Guarded (Option MatchExtent) :=
  match q.mapping.storedId? cid with
  | none => pure none
  | some uid =>
    match q.indexes.zoneMap? uid with
    | some z => do
      let entry ← entryAt .zoneMap z.entries block
      return some (cond.extent entry.statistic)
    | none => pure (some .some)

def guardedDeleteExtent (q : PruneRequest) (d : DeleteCondition) (block : Nat) : Guarded MatchExtent :=
  if d.conditions.isEmpty then pure .none
  else do
    let extents ← d.conditions.entries.mapM fun e => q.guardedColumnExtent? block e.1 e.2
    return .all (extents.filterMap id)

def guardedDeleteBlock (q : PruneRequest) (d : DeleteCondition) (s : PruneState) (block : Nat) :
    Guarded PruneState := do
  let before ← s.blocks.guardedGet block
  if before = .excluded then return s
  else
    let after := before.applyDelete (← q.guardedDeleteExtent d block)
    let blocks ← s.blocks.guardedSet block after
    let rows ← if after = .excluded then q.guardedBlockRows block else pure 0
    return { s with blocks, deleted := s.deleted + rows }

def guardedDeletePhase (q : PruneRequest) (first last : Nat) (s : PruneState) : Guarded PruneState :=
  q.activeDeletes.foldlM (fun s d => (range first last).foldlM (q.guardedDeleteBlock d) s) s

def guardedFilterBlock (q : PruneRequest) (mayMatch : Nat → Guarded Bool) (s : PruneState)
    (block : Nat) : Guarded PruneState := do
  let before ← s.blocks.guardedGet block
  if before = .excluded then return s
  else if ← mayMatch block then return s
  else
    let blocks ← s.blocks.guardedSet block .excluded
    let rows ← q.guardedBlockRows block
    return { s with blocks, ruledOut := s.ruledOut + rows }

def guardedZoneTest? (q : PruneRequest) (cid : ColumnId) (cond : ColumnCondition) :
    Option (Nat → Guarded Bool) :=
  if q.prunable cid then
    ((q.mapping.storedId? cid).bind q.indexes.zoneMap?).map fun z block => do
      let entry ← entryAt .zoneMap z.entries block
      return cond.mayMatch entry.statistic
  else none

def guardedBloomTest? (q : PruneRequest) (conditions : Conditions) (cid : ColumnId) :
    Option (Nat → Guarded Bool) :=
  if q.prunable cid then
    (conditions.get? cid).bind fun cond =>
      ((q.mapping.storedId? cid).bind q.indexes.bloom?).map fun b block => do
        let filter ← b.filterAt block
        return cond.mayMatchBloom filter.test
  else none

def guardedFilterPhase (q : PruneRequest) (tests : List (Nat → Guarded Bool)) (first last : Nat)
    (s : PruneState) : Guarded PruneState :=
  tests.foldlM (fun s test => (range first last).foldlM (q.guardedFilterBlock test) s) s

def guardedConditionPhases (q : PruneRequest) (conditions : Conditions) (first last : Nat)
    (s : PruneState) : Guarded PruneState := do
  let zoneTests := conditions.entries.filterMap fun e => q.guardedZoneTest? e.1 e.2
  let s ← q.guardedFilterPhase zoneTests first last s
  if s.blocks.remaining < q.minFilterBlocks then return s
  else q.guardedFilterPhase (q.bloomColumns.filterMap (q.guardedBloomTest? conditions)) first last s

def guardedPrune (q : PruneRequest) (first last : Nat) : Guarded (Except StorageError PruneState) :=
  let count := q.indexes.blockCount
  if last < first || count ≤ last then return .error (.argument (.blockRange first last count))
  else do
    let s ← q.guardedDeletePhase first last ⟨.make count first last, 0, 0⟩
    match q.conditions? with
    | none => return .ok s
    | some conditions =>
      if conditions.isEmpty then return .ok s
      else return .ok (← q.guardedConditionPhases conditions first last s)

/-- What pruning looks at is there for each block. -/
def Spans (q : PruneRequest) : Prop := q.indexes.Spans q.rowCount q.rowsPerBlock

/-- Where pruning of a range stands: the map has all blocks, and counts those that are left. -/
structure Within (q : PruneRequest) (first last : Nat) (s : PruneState) : Prop where
  size : s.blocks.dispositions.size = q.indexes.blockCount
  balanced : q.Balanced (range first last) s

variable {q : PruneRequest} {first last block : Nat} {s : PruneState}

theorem guardedBlockRows_eq (hq : q.Spans) (hblock : block < q.indexes.blockCount) :
    q.guardedBlockRows block = pure (q.blockRows block) := by
  rw [guardedBlockRows, blockRows]
  split
  · rfl
  · exact minus_eq _ (hq.rows block hblock)

theorem guardedColumnExtent?_eq (hq : q.Spans) (hblock : block < q.indexes.blockCount) (cid : ColumnId)
    (cond : ColumnCondition) :
    q.guardedColumnExtent? block cid cond = pure (q.columnExtent? block cid cond) := by
  rw [guardedColumnExtent?, columnExtent?]
  cases q.mapping.storedId? cid with
  | none => rfl
  | some uid =>
    cases hz : q.indexes.zoneMap? uid with
    | none => simp only [hz, Option.map_some]
    | some z =>
      have hentry : block < z.entries.size := Nat.lt_of_lt_of_le hblock (hq.zoneMap uid z hz)
      simp only [hz, Option.map_some, entryAt_eq .zoneMap hentry default, pure_bind]

theorem guardedDeleteExtent_eq (hq : q.Spans) (hblock : block < q.indexes.blockCount)
    (d : DeleteCondition) : q.guardedDeleteExtent d block = pure (q.deleteExtent d block) := by
  have hcolumns : (fun e : ColumnId × ColumnCondition => q.guardedColumnExtent? block e.1 e.2)
      = fun e => pure (q.columnExtent? block e.1 e.2) :=
    funext fun e => guardedColumnExtent?_eq hq hblock e.1 e.2
  rw [guardedDeleteExtent, deleteExtent]
  split
  · rfl
  · rw [hcolumns, List.mapM_pure, pure_bind, List.filterMap_map]
    rfl

/-- A block of the range that is not excluded is among those that are left. -/
theorem Within.remaining_pos (hs : q.Within first last s) (hblock : block ∈ range first last)
    (hbefore : s.blocks.get block ≠ .excluded) : 0 < s.blocks.remaining := by
  have hcounted := hs.balanced.counted
  have hsplit := s.blocks.charge_add_length (range first last)
  have hleft : block ∈ (range first last).filter fun b => s.blocks.get b ≠ .excluded :=
    List.mem_filter.mpr ⟨hblock, by simpa using hbefore⟩
  have hpos := List.length_pos_of_mem hleft
  omega

theorem guardedDeleteBlock_eq (hq : q.Spans) (hs : q.Within first last s) (hblock : block ∈ range first last)
    (hlast : last < q.indexes.blockCount) (d : DeleteCondition) :
    q.guardedDeleteBlock d s block = pure (q.deleteBlock d s block)
      ∧ q.Within first last (q.deleteBlock d s block) := by
  have hcount : block < q.indexes.blockCount := Nat.lt_of_le_of_lt (mem_range.mp hblock).2 hlast
  have hsize : block < s.blocks.dispositions.size := by rwa [hs.size]
  refine ⟨?_, ((acts_deleteBlock q d) s block hsize).1.trans hs.size,
    (deleteBlock_balanced hs.balanced (nodup_range first last) hblock hsize d).1⟩
  rw [guardedDeleteBlock, deleteBlock, BlockMap.guardedGet_eq hsize, pure_bind]
  dsimp only
  split
  · rfl
  · rw [guardedDeleteExtent_eq hq hcount, pure_bind,
      BlockMap.guardedSet_eq hsize (hs.remaining_pos hblock), pure_bind, guardedBlockRows_eq hq hcount]
    split <;> rfl

theorem guardedFilterBlock_eq (hq : q.Spans) (hs : q.Within first last s) (hblock : block ∈ range first last)
    (hlast : last < q.indexes.blockCount) {guarded : Nat → Guarded Bool} {test : Nat → Bool}
    (htest : ∀ b < q.indexes.blockCount, guarded b = pure (test b)) :
    q.guardedFilterBlock guarded s block = pure (q.filterBlock test s block)
      ∧ q.Within first last (q.filterBlock test s block) := by
  have hcount : block < q.indexes.blockCount := Nat.lt_of_le_of_lt (mem_range.mp hblock).2 hlast
  have hsize : block < s.blocks.dispositions.size := by rwa [hs.size]
  refine ⟨?_, ((acts_filterBlock q test) s block hsize).1.trans hs.size,
    (filterBlock_balanced hs.balanced (nodup_range first last) hblock hsize test).1⟩
  rw [guardedFilterBlock, filterBlock, BlockMap.guardedGet_eq hsize, pure_bind]
  by_cases hbefore : s.blocks.get block = .excluded
  · simp only [hbefore, if_true, decide_true, Bool.true_or]
  · rw [if_neg hbefore, htest block hcount, pure_bind, BlockMap.guardedSet_eq hsize (hs.remaining_pos hblock),
      pure_bind, guardedBlockRows_eq hq hcount, pure_bind]
    cases htrue : test block with
    | true => simp only [if_true, Bool.or_true]
    | false => simp only [hbefore, decide_false, Bool.or_self, Bool.false_eq_true, if_false]

theorem guardedDeletePhase_eq (hq : q.Spans) (hs : q.Within first last s)
    (hlast : last < q.indexes.blockCount) :
    q.guardedDeletePhase first last s = pure (q.deletePhase first last s)
      ∧ q.Within first last (q.deletePhase first last s) := by
  apply foldlM_eq_pure _ hs
  intro s hs d _
  apply foldlM_eq_pure _ hs
  intro s hs block hblock
  exact guardedDeleteBlock_eq hq hs hblock hlast d

/-- A checked test answers as the test does, for each block. -/
def Answers (q : PruneRequest) (guarded : Nat → Guarded Bool) (test : Nat → Bool) : Prop :=
  ∀ block < q.indexes.blockCount, guarded block = pure (test block)

theorem guardedFilterPhase_eq (hq : q.Spans) (hlast : last < q.indexes.blockCount)
    {guarded : List (Nat → Guarded Bool)} {tests : List (Nat → Bool)}
    (htests : List.Forall₂ q.Answers guarded tests) (hs : q.Within first last s) :
    q.guardedFilterPhase guarded first last s = pure (q.filterPhase tests first last s)
      ∧ q.Within first last (q.filterPhase tests first last s) := by
  rw [guardedFilterPhase, filterPhase]
  induction htests generalizing s with
  | nil => exact ⟨rfl, hs⟩
  | @cons guarded test _ _ htest _ ih =>
    have hpass : (range first last).foldlM (q.guardedFilterBlock guarded) s
          = pure ((range first last).foldl (q.filterBlock test) s)
        ∧ q.Within first last ((range first last).foldl (q.filterBlock test) s) := by
      apply foldlM_eq_pure _ hs
      intro s hs block hblock
      exact guardedFilterBlock_eq hq hs hblock hlast htest
    obtain ⟨hpass, hkept⟩ := hpass
    rw [List.foldlM_cons, hpass, pure_bind]
    exact ih hkept

theorem zoneTests_answer (hq : q.Spans) (c : Conditions) :
    List.Forall₂ q.Answers (c.entries.filterMap fun e => q.guardedZoneTest? e.1 e.2) (q.zoneTests c) := by
  refine List.rel_filterMap (R := Eq) ?_ (List.forall₂_refl c.entries)
  rintro ⟨cid, cond⟩ _ rfl
  simp only [guardedZoneTest?, zoneTest?]
  split
  · cases hz : (q.mapping.storedId? cid).bind q.indexes.zoneMap? with
    | none => exact .none
    | some z =>
      obtain ⟨uid, -, hz⟩ := Option.bind_eq_some_iff.mp hz
      refine .some fun block hblock => ?_
      have hentry : block < z.entries.size := Nat.lt_of_lt_of_le hblock (hq.zoneMap uid z hz)
      dsimp only
      rw [entryAt_eq .zoneMap hentry default, pure_bind]
  · exact .none

theorem bloomTests_answer (hq : q.Spans) (c : Conditions) :
    List.Forall₂ q.Answers (q.bloomColumns.filterMap (q.guardedBloomTest? c)) (q.bloomTests c) := by
  refine List.rel_filterMap (R := Eq) ?_ (List.forall₂_refl q.bloomColumns)
  rintro cid _ rfl
  rw [guardedBloomTest?, bloomTest?]
  split
  · cases c.get? cid with
    | none => exact .none
    | some cond =>
      cases hb : (q.mapping.storedId? cid).bind q.indexes.bloom? with
      | none =>
        simp only [Option.bind_some, Option.map_none]
        exact .none
      | some b =>
        obtain ⟨uid, -, hbloom⟩ := Option.bind_eq_some_iff.mp hb
        obtain ⟨hcount, hsliced⟩ := hq.bloom uid b hbloom
        simp only [Option.bind_some, Option.map_some]
        refine .some fun block hblock => ?_
        have hentry : block < b.entries.size := Nat.lt_of_lt_of_le hblock hcount
        rw [Loaded.filterAt_eq hsliced hentry, pure_bind, Array.getElem?_eq_getElem hentry]
        rfl
  · exact .none

theorem guardedConditionPhases_eq (hq : q.Spans) (hlast : last < q.indexes.blockCount)
    (hs : q.Within first last s) (c : Conditions) :
    q.guardedConditionPhases c first last s = pure (q.conditionPhases c first last s) := by
  obtain ⟨hzoned, hkept⟩ := guardedFilterPhase_eq hq hlast (zoneTests_answer hq c) hs
  rw [guardedConditionPhases, conditionPhases]
  dsimp only
  rw [hzoned, pure_bind]
  change (if (q.filterPhase (q.zoneTests c) first last s).blocks.remaining < q.minFilterBlocks then _ else _)
    = pure (if (q.filterPhase (q.zoneTests c) first last s).blocks.remaining < q.minFilterBlocks then _ else _)
  split
  · rfl
  · exact (guardedFilterPhase_eq hq hlast (bloomTests_answer hq c) hkept).1

/-- Pruning passes all checks, also where it refuses the range. -/
theorem guardedPrune_eq (hq : q.Spans) (first last : Nat) :
    q.guardedPrune first last = pure (q.prune first last) := by
  rw [guardedPrune, prune]
  dsimp only
  split
  · rfl
  · rename_i hvalid
    rw [Bool.or_eq_true, decide_eq_true_iff, decide_eq_true_iff] at hvalid
    have hlast : last < q.indexes.blockCount := by omega
    have hstart : q.Within first last (q.started first last) :=
      ⟨BlockMap.size_make _ _ _, started_balanced (by omega) hlast⟩
    obtain ⟨hdeletes, hkept⟩ := guardedDeletePhase_eq hq hstart hlast
    change q.guardedDeletePhase first last (q.started first last) >>= _ = _
    rw [hdeletes, pure_bind]
    cases q.conditions? with
    | none => rfl
    | some c =>
      dsimp only
      split
      · rfl
      · rw [guardedConditionPhases_eq hq hlast hkept, pure_bind]
        rfl

end PruneRequest

end SegmentStore
