import SegmentStore.Index.Load
import SegmentStore.Prune.BlockMap
import SegmentStore.Prune.Conditions

/-!
# Pruning blocks

Every block of a range starts as included. Deletes, then zone maps, then bloom filters make it
stricter; bloom filters are asked only when enough blocks are left to make that worth while.

* `PruneRequest.prune` goes through the three phases and counts the rows of the blocks it excludes.
-/

namespace SegmentStore

/-- What pruning looks at. -/
structure PruneRequest where
  schema : TabletSchema
  mapping : ColumnMapping
  indexes : IndexSet
  conditions? : Option Conditions
  deletes? : Option DeleteHandler
  deleteStatus : DeleteStatus
  bloomColumns : List ColumnId
  /-- The first version of the data. -/
  version : Version
  rowCount : Nat
  rowsPerBlock : Nat
  minFilterBlocks : Nat

/-- The dispositions, and the rows of excluded blocks by reason. -/
structure PruneState where
  blocks : BlockMap
  deleted : Nat
  ruledOut : Nat

namespace PruneRequest

/-- The blocks of a range. -/
def range (first last : Nat) : List Nat := List.range' first (last + 1 - first)

/-- The rows of a block: the last one has what is left. -/
def blockRows (q : PruneRequest) (block : Nat) : Nat :=
  if block + 1 < q.indexes.blockCount then q.rowsPerBlock
  else q.rowCount - block * q.rowsPerBlock

/-- Only columns without aggregation have statistics that bound what a reader observes. -/
def prunable (q : PruneRequest) (cid : ColumnId) : Bool :=
  (q.schema.column? cid).any fun c => c.aggregation = .none

/-! ### Deletes -/

/-- How much of a block a delete matches on one column. Columns that the segment lacks do not decide,
columns without a zone map leave it open. -/
def columnExtent? (q : PruneRequest) (block : Nat) (cid : ColumnId) (cond : ColumnCondition) :
    Option MatchExtent :=
  (q.mapping.storedId? cid).map fun uid =>
    match q.indexes.zoneMap? uid with
    | some z => cond.extent (z.entries[block]?.getD default).statistic
    | none => .some

/-- How much of a block a delete matches. A delete without conditions matches nothing. -/
def deleteExtent (q : PruneRequest) (d : DeleteCondition) (block : Nat) : MatchExtent :=
  if d.conditions.isEmpty then .none
  else .all (d.conditions.entries.filterMap fun (cid, cond) => q.columnExtent? block cid cond)

/-- Applies one delete to one block. -/
def deleteBlock (q : PruneRequest) (d : DeleteCondition) (s : PruneState) (block : Nat) :
    PruneState :=
  let before := s.blocks.get block
  if before = .excluded then s
  else
    let after := before.applyDelete (q.deleteExtent d block)
    { s with
      blocks := s.blocks.set block after
      deleted := s.deleted + if after = .excluded then q.blockRows block else 0 }

/-- The deletes that are looked at. -/
def activeDeletes (q : PruneRequest) : List DeleteCondition :=
  match q.deletes? with
  | none => []
  | some h => if q.deleteStatus = .notSatisfied then [] else h.applicable q.version

/-- Applies all deletes to a range. -/
def deletePhase (q : PruneRequest) (first last : Nat) (s : PruneState) : PruneState :=
  q.activeDeletes.foldl (fun s d => (range first last).foldl (q.deleteBlock d) s) s

/-! ### Scan conditions -/

/-- Excludes a block that the test rules out. -/
def filterBlock (q : PruneRequest) (mayMatch : Nat → Bool) (s : PruneState) (block : Nat) :
    PruneState :=
  if s.blocks.get block = .excluded || mayMatch block then s
  else
    { s with
      blocks := s.blocks.set block .excluded
      ruledOut := s.ruledOut + q.blockRows block }

/-- The test of a condition on a zone map, where the column is stored and its zone map loaded. -/
def zoneTest? (q : PruneRequest) (cid : ColumnId) (cond : ColumnCondition) : Option (Nat → Bool) :=
  if q.prunable cid then
    ((q.mapping.storedId? cid).bind q.indexes.zoneMap?).map fun z block =>
      cond.mayMatch (z.entries[block]?.getD default).statistic
  else none

/-- The test of a condition on a bloom filter, where the column is stored and the filter loaded. -/
def bloomTest? (q : PruneRequest) (conditions : Conditions) (cid : ColumnId) :
    Option (Nat → Bool) :=
  if q.prunable cid then
    (conditions.get? cid).bind fun cond =>
      ((q.mapping.storedId? cid).bind q.indexes.bloom?).map fun b block =>
        cond.mayMatchBloom (b.entries[block]?.elim (fun _ => true) BloomFilter.test)
  else none

/-- Applies tests to a range, one after the other. -/
def filterPhase (q : PruneRequest) (tests : List (Nat → Bool)) (first last : Nat)
    (s : PruneState) : PruneState :=
  tests.foldl (fun s test => (range first last).foldl (q.filterBlock test) s) s

/-- Applies the conditions of a scan to a range. -/
def conditionPhases (q : PruneRequest) (conditions : Conditions) (first last : Nat)
    (s : PruneState) : PruneState :=
  let zoneTests := conditions.entries.filterMap fun (cid, cond) => q.zoneTest? cid cond
  let s := q.filterPhase zoneTests first last s
  if s.blocks.remaining < q.minFilterBlocks then s
  else q.filterPhase (q.bloomColumns.filterMap (q.bloomTest? conditions)) first last s

/-- The dispositions of all blocks for a scan of the range. -/
def prune (q : PruneRequest) (first last : Nat) : Except StorageError PruneState :=
  let count := q.indexes.blockCount
  if last < first || count ≤ last then .error (.argument (.blockRange first last count))
  else
    let s := q.deletePhase first last ⟨.make count first last, 0, 0⟩
    match q.conditions? with
    | none => .ok s
    | some conditions =>
      if conditions.isEmpty then .ok s else .ok (q.conditionPhases conditions first last s)

end PruneRequest

end SegmentStore
