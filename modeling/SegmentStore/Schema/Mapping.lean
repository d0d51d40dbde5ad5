import SegmentStore.Schema.Basic
import SegmentStore.Segment.Header

/-!
# Table columns and stored columns

A table column is missing from a segment that was written before the column existed.

* `ColumnMapping` relates the positions of the table schema, the stable ids and the positions in one
  segment, and records what a scan projects.
* `ColumnMapping.needsIndexStream` and `ColumnMapping.needsDataStream` say which streams a scan reads.
-/

namespace SegmentStore

/-- The last position of an element in a list. -/
def lastIndex? {α : Type} [DecidableEq α] (a : α) (xs : List α) : Option Nat :=
  (xs.reverse.findIdx? (· = a)).map fun i => xs.length - 1 - i

/-- How the columns of a table and of a segment correspond, and which of them a scan uses. -/
structure ColumnMapping where
  /-- The stable ids of the table columns, by position. -/
  tableIds : List UniqueId
  /-- The stored columns, by position in the segment. -/
  stored : List StoredColumn
  /-- The projected columns. -/
  projected : List UniqueId
  /-- The columns whose bloom filters are asked. -/
  bloomed : List UniqueId

namespace ColumnMapping

/-- The stable ids of table columns, or the first column that the table lacks. -/
def resolve (tableIds : List UniqueId) (cids : List ColumnId) : Except StorageError (List UniqueId) :=
  cids.mapM fun cid =>
    match tableIds[cid.toNat]? with
    | some uid => .ok uid
    | none => .error (.invalidColumn cid)

/-- The mapping of a scan over a segment. -/
def build (schema : TabletSchema) (used bloom : List ColumnId) (header : SegmentHeader) :
    Except StorageError ColumnMapping := do
  let tableIds := schema.columns.map (·.uniqueId)
  let projected ← resolve tableIds used
  let bloomed ← resolve tableIds bloom
  return ⟨tableIds, header.columns, projected, bloomed⟩

/-- The stable id of a table column. -/
def uniqueId? (m : ColumnMapping) (cid : ColumnId) : Option UniqueId := m.tableIds[cid.toNat]?

/-- The table column of a stable id, the last one where several share it. -/
def tableColumn? (m : ColumnMapping) (uid : UniqueId) : Option ColumnId :=
  (lastIndex? uid m.tableIds).map UInt32.ofNat

/-- The position of a column in the segment, the last one where several share the id. -/
def segmentColumn? (m : ColumnMapping) (uid : UniqueId) : Option Nat :=
  lastIndex? uid (m.stored.map (·.uniqueId))

/-- The segment stores the column. -/
def isStored (m : ColumnMapping) (uid : UniqueId) : Bool := m.stored.any fun c => c.uniqueId = uid

/-- The stable id of a table column that the segment stores. -/
def storedId? (m : ColumnMapping) (cid : ColumnId) : Option UniqueId :=
  (m.uniqueId? cid).filter m.isStored

/-- The layout of a stored column. -/
def encoding? (m : ColumnMapping) (uid : UniqueId) : Option ColumnEncoding :=
  (m.stored.findRev? fun c => c.uniqueId = uid).map (·.encoding)

/-- A scan reads the zone maps of projected columns and the bloom filters asked for. -/
def needsIndexStream (m : ColumnMapping) (s : StreamInfo) : Bool :=
  m.isStored s.uniqueId &&
    match s.kind with
    | .rowIndex => m.projected.contains s.uniqueId
    | .bloomFilter => m.bloomed.contains s.uniqueId
    | .present => false
    | .data => false

/-- A scan opens the value streams of the columns it uses in any way. -/
def needsDataStream (m : ColumnMapping) (s : StreamInfo) : Bool :=
  !s.kind.isIndex && m.isStored s.uniqueId &&
    (m.projected.contains s.uniqueId || m.bloomed.contains s.uniqueId)

end ColumnMapping

end SegmentStore
