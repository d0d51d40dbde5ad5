import SegmentStore.Vector.Basic
import SegmentStore.Prune.Disposition
import SegmentStore.Schema.Basic

/-!
# Row batches

A batch lists the table columns it wants and holds one vector for each, filled from one block at a
time.

* `RowBatch.make` prepares an empty batch, `RowBatch.row` reads across the vectors.
-/

namespace SegmentStore

/-- One column of a batch. -/
structure BatchColumn where
  id : ColumnId
  type : FieldType
  vector : ColumnVector

/-- The rows loaded from one block. -/
structure RowBatch where
  columns : List BatchColumn
  /-- The most rows loaded at once. -/
  capacity : Nat
  /-- The rows held now. -/
  size : Nat
  /-- Whether the rows held now are still subject to delete conditions. -/
  status : Disposition

namespace RowBatch

/-- An empty batch for the given columns. -/
def make (schema : TabletSchema) (ids : List ColumnId) (capacity : Nat) :
    Except StorageError RowBatch := do
  let columns ← ids.mapM fun cid =>
    match schema.column? cid with
    | some c => .ok ⟨cid, c.type, .empty c.type⟩
    | none => .error (.invalidColumn cid)
  return ⟨columns, capacity, 0, .needsRowFilter⟩

def columnIds (b : RowBatch) : List ColumnId := b.columns.map (·.id)

/-- The first vector of a table column. -/
def vectorOf? (b : RowBatch) (cid : ColumnId) : Option ColumnVector :=
  (b.columns.find? fun c => c.id = cid).map (·.vector)

/-- The values of a row across the columns. -/
def row (b : RowBatch) (i : Nat) : List Value := b.columns.map fun c => c.vector.get i

/-- Puts a vector into the column at an index. -/
def setVector (b : RowBatch) (i : Nat) (v : ColumnVector) : RowBatch :=
  { b with columns := b.columns.modify i fun c => { c with vector := v } }

end RowBatch

end SegmentStore
