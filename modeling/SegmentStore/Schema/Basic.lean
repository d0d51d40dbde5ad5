import SegmentStore.Value.Basic

/-!
# Table schemas

A table has columns in an order that may change, and each column an id that does not.

* `Column` describes one column; `Column.default` is its value in rows that never stored it.
* `TabletSchema` is the list of columns, indexed by `ColumnId`.
-/

namespace SegmentStore

/-- How values are merged when rows with equal keys meet. -/
inductive Aggregation where
  | none
  | sum
  | min
  | max
  | replace
  deriving DecidableEq, Inhabited

namespace Aggregation

def all : List Aggregation := [.none, .sum, .min, .max, .replace]

/-- The name shown to users. -/
def display : Aggregation → String
  | .none => "none"
  | .sum => "sum"
  | .min => "min"
  | .max => "max"
  | .replace => "replace"

end Aggregation

/-- The description of one column of a table. -/
structure Column where
  uniqueId : UniqueId
  name : String
  type : FieldType
  isKey : Bool
  isNullable : Bool
  aggregation : Aggregation
  /-- The declared value of rows that were written before the column existed. -/
  default? : Option Value
  deriving DecidableEq

/-- The value of the column in rows that never stored it: the declared one, or null where nulls are
allowed, or the default of the type. -/
def Column.default (c : Column) : Value :=
  match c.default? with
  | some v => v
  | none => if c.isNullable then .null else c.type.default

/-- The columns of a table, in the order that scans see. -/
structure TabletSchema where
  columns : List Column
  deriving DecidableEq

namespace TabletSchema

/-- The column at a position. -/
def column? (s : TabletSchema) (cid : ColumnId) : Option Column := s.columns[cid.toNat]?

/-- Every position of the schema. -/
def columnIds (s : TabletSchema) : List ColumnId :=
  (List.range s.columns.length).map UInt32.ofNat

/-- The first position of the column with the given unique id. -/
def columnIdOf? (s : TabletSchema) (uid : UniqueId) : Option ColumnId :=
  (s.columns.findIdx? fun c => c.uniqueId = uid).map UInt32.ofNat

end TabletSchema

end SegmentStore
