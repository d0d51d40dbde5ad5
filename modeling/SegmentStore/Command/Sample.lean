import SegmentStore.Segment.Writer

/-!
# A sample segment

* `Sample.schema` has three columns; `Sample.segment` is a segment of them with any number of rows.
-/

namespace SegmentStore.Command.Sample

/-- A key, a score that may be null, and a name. -/
def schema : TabletSchema where
  columns := [
    { uniqueId := 0, name := "id", type := .int64, isKey := true, isNullable := false
      aggregation := .none, default? := none },
    { uniqueId := 1, name := "score", type := .int32, isKey := false, isNullable := true
      aggregation := .none, default? := none },
    { uniqueId := 2, name := "name", type := .varchar, isKey := false, isNullable := false
      aggregation := .none, default? := none }]

/-- The options of the sample: the key has a bloom filter. -/
def options : WriterOptions := { WriterOptions.default with bloomColumns := [0] }

/-- The score of a row, null for every seventh. -/
def score (id : Nat) : Value := if id % 7 = 0 then .null else .int32 (Int32.ofNat (id % 100))

/-- A row of the sample. -/
def row (id : Nat) : List Value := [.int64 (Int64.ofNat id), score id, .string s!"row-{id}"]

/-- The rows that a request for `rows` of them gets: a number beyond the keys gets none. -/
def rowCount (rows : Nat) : Nat := if rows < 0x8000000000000000 then rows else 0

/-- The bytes of a sample segment. -/
def segment (rows : Nat) : Except StorageError Bytes := do
  let w ← SegmentWriter.make schema schema.columnIds options
  return (w.appendRows ((List.range (rowCount rows)).map row)).finish.2

end SegmentStore.Command.Sample
