import SegmentStore.Error
import SegmentStore.Json.Record
import SegmentStore.Schema.Basic

/-!
# Schemas as JSON

* `Value.toJson` and `Value.ofJson?` write and read values, each under the name of its type.
* `TabletSchema.encodeJson` writes the text of a schema, `TabletSchema.decodeJson` reads one.
-/

namespace SegmentStore

/-- Reads a whole JSON text. -/
def decodeText {α : Type} (f : Json → Option α) (text : Bytes) : Except StorageError α :=
  match (Json.parse? text).bind f with
  | some x => .ok x
  | none => .error .json

/-- The name of a type in JSON texts. -/
def FieldType.name : FieldType → String
  | .bool => "Bool"
  | .int32 => "Int32"
  | .int64 => "Int64"
  | .float64 => "Float64"
  | .varchar => "Varchar"

/-- The name of an aggregation in JSON texts. -/
def Aggregation.name : Aggregation → String
  | .none => "None"
  | .sum => "Sum"
  | .min => "Min"
  | .max => "Max"
  | .replace => "Replace"

namespace Value

def toJson : Value → Json
  | .null => .ofText "Null"
  | .bool b => .ofVariant "Bool" (.bool b)
  | .int32 n => .ofVariant "Int32" (.ofInt n.toInt)
  | .int64 n => .ofVariant "Int64" (.ofInt n.toInt)
  | .float64 x => .ofVariant "Float64" (.ofFloat x)
  | .string s => .ofVariant "String" (.ofText s)

def ofJson? (j : Json) : Option Value := do
  match ← j.variant? with
  | ("Null", payload) => if Json.isUnit payload then some .null else none
  | ("Bool", some p) => p.bool?.map .bool
  | ("Int32", some p) => p.i32?.map .int32
  | ("Int64", some p) => p.i64?.map .int64
  | ("Float64", some p) => p.float?.map .float64
  | ("String", some p) => p.text?.map .string
  | _ => none

end Value

namespace Column

def toJson (c : Column) : Json :=
  .ofFields [
    ("unique_id", .ofNat c.uniqueId.toNat),
    ("name", .ofText c.name),
    ("field_type", .ofText c.type.name),
    ("is_key", .bool c.isKey),
    ("is_nullable", .bool c.isNullable),
    ("aggregation", .ofText c.aggregation.name),
    ("default_value", (c.default?.map Value.toJson).getD .null)]

/-- The names of the fields, in order. -/
def fieldNames : List String :=
  ["unique_id", "name", "field_type", "is_key", "is_nullable", "aggregation", "default_value"]

/-- Only the id, the name and the type have to be given. A default of null means that none is
declared. -/
def ofJson? (j : Json) : Option Column := do
  let fields ← Json.record? fieldNames j
  let uniqueId ← Json.required? fields "unique_id" Json.u32?
  let name ← Json.required? fields "name" Json.text?
  let type ← Json.required? fields "field_type" (Json.enum? FieldType.all FieldType.name)
  let isKey ← Json.optional? fields "is_key" Json.bool? false
  let isNullable ← Json.optional? fields "is_nullable" Json.bool? false
  let aggregation ← Json.optional? fields "aggregation"
    (Json.enum? Aggregation.all Aggregation.name) .none
  let default? ← Json.optional? fields "default_value" (Json.option? Value.ofJson?) none
  return { uniqueId, name, type, isKey, isNullable, aggregation, default? }

end Column

namespace TabletSchema

def toJson (s : TabletSchema) : Json :=
  .ofFields [("columns", .array (s.columns.map Column.toJson))]

def ofJson? (j : Json) : Option TabletSchema := do
  let fields ← Json.record? ["columns"] j
  let columns ← Json.required? fields "columns" (Json.list? Column.ofJson?)
  return ⟨columns⟩

/-- The text of a schema. -/
def encodeJson (layout : Json.Layout) (s : TabletSchema) : Bytes := s.toJson.render layout

/-- The schema in a text. -/
def decodeJson (text : Bytes) : Except StorageError TabletSchema := decodeText ofJson? text

end TabletSchema

end SegmentStore
