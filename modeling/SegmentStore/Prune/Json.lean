import SegmentStore.Prune.Conditions
import SegmentStore.Schema.Json

/-!
# Conditions as JSON

* `Conditions.encodeJson` writes the text of some conditions, with an object of the columns by id;
  `Conditions.decodeJson` reads one. Of a column given twice the last condition counts.
-/

namespace SegmentStore

/-- The name of a comparison in JSON texts. -/
def CompareOp.name : CompareOp → String
  | .eq => "Eq"
  | .ne => "Ne"
  | .lt => "Lt"
  | .le => "Le"
  | .gt => "Gt"
  | .ge => "Ge"

namespace Predicate

def toJson : Predicate → Json
  | .compare op v => .ofVariant "Compare" (.array [.ofText op.name, v.toJson])
  | .isIn vs => .ofVariant "In" (.array (vs.map Value.toJson))
  | .isNull => .ofText "IsNull"
  | .isNotNull => .ofText "IsNotNull"

def ofJson? (j : Json) : Option Predicate := do
  match ← j.variant? with
  | ("Compare", some (.array [op, v])) => do
    let op ← Json.enum? CompareOp.all CompareOp.name op
    let v ← Value.ofJson? v
    return .compare op v
  | ("In", some p) => (p.list? Value.ofJson?).map .isIn
  | ("IsNull", payload) => if Json.isUnit payload then some .isNull else none
  | ("IsNotNull", payload) => if Json.isUnit payload then some .isNotNull else none
  | _ => none

end Predicate

namespace ColumnCondition

def toJson (c : ColumnCondition) : Json :=
  .ofFields [("predicates", .array (c.predicates.map Predicate.toJson))]

def ofJson? (j : Json) : Option ColumnCondition := do
  let fields ← Json.record? ["predicates"] j
  let predicates ← Json.required? fields "predicates" (Json.list? Predicate.ofJson?)
  return ⟨predicates⟩

end ColumnCondition

namespace Conditions

/-- A column id as the name of a member. -/
def idName (cid : ColumnId) : Bytes := (Number.ofInt cid.toNat).render

/-- The column id that a member is named by: digits of a whole number and nothing else. -/
def idOfName? (raw : Bytes) : Option ColumnId := do
  let (n, rest) ← Number.scan raw
  guard rest.isEmpty
  (Json.number n).u32?

def toJson (c : Conditions) : Json :=
  .ofFields [("columns", .object (c.entries.map fun (cid, cond) => (idName cid, cond.toJson)))]

/-- The conditions of all members of an object. -/
def ofMembers? : List (Bytes × Json) → Conditions → Option Conditions
  | [], c => some c
  | (raw, j) :: ms, c => do
    let cid ← idOfName? raw
    let cond ← ColumnCondition.ofJson? j
    ofMembers? ms (c.insert cid cond)

def ofJson? (j : Json) : Option Conditions := do
  let fields ← Json.record? ["columns"] j
  match ← fields.lookup "columns" with
  | .object ms => ofMembers? ms .empty
  | _ => none

/-- The text of some conditions. -/
def encodeJson (layout : Json.Layout) (c : Conditions) : Bytes := c.toJson.render layout

/-- The conditions in a text. -/
def decodeJson (text : Bytes) : Except StorageError Conditions := decodeText ofJson? text

end Conditions

end SegmentStore
