import SegmentStore.Json.Syntax

/-!
# Records and variants as JSON

* A record is an object with a member for each field, or an array of the fields in order.
  `Json.record?` gives the fields under their names either way. Members that the record does not
  know are left out, a known one given twice is refused.
* A variant is a string, or an object whose only member has the name of the variant and holds what
  belongs to it; `Json.variant?` takes it apart.
-/

namespace SegmentStore.Json

/-! ### Reading -/

/-- The text of a string. -/
def text? : Json → Option String
  | .string raw => Escape.decode? raw
  | _ => none

def bool? : Json → Option Bool
  | .bool b => some b
  | _ => none

/-- A whole number. -/
def int? : Json → Option Int
  | .number n => n.int?
  | _ => none

/-- A whole number from `low` to `high`. -/
def intIn? (low high : Int) (j : Json) : Option Int := j.int?.filter fun n => low ≤ n && n ≤ high

def u32? (j : Json) : Option UInt32 := (j.intIn? 0 0xFFFFFFFF).map fun n => UInt32.ofNat n.toNat

def u64? (j : Json) : Option UInt64 := (j.intIn? 0 0xFFFFFFFFFFFFFFFF).map fun n => UInt64.ofNat n.toNat

def i32? (j : Json) : Option Int32 := (j.intIn? (-0x80000000) 0x7FFFFFFF).map Int32.ofInt

def i64? (j : Json) : Option Int64 := (j.intIn? (-0x8000000000000000) 0x7FFFFFFFFFFFFFFF).map Int64.ofInt

def float? : Json → Option Float64
  | .number n => n.toFloat?
  | _ => none

/-- The items of an array, each of them read. -/
def list? {α : Type} (f : Json → Option α) : Json → Option (List α)
  | .array js => js.mapM f
  | _ => none

/-- What `f` reads, none for null. -/
def option? {α : Type} (f : Json → Option α) : Json → Option (Option α)
  | .null => some none
  | j => (f j).map some

/-- The fields of a record that were given, by name. -/
abbrev Fields := List (String × Json)

/-- The members of an object that a record knows. -/
def knownMembers? (names : List String) : List (Bytes × Json) → Option Fields
  | [] => some []
  | (raw, j) :: ms => do
    let name ← Escape.decode? raw
    let rest ← knownMembers? names ms
    if names.contains name then
      if (rest.lookup name).isSome then none else some ((name, j) :: rest)
    else some rest

/-- The fields of a record with the given names. -/
def record? (names : List String) : Json → Option Fields
  | .object ms => knownMembers? names ms
  | .array js => if js.length ≤ names.length then some (names.zip js) else none
  | _ => none

/-- A field that has to be given. -/
def required? {α : Type} (fields : Fields) (name : String) (f : Json → Option α) : Option α :=
  (fields.lookup name).bind f

/-- A field that may be left out. -/
def optional? {α : Type} (fields : Fields) (name : String) (f : Json → Option α) (absent : α) :
    Option α :=
  match fields.lookup name with
  | some j => f j
  | none => some absent

/-- The name of a variant and what belongs to it. -/
def variant? : Json → Option (String × Option Json)
  | .string raw => (Escape.decode? raw).map fun name => (name, none)
  | .object [(raw, j)] => (Escape.decode? raw).map fun name => (name, some j)
  | _ => none

/-- Nothing belongs to the variant, written by its name alone or with null. -/
def isUnit : Option Json → Bool
  | none => true
  | some .null => true
  | some _ => false

/-- A variant of a type whose variants have nothing but names. -/
def enum? {α : Type} (all : List α) (name : α → String) (j : Json) : Option α := do
  let (given, payload) ← j.variant?
  guard (isUnit payload)
  all.find? fun a => name a = given

/-! ### Writing -/

def ofText (s : String) : Json := .string (Escape.encode s)

def ofInt (n : Int) : Json := .number (.ofInt n)

def ofNat (n : Nat) : Json := ofInt n

/-- A double, null if it is not finite. -/
def ofFloat (x : Float64) : Json :=
  if x.isNaN || x.isInfinite then .null else .number (.ofFloat x)

/-- An object with the given members. -/
def ofFields (fields : Fields) : Json :=
  .object (fields.map fun (name, j) => (Escape.encode name, j))

/-- A variant with what belongs to it. -/
def ofVariant (name : String) (payload : Json) : Json := ofFields [(name, payload)]

end SegmentStore.Json
