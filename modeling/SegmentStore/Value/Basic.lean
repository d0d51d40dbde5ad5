import SegmentStore.Float64.Decimal

/-!
# Column values

* `FieldType` is the type of a stored column, with a tag that files record.
* `Value` is a nullable primitive value, `FieldType.accepts` says which values a column may hold.
* `Value.compare` is the one order used by statistics, predicates and pruning: values of one type in
  their natural order, null before everything, and otherwise by type.
-/

namespace SegmentStore

/-- The position of a column in the table schema. -/
abbrev ColumnId := UInt32

/-- The stable id of a column, the same across schema changes. -/
abbrev UniqueId := UInt32

/-- A data version, as used by version ranges and deletes. -/
abbrev Version := Int

/-- The type of a stored column. -/
inductive FieldType where
  | bool
  | int32
  | int64
  | float64
  | varchar
  deriving DecidableEq, Inhabited

/-- A primitive value of a column. -/
inductive Value where
  | null
  | bool (b : Bool)
  | int32 (n : Int32)
  | int64 (n : Int64)
  | float64 (x : Float64)
  | string (s : String)
  deriving DecidableEq, Inhabited

namespace FieldType

/-- Every type, in the order of the tags. -/
def all : List FieldType := [.bool, .int32, .int64, .float64, .varchar]

/-- The tag that files record. -/
def tag : FieldType → UInt8
  | .bool => 1
  | .int32 => 2
  | .int64 => 3
  | .float64 => 4
  | .varchar => 5

/-- The type with the given tag. -/
def ofTag? (t : UInt8) : Option FieldType := all.find? fun ty => ty.tag = t

theorem ofTag?_tag (ty : FieldType) : ofTag? ty.tag = some ty := by
  cases ty <;> decide

theorem tag_of_ofTag? {t : UInt8} {ty : FieldType} (h : ofTag? t = some ty) : ty.tag = t := by
  simpa using List.find?_some h

/-- The name shown to users. -/
def display : FieldType → String
  | .bool => "BOOL"
  | .int32 => "INT32"
  | .int64 => "INT64"
  | .float64 => "FLOAT64"
  | .varchar => "VARCHAR"

/-- A column of this type may hold the value: null, or a value of the type itself. -/
def accepts : FieldType → Value → Bool
  | _, .null => true
  | .bool, .bool _ => true
  | .int32, .int32 _ => true
  | .int64, .int64 _ => true
  | .float64, .float64 _ => true
  | .varchar, .string _ => true
  | _, _ => false

/-- The value that stands where nothing was written. -/
def default : FieldType → Value
  | .bool => .bool false
  | .int32 => .int32 0
  | .int64 => .int64 0
  | .float64 => .float64 .zero
  | .varchar => .string ""

theorem accepts_default (ty : FieldType) : ty.accepts ty.default = true := by
  cases ty <;> rfl

end FieldType

namespace Value

def isNull : Value → Bool
  | .null => true
  | _ => false

/-- The type of a value, none for null. -/
def fieldType? : Value → Option FieldType
  | .null => none
  | .bool _ => some .bool
  | .int32 _ => some .int32
  | .int64 _ => some .int64
  | .float64 _ => some .float64
  | .string _ => some .varchar

theorem accepts_iff (ty : FieldType) (v : Value) :
    ty.accepts v = true ↔ v.fieldType? = none ∨ v.fieldType? = some ty := by
  cases ty <;> cases v <;> simp [FieldType.accepts, fieldType?]

/-! ### Order -/

/-- The place of a value's type in the order of values, null first. -/
def typeRank : Value → Nat
  | .null => 0
  | .bool _ => 1
  | .int32 _ => 2
  | .int64 _ => 3
  | .float64 _ => 4
  | .string _ => 5

/-- The order of values. Strings go by code point, which is the order of their bytes. -/
def compare : Value → Value → Ordering
  | .bool a, .bool b => Ord.compare a.toNat b.toNat
  | .int32 a, .int32 b => Ord.compare a.toInt b.toInt
  | .int64 a, .int64 b => Ord.compare a.toInt b.toInt
  | .float64 a, .float64 b => a.compare b
  | .string a, .string b => compareOfLessAndEq a b
  | a, b => Ord.compare a.typeRank b.typeRank

/-- Strictly before in the order of values. -/
def lt (a b : Value) : Bool := compare a b == .lt

/-- Before or equal in the order of values. -/
def le (a b : Value) : Bool := compare a b != .gt

/-- Equal in the order of values: NaNs are equal, and so are the two zeros. -/
def eqv (a b : Value) : Bool := compare a b == .eq

/-! ### Text -/

/-- The text of a value in messages and printed rows. -/
def display : Value → String
  | .null => "null"
  | .bool b => if b then "true" else "false"
  | .int32 n => toString n.toInt
  | .int64 n => toString n.toInt
  | .float64 x => x.display
  | .string s => "'" ++ s ++ "'"

end Value

end SegmentStore
