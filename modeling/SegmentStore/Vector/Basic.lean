import SegmentStore.Error
import SegmentStore.Text.Utf8

/-!
# Column vectors

A vector holds the values of one column of a batch, in the layout that consumers read.

* `FlatVector` keeps a validity flag and a slot for each item, `TextVector` delimits all texts in one
  buffer.
* `ColumnVector` is a vector of any column type; `ColumnVector.push` adds a value of the type, or null,
  and `ColumnVector.toList` lists the items.
-/

namespace SegmentStore

/-- A vector of fixed-width items. The slot of a null holds the default. -/
structure FlatVector (α : Type) where
  valid : Array Bool
  slots : Array α

namespace FlatVector

variable {α : Type}

def empty : FlatVector α := ⟨#[], #[]⟩

def size (v : FlatVector α) : Nat := v.valid.size

/-- Adds an item, `filler` standing in the slot of a null. -/
def push (filler : α) (v : FlatVector α) (x : Option α) : FlatVector α :=
  ⟨v.valid.push x.isSome, v.slots.push (x.getD filler)⟩

/-- All items of one vector, then all of the other. -/
def append (v w : FlatVector α) : FlatVector α := ⟨v.valid ++ w.valid, v.slots ++ w.slots⟩

/-- The item at an index, none for a null. -/
def get (v : FlatVector α) (i : Nat) : Option α :=
  if v.valid[i]?.getD false then v.slots[i]? else none

end FlatVector

/-- A vector of texts. The bytes of all texts stand in one buffer, and `offsets` delimit them. -/
structure TextVector where
  offsets : Array Nat
  valid : Array Bool
  bytes : Array UInt8

namespace TextVector

def empty : TextVector := ⟨#[0], #[], #[]⟩

def size (v : TextVector) : Nat := v.valid.size

/-- Adds an item, which for a null takes no bytes. -/
def push (v : TextVector) (x : Option String) : TextVector :=
  let bytes := match x with
    | some s => v.bytes ++ Utf8.encode s
    | none => v.bytes
  ⟨v.offsets.push bytes.size, v.valid.push x.isSome, bytes⟩

/-- Adds the text with the given bytes, or gives the length of their valid prefix. -/
def pushBytes (v : TextVector) (bs : Bytes) : Except Nat TextVector :=
  match Utf8.decode? bs with
  | some s => .ok (v.push (some s))
  | none => .error (Utf8.validPrefix bs)

/-- All items of one vector, then all of the other. -/
def append (v w : TextVector) : TextVector :=
  ⟨v.offsets ++ (w.offsets.toList.drop 1).map (· + v.bytes.size), v.valid ++ w.valid,
    v.bytes ++ w.bytes⟩

/-- The bytes between two neighbouring offsets. -/
def slice (v : TextVector) (i : Nat) : Bytes :=
  (v.bytes.extract (v.offsets[i]?.getD 0) (v.offsets[i + 1]?.getD 0)).toList

/-- The item at an index, none for a null. -/
def get (v : TextVector) (i : Nat) : Option String :=
  if v.valid[i]?.getD false then some ((Utf8.decode? (v.slice i)).getD "") else none

end TextVector

/-- A vector of a column type. -/
inductive ColumnVector where
  | bool (v : FlatVector Bool)
  | int32 (v : FlatVector Int32)
  | int64 (v : FlatVector Int64)
  | float64 (v : FlatVector Float64)
  | varchar (v : TextVector)

namespace ColumnVector

/-- The vector of a type without items. -/
def empty : FieldType → ColumnVector
  | .bool => .bool .empty
  | .int32 => .int32 .empty
  | .int64 => .int64 .empty
  | .float64 => .float64 .empty
  | .varchar => .varchar .empty

def type : ColumnVector → FieldType
  | .bool _ => .bool
  | .int32 _ => .int32
  | .int64 _ => .int64
  | .float64 _ => .float64
  | .varchar _ => .varchar

def size : ColumnVector → Nat
  | .bool v => v.size
  | .int32 v => v.size
  | .int64 v => v.size
  | .float64 v => v.size
  | .varchar v => v.size

/-- Adds a value of the type of the vector, or null. -/
def push (v : ColumnVector) (x : Value) : Except StorageError ColumnVector :=
  match v, x with
  | .bool v, .bool b => .ok (.bool (v.push false b))
  | .bool v, .null => .ok (.bool (v.push false none))
  | .int32 v, .int32 n => .ok (.int32 (v.push 0 n))
  | .int32 v, .null => .ok (.int32 (v.push 0 none))
  | .int64 v, .int64 n => .ok (.int64 (v.push 0 n))
  | .int64 v, .null => .ok (.int64 (v.push 0 none))
  | .float64 v, .float64 x => .ok (.float64 (v.push .zero x))
  | .float64 v, .null => .ok (.float64 (v.push .zero none))
  | .varchar v, .string s => .ok (.varchar (v.push s))
  | .varchar v, .null => .ok (.varchar (v.push none))
  | v, x => .error (.vectorMismatch x v.type)

/-- The items of the first vector and then those of the second, if the types agree. -/
def append? : ColumnVector → ColumnVector → Option ColumnVector
  | .bool v, .bool w => some (.bool (v.append w))
  | .int32 v, .int32 w => some (.int32 (v.append w))
  | .int64 v, .int64 w => some (.int64 (v.append w))
  | .float64 v, .float64 w => some (.float64 (v.append w))
  | .varchar v, .varchar w => some (.varchar (v.append w))
  | _, _ => none

/-- The value at an index. -/
def get (v : ColumnVector) (i : Nat) : Value :=
  match v with
  | .bool v => (v.get i).elim .null .bool
  | .int32 v => (v.get i).elim .null .int32
  | .int64 v => (v.get i).elim .null .int64
  | .float64 v => (v.get i).elim .null .float64
  | .varchar v => (v.get i).elim .null .string

/-- The items in order. -/
def toList (v : ColumnVector) : List Value := (List.range v.size).map v.get

end ColumnVector

end SegmentStore
