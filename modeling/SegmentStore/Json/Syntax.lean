import SegmentStore.Json.Escape
import SegmentStore.Json.Number

/-!
# JSON texts

* `Json` is the tree of a text. Numbers and strings are kept as they were written, and the members of
  an object in their order.
* `Json.render` writes a tree in a layout, `Json.parse?` reads a whole text.
-/

namespace SegmentStore

/-- The tree of a JSON text. -/
inductive Json where
  | null
  | bool (b : Bool)
  | number (n : Number)
  /-- What stands between the quotes. -/
  | string (raw : Bytes)
  | array (items : List Json)
  /-- The names, as they stand between their quotes, and the values. -/
  | object (members : List (Bytes × Json))
  deriving Inhabited

namespace Json

/-- The word for null. -/
def nullWord : Bytes := [0x6E, 0x75, 0x6C, 0x6C]

/-- The word for true. -/
def trueWord : Bytes := [0x74, 0x72, 0x75, 0x65]

/-- The word for false. -/
def falseWord : Bytes := [0x66, 0x61, 0x6C, 0x73, 0x65]

/-! ### Writing -/

/-- What stands between the parts of a text. -/
structure Layout where
  /-- Before an item or a closing bracket at some depth. -/
  gap : Nat → Bytes
  /-- Between a name and its value. -/
  colon : Bytes

/-- Everything on one line. -/
def Layout.compact : Layout := ⟨fun _ => [], [0x3A]⟩

/-- Each item on a line of its own, indented by two blanks for each level. -/
def Layout.indented : Layout :=
  ⟨fun depth => 0x0A :: List.replicate (2 * depth) 0x20, [0x3A, 0x20]⟩

/-- Parts between brackets, each after a gap, with commas between them. -/
def Layout.enclose (l : Layout) (depth : Nat) (opening closing : UInt8) (parts : List Bytes) : Bytes :=
  if parts.isEmpty then [opening, closing]
  else
    opening :: [0x2C].intercalate (parts.map (l.gap (depth + 1) ++ ·)) ++ l.gap depth ++ [closing]

mutual

/-- The text of a tree that stands at some depth. -/
def renderAt (l : Layout) (depth : Nat) : Json → Bytes
  | .null => nullWord
  | .bool b => if b then trueWord else falseWord
  | .number n => n.render
  | .string raw => 0x22 :: raw ++ [0x22]
  | .array js => l.enclose depth 0x5B 0x5D (renderItems l (depth + 1) js)
  | .object ms => l.enclose depth 0x7B 0x7D (renderMembers l (depth + 1) ms)

/-- The texts of some items. -/
def renderItems (l : Layout) (depth : Nat) : List Json → List Bytes
  | [] => []
  | j :: js => renderAt l depth j :: renderItems l depth js

/-- The texts of some members. -/
def renderMembers (l : Layout) (depth : Nat) : List (Bytes × Json) → List Bytes
  | [] => []
  | (name, j) :: ms =>
    (0x22 :: name ++ 0x22 :: l.colon ++ renderAt l depth j) :: renderMembers l depth ms

end

/-- The text of a tree. -/
def render (l : Layout) (j : Json) : Bytes := renderAt l 0 j

/-- The text of a tree as a string, empty if a string in the tree is no text. -/
def text (l : Layout) (j : Json) : String := (Utf8.decode? (j.render l)).getD ""

/-! ### Reading -/

/-- The blanks that may stand between the parts of a text. -/
def isBlank (b : UInt8) : Bool := b = 0x20 || b = 0x09 || b = 0x0A || b = 0x0D

/-- The text from its first byte on that is not blank. -/
def skipBlank (bs : Bytes) : Bytes := bs.dropWhile isBlank

/-- The text after a word. -/
def word? (w bs : Bytes) : Option Bytes := if w.isPrefixOf bs then some (bs.drop w.length) else none

/-- The text after one byte, with blanks before it. -/
def mark? (b : UInt8) (bs : Bytes) : Option Bytes :=
  match skipBlank bs with
  | c :: rest => if c = b then some rest else none
  | [] => none

mutual

/-- Takes a value off the front. Each step into a value and to the next item takes one unit of
fuel. -/
def value? : Nat → Bytes → Option (Json × Bytes)
  | 0, _ => none
  | fuel + 1, bs =>
    match skipBlank bs with
    | [] => none
    | b :: rest =>
      if b = 0x22 then (Escape.scan rest).map fun (raw, rest) => (.string raw, rest)
      else if b = 0x5B then
        match mark? 0x5D rest with
        | some rest => some (.array [], rest)
        | none => (items? fuel rest).map fun (js, rest) => (.array js, rest)
      else if b = 0x7B then
        match mark? 0x7D rest with
        | some rest => some (.object [], rest)
        | none => (members? fuel rest).map fun (ms, rest) => (.object ms, rest)
      else if b = 0x6E then (word? nullWord (b :: rest)).map fun rest => (.null, rest)
      else if b = 0x74 then (word? trueWord (b :: rest)).map fun rest => (.bool true, rest)
      else if b = 0x66 then (word? falseWord (b :: rest)).map fun rest => (.bool false, rest)
      else (Number.scan (b :: rest)).map fun (n, rest) => (.number n, rest)

/-- Takes one or more items and the closing bracket off the front. -/
def items? : Nat → Bytes → Option (List Json × Bytes)
  | 0, _ => none
  | fuel + 1, bs =>
    match value? fuel bs with
    | none => none
    | some (j, rest) =>
      match mark? 0x2C rest with
      | some rest => (items? fuel rest).map fun (js, rest) => (j :: js, rest)
      | none => (mark? 0x5D rest).map fun rest => ([j], rest)

/-- Takes one or more members and the closing bracket off the front. -/
def members? : Nat → Bytes → Option (List (Bytes × Json) × Bytes)
  | 0, _ => none
  | fuel + 1, bs =>
    match (mark? 0x22 bs).bind Escape.scan with
    | none => none
    | some (name, rest) =>
      match (mark? 0x3A rest).bind (value? fuel) with
      | none => none
      | some (j, rest) =>
        match mark? 0x2C rest with
        | some rest => (members? fuel rest).map fun (ms, rest) => ((name, j) :: ms, rest)
        | none => (mark? 0x7D rest).map fun rest => ([(name, j)], rest)

end

/-- The tree of a whole text. Every step takes a byte, so the length of the text bounds the steps. -/
def parse? (bs : Bytes) : Option Json :=
  match value? (2 * bs.length + 1) bs with
  | some (j, rest) => if (skipBlank rest).isEmpty then some j else none
  | none => none

end Json

end SegmentStore
