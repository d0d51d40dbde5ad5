import SegmentStore.Text.Utf8
import SegmentStore.Text.Printable

/-!
# Bytes shown inside quotes

* `Text.lossy` reads bytes as text and puts U+FFFD for every stretch that is no character.
* `Text.quoted` shows text between double quotes on one line, escaping what has no printed form.
-/

namespace SegmentStore.Text

/-- The characters of a byte sequence, with U+FFFD for every bad stretch. -/
def lossy : Bytes → List Char
  | [] => []
  | b :: bs =>
    match h : Utf8.next b bs with
    | .char c r =>
      have : r.length ≤ bs.length := by
        have := Utf8.length_rest_next b bs
        rw [h] at this
        exact this
      c :: lossy r
    | .bad _ r =>
      have : r.length ≤ bs.length := by
        have := Utf8.length_rest_next b bs
        rw [h] at this
        exact this
      '\uFFFD' :: lossy r
termination_by bs => bs.length

/-- The escape of a code point by its number. -/
def codePointEscape (c : Char) : String :=
  "\\u\x7b" ++ String.ofList (Nat.toDigits 16 c.toNat) ++ "\x7d"

/-- One character between double quotes. -/
def quotedChar (c : Char) : String :=
  if c = '\x00' then "\\0"
  else if c = '\t' then "\\t"
  else if c = '\r' then "\\r"
  else if c = '\n' then "\\n"
  else if c = '\\' then "\\\\"
  else if c = '"' then "\\\""
  else if Printable.inSet Printable.extending c.toNat || Printable.inSet Printable.hidden c.toNat then
    codePointEscape c
  else c.toString

/-- Text between double quotes. -/
def quoted (cs : List Char) : String :=
  "\"" ++ cs.foldl (fun s c => s ++ quotedChar c) "" ++ "\""

end SegmentStore.Text
