import SegmentStore.Text.Utf8

/-!
# Strings in JSON texts

* `Escape.encode` writes text so that it can stand between quotes, `Escape.decode?` reads it back.
* `Escape.scan` takes what stands between quotes off the front of a text, without decoding it. Bytes
  that are not text are left to whoever decodes it.
-/

namespace SegmentStore.Escape

/-- The letter of a short escape and the byte it stands for. -/
def short : List (UInt8 × UInt8) :=
  [(0x22, 0x22), (0x5C, 0x5C), (0x62, 0x08), (0x66, 0x0C), (0x6E, 0x0A), (0x72, 0x0D), (0x74, 0x09)]

/-- The value of a hexadecimal digit. -/
def hexValue? (b : UInt8) : Option Nat :=
  if 0x30 ≤ b ∧ b ≤ 0x39 then some (b.toNat - 0x30)
  else if 0x61 ≤ b ∧ b ≤ 0x66 then some (b.toNat - 0x57)
  else if 0x41 ≤ b ∧ b ≤ 0x46 then some (b.toNat - 0x37)
  else none

/-- The number with four hexadecimal digits. -/
def unit? (a b c d : UInt8) : Option Nat := do
  let a ← hexValue? a
  let b ← hexValue? b
  let c ← hexValue? c
  let d ← hexValue? d
  return ((a * 16 + b) * 16 + c) * 16 + d

/-! ### Writing -/

/-- A hexadecimal digit in lower case. -/
def hexDigit (n : Nat) : UInt8 := UInt8.ofNat (if n < 10 then 0x30 + n else 0x57 + n)

/-- One byte of a text between quotes. -/
def encodeByte (b : UInt8) : Bytes :=
  match short.find? fun e => e.2 = b with
  | some e => [0x5C, e.1]
  | none =>
    if b < 0x20 then [0x5C, 0x75, 0x30, 0x30, hexDigit (b.toNat / 16), hexDigit (b.toNat % 16)]
    else [b]

/-- The bytes of a text between quotes. -/
def encode (s : String) : Bytes := (Utf8.encode s).flatMap encodeByte

/-! ### Reading -/

/-- What stands before the closing quote, and what comes after it. Control characters and unknown
escapes are refused. -/
def scan : Bytes → Option (Bytes × Bytes)
  | [] => none
  | b :: bs =>
    if b = 0x22 then some ([], bs)
    else if b < 0x20 then none
    else if b = 0x5C then
      match bs with
      | [] => none
      | e :: bs =>
        if e = 0x75 then
          match bs with
          | h1 :: h2 :: h3 :: h4 :: bs =>
            if (unit? h1 h2 h3 h4).isSome then
              (scan bs).map fun (raw, rest) => (b :: e :: h1 :: h2 :: h3 :: h4 :: raw, rest)
            else none
          | _ => none
        else if e = 0x2F ∨ (short.lookup e).isSome then
          (scan bs).map fun (raw, rest) => (b :: e :: raw, rest)
        else none
    else (scan bs).map fun (raw, rest) => (b :: raw, rest)

/-- The bytes of the character with the given number. -/
def scalar (n : Nat) : Bytes := Utf8.encode (String.singleton (Char.ofNat n))

/-- Bytes between quotes without their escapes. Surrogates come in pairs. -/
def unescape : Bytes → Option Bytes
  | [] => some []
  | b :: bs =>
    if b = 0x5C then
      match bs with
      | [] => none
      | e :: bs =>
        if e = 0x75 then
          match bs with
          | h1 :: h2 :: h3 :: h4 :: bs =>
            match unit? h1 h2 h3 h4 with
            | none => none
            | some n =>
              if 0xD800 ≤ n ∧ n < 0xDC00 then
                match bs with
                | s :: u :: l1 :: l2 :: l3 :: l4 :: bs =>
                  match unit? l1 l2 l3 l4 with
                  | none => none
                  | some m =>
                    if s = 0x5C ∧ u = 0x75 ∧ 0xDC00 ≤ m ∧ m < 0xE000 then
                      (unescape bs).map
                        (scalar (0x10000 + (n - 0xD800) * 0x400 + (m - 0xDC00)) ++ ·)
                    else none
                | _ => none
              else if 0xDC00 ≤ n ∧ n < 0xE000 then none
              else (unescape bs).map (scalar n ++ ·)
          | _ => none
        else if e = 0x2F then (unescape bs).map (e :: ·)
        else
          match short.lookup e with
          | some c => (unescape bs).map (c :: ·)
          | none => none
    else (unescape bs).map (b :: ·)

/-- The text between quotes. -/
def decode? (raw : Bytes) : Option String := (unescape raw).bind Utf8.decode?

end SegmentStore.Escape
