import SegmentStore.Bytes.Word
import SegmentStore.Float64.Decimal

/-!
# Numbers in JSON texts

A number is kept as it was written, digit by digit, since what it means depends on who asks: a column id
has to be written as a whole number, a double takes any number.

* `Number.scan` takes a number off the front of a text, `Number.render` writes one.
* `Number.int?` is the whole number that was written, `Number.toFloat?` the double.
* `Number.ofInt` and `Number.ofFloat` are the numbers that writers write.
-/

namespace SegmentStore

/-- A number as it was written. -/
structure Number where
  negative : Bool
  /-- The digits before the point. -/
  whole : Bytes
  /-- The digits after the point, none without a point. -/
  fraction : Bytes
  /-- The digits of the exponent, and whether it is negative. -/
  exponent? : Option (Bool × Bytes)
  deriving DecidableEq

namespace Number

/-! ### Digits -/

/-- The byte is one of the ten digits. -/
def isDigit (b : UInt8) : Bool := 0x30 ≤ b && b ≤ 0x39

/-- The natural with the given digits. -/
def natOf (ds : Bytes) : Nat := ds.foldl (fun n d => 10 * n + (d.toNat - 0x30)) 0

/-- The bytes of some digits. -/
def digitBytes (cs : List Char) : Bytes := cs.map fun c => UInt8.ofNat c.toNat

/-- The digits of a natural. -/
def digitsOf (n : Nat) : Bytes := digitBytes (Nat.toDigits 10 n)

/-! ### Scanning -/

/-- The digits at the front, at least one. -/
def digits? (bs : Bytes) : Option (Bytes × Bytes) :=
  let (ds, rest) := bs.span isDigit
  if ds.isEmpty then none else some (ds, rest)

/-- A sign at the front, if it is a minus. -/
def minus (bs : Bytes) : Bool × Bytes :=
  match bs with
  | b :: rest => if b = 0x2D then (true, rest) else (false, bs)
  | [] => (false, [])

/-- A point and digits after it. Without a point there are no digits. -/
def fractionPart? (bs : Bytes) : Option (Bytes × Bytes) :=
  match bs with
  | b :: rest => if b = 0x2E then digits? rest else some ([], bs)
  | [] => some ([], [])

/-- The sign and the digits of an exponent. -/
def exponentDigits? (bs : Bytes) : Option ((Bool × Bytes) × Bytes) :=
  let (negative, rest) := match bs with
    | b :: rest => if b = 0x2B then (false, rest) else minus bs
    | [] => (false, [])
  (digits? rest).map fun (ds, rest) => ((negative, ds), rest)

/-- An exponent, if there is one. -/
def exponentPart? (bs : Bytes) : Option (Option (Bool × Bytes) × Bytes) :=
  match bs with
  | b :: rest =>
    if b = 0x65 ∨ b = 0x45 then (exponentDigits? rest).map fun (e, rest) => (some e, rest)
    else some (none, bs)
  | [] => some (none, [])

/-- Takes a number off the front. A zero is not followed by more digits. -/
def scan (bs : Bytes) : Option (Number × Bytes) := do
  let (negative, rest) := minus bs
  let (whole, rest) ← digits? rest
  guard (whole.head? ≠ some 0x30 ∨ whole.length = 1)
  let (fraction, rest) ← fractionPart? rest
  let (exponent?, rest) ← exponentPart? rest
  return (⟨negative, whole, fraction, exponent?⟩, rest)

/-- The text of a number. -/
def render (n : Number) : Bytes :=
  (if n.negative then [0x2D] else []) ++ n.whole
    ++ (if n.fraction.isEmpty then [] else 0x2E :: n.fraction)
    ++ match n.exponent? with
      | none => []
      | some (negative, ds) => 0x65 :: (if negative then 0x2D else 0x2B) :: ds

/-! ### Whole numbers -/

/-- The whole number that was written: without point and exponent, and no negative zero. -/
def int? (n : Number) : Option Int :=
  if n.fraction.isEmpty && n.exponent?.isNone then
    let m := natOf n.whole
    if n.negative then (if m = 0 then none else some (-m)) else some m
  else none

/-- A whole number. -/
def ofInt (n : Int) : Number := ⟨n < 0, digitsOf n.natAbs, [], none⟩

/-! ### Doubles -/

/-- Takes digits into a significand as long as it fits 64 bits, and gives the digits that are left. -/
def takeDigits (significand : Nat) : Bytes → Nat × Bytes
  | [] => (significand, [])
  | d :: ds =>
    let next := 10 * significand + (d.toNat - 0x30)
    if next < UInt64.size then takeDigits next ds else (significand, d :: ds)

/-- The greatest power of ten that is a finite double. -/
def greatestPower : Nat := 308

/-- The nearest double to a power of ten. -/
def power (e : Nat) : Float64 := .ofNat false (Float64.tenTo e)

/-- Divides by a power of ten, in steps of the greatest power. -/
def scaleDown (x : Float64) (e : Nat) : Float64 :=
  if e ≤ greatestPower then x.divRounded (power e)
  else if x.magnitude = 0 then x
  else scaleDown (x.divRounded (power greatestPower)) (e - greatestPower)
termination_by e
decreasing_by
  simp only [greatestPower] at *
  omega

/-- Multiplies by a power of ten, if the product is finite. -/
def scaleUp? (x : Float64) (e : Nat) : Option Float64 :=
  if greatestPower < e then (if x.magnitude = 0 then some x else none)
  else
    let y := x.mulRounded (power e)
    if y.isInfinite then none else some y

/-- The exponent that was written. -/
def exponentValue (n : Number) : Int :=
  match n.exponent? with
  | none => 0
  | some (negative, ds) => if negative then -(natOf ds : Int) else natOf ds

/-- The double that a number stands for, none beyond the range. At most 64 bits of the digits count,
and both the significand and its scaling are rounded. -/
def toFloat? (n : Number) : Option Float64 :=
  let (whole, dropped) := takeDigits 0 n.whole
  let (significand, unread) := takeDigits whole n.fraction
  let places : Int := n.fraction.length - unread.length
  let exponent := n.exponentValue + dropped.length - places
  let x := Float64.ofNat false significand
  let scaled :=
    if 0 ≤ exponent then scaleUp? x exponent.toNat else some (scaleDown x (-exponent).toNat)
  scaled.map fun y => if n.negative then y.neg else y

/-- The shortest decimal of a finite double, with a digit after the point or an exponent. It is written
without an exponent where the exponent of the leading digit is from -5 to 15. -/
def ofFloat (x : Float64) : Number :=
  if x.magnitude = 0 then ⟨x.negative, [0x30], [0x30], none⟩
  else
    let d := x.shortest .even
    let ds := digitsOf d.coefficient
    if -5 ≤ d.leading ∧ d.leading ≤ 15 then
      if 0 ≤ d.exponent then
        ⟨x.negative, ds ++ List.replicate d.exponent.toNat 0x30, [0x30], none⟩
      else
        let places := (-d.exponent).toNat
        if places < ds.length then
          ⟨x.negative, ds.take (ds.length - places), ds.drop (ds.length - places), none⟩
        else
          ⟨x.negative, [0x30], List.replicate (places - ds.length) 0x30 ++ ds, none⟩
    else
      ⟨x.negative, ds.take 1, ds.drop 1, some (d.leading < 0, digitsOf d.leading.natAbs)⟩

end Number

end SegmentStore
