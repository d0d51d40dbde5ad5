import SegmentStore.Float64.Basic

/-!
# Decimal text of doubles

A double is written with the fewest decimal digits that read back as the same double.

* `Float64.shortest` finds those digits: for one digit, then two, and so on, it tries the two
  neighbours of the value on that decimal grid against the interval of reals that round to it.
* `Float64.display` is the plain form, never with an exponent and without a point after a whole number.
-/

namespace SegmentStore

namespace Float64

/-- Which way a value half way between two shortest candidates goes. -/
inductive Tie where
  | up
  | even
  deriving DecidableEq

/-- A power of ten. -/
def tenTo (n : Nat) : Nat := Nat.pow 10 n

/-- The decimal number `coefficient * 10 ^ exponent`. -/
structure Decimal where
  coefficient : Nat
  exponent : Int
  deriving DecidableEq

/-- Moves trailing zeros of the coefficient into the exponent. -/
def Decimal.trim (c : Nat) (k : Int) : Decimal :=
  if h : c ≠ 0 ∧ c % 10 = 0 then trim (c / 10) (k + 1) else ⟨c, k⟩
termination_by c
decreasing_by omega

/-- The number of decimal digits of a natural. -/
def digitCount (n : Nat) : Nat := (Nat.toDigits 10 n).length

/-- The exponent `p` with `10 ^ p ≤ num / den < 10 ^ (p + 1)`. -/
def leadingPlace (num den : Nat) : Int :=
  if den ≤ num then (digitCount (num / den) : Int) - 1 else -(digitCount ((den - 1) / num) : Int)

/-- The reals that round to one double: from `low / den` to `high / den` around `mid / den`, the ends
included when `closed`. -/
structure Interval where
  low : Nat
  mid : Nat
  high : Nat
  den : Nat
  closed : Bool

/-- The interval of a finite positive double. The gap below a power of two is half the gap above. -/
def interval (x : Float64) : Interval :=
  let (m, q) := x.parts
  let narrow := m = hiddenBit && -1074 < q
  let (unit, den) := shiftRatio 1 1 (2 - q)
  ⟨(if narrow then 4 * m - 1 else 4 * m - 2) * unit, 4 * m * unit, (4 * m + 2) * unit, den,
    m % 2 = 0⟩

/-- The multiple of `10 ^ k` in the interval that is nearest to its middle, if one of the two
neighbours of the middle is in the interval. -/
def Interval.nearest? (tie : Tie) (i : Interval) (k : Int) : Option Nat :=
  let up := if k < 0 then tenTo (-k).toNat else 1
  let den := if k < 0 then i.den else i.den * tenTo k.toNat
  let c := i.mid * up / den
  let r := i.mid * up % den
  let below := i.low * up < c * den || (i.closed && i.low * up = c * den)
  let above := (c + 1) * den < i.high * up || (i.closed && (c + 1) * den = i.high * up)
  if r = 0 then some c
  else if below && above then
    if 2 * r < den then some c
    else if den < 2 * r then some (c + 1)
    else match tie with
      | .up => some (c + 1)
      | .even => some (c + c % 2)
  else if below then some c
  else if above then some (c + 1)
  else none

/-- The shortest decimal that reads back as the finite positive double `x`, of several the nearest.
Seventeen digits always suffice. -/
def shortest (tie : Tie) (x : Float64) : Decimal :=
  let i := x.interval
  let p := leadingPlace i.mid i.den
  let hit := (List.range 17).findSome? fun (n : Nat) =>
    (i.nearest? tie (p - n)).map fun c => Decimal.trim c (p - n)
  hit.getD ⟨0, 0⟩

/-! ### Text -/

/-- Digits with the point at the place that the exponent asks for. -/
def Decimal.positional (d : Decimal) : String :=
  let ds := Nat.toDigits 10 d.coefficient
  if 0 ≤ d.exponent then
    String.ofList (ds ++ List.replicate d.exponent.toNat '0')
  else
    let places := (-d.exponent).toNat
    if places < ds.length then
      String.ofList (ds.take (ds.length - places) ++ '.' :: ds.drop (ds.length - places))
    else
      String.ofList ('0' :: '.' :: List.replicate (places - ds.length) '0' ++ ds)

/-- The exponent of the leading digit. -/
def Decimal.leading (d : Decimal) : Int := (digitCount d.coefficient : Int) - 1 + d.exponent

/-- The plain form: `1`, `0.1`, `-0`, `NaN`, `inf`. -/
def display (x : Float64) : String :=
  if x.isNaN then "NaN"
  else
    let sign := if x.negative then "-" else ""
    if x.isInfinite then sign ++ "inf"
    else if x.magnitude = 0 then sign ++ "0"
    else sign ++ (x.shortest .up).positional

end Float64

end SegmentStore
