/-!
# Double precision numbers by their bits

A column of doubles stores, compares and prints bit patterns, so a double is kept as its IEEE 754
word: the payload of a NaN and the sign of zero survive every step.

* `Float64.rank` is the order of the column values: all NaNs share the greatest rank and both zeros
  share rank zero.
* `Float64.parts` writes a finite double as an integer times a power of two.
* `Float64.ofRatio` rounds a quotient of naturals to the nearest double, a tie to the even one.
-/

namespace SegmentStore

/-- A double, held as its IEEE 754 bit pattern. -/
structure Float64 where
  /-- Sign, exponent and fraction, most significant first. -/
  bits : UInt64
  deriving DecidableEq, Inhabited, Hashable

namespace Float64

/-- The bit of the sign. -/
def signBit : Nat := 0x8000000000000000

/-- The bit above the fraction. -/
def hiddenBit : Nat := 0x10000000000000

/-- The magnitude of an infinity: every greater magnitude is a NaN. -/
def infinityMagnitude : Nat := 0x7FF0000000000000

/-- The bits below the sign. -/
def magnitude (x : Float64) : Nat := x.bits.toNat % signBit

/-- The sign bit is set. -/
def negative (x : Float64) : Bool := signBit ≤ x.bits.toNat

/-- The double with the given sign and magnitude. -/
def ofMagnitude (neg : Bool) (magnitude : Nat) : Float64 :=
  ⟨UInt64.ofNat (magnitude + if neg then signBit else 0)⟩

def isNaN (x : Float64) : Bool := infinityMagnitude < x.magnitude

def isInfinite (x : Float64) : Bool := x.magnitude = infinityMagnitude

/-- Positive zero. -/
def zero : Float64 := ⟨0⟩

/-- Flips the sign bit. -/
def neg (x : Float64) : Float64 := ofMagnitude (!x.negative) x.magnitude

/-! ### Order -/

/-- The place of a double in the order of values. NaNs come last and are equal to each other,
the two zeros are equal. -/
def rank (x : Float64) : Int :=
  if x.isNaN then signBit else if x.negative then -(x.magnitude : Int) else x.magnitude

/-- The order of column values on doubles. -/
def compare (x y : Float64) : Ordering := Ord.compare x.rank y.rank

/-! ### Exact value -/

/-- A finite nonnegative double is `m * 2 ^ q` for its parts `(m, q)`. -/
def parts (x : Float64) : Nat × Int :=
  let field : Nat := x.magnitude / hiddenBit
  let fraction : Nat := x.magnitude % hiddenBit
  if field = 0 then (fraction, -1074) else (hiddenBit + fraction, (field : Int) - 1075)

/-- The quotient `num / den` divided by `2 ^ q`, as a new quotient. -/
def shiftRatio (num den : Nat) (q : Int) : Nat × Nat :=
  if 0 ≤ q then (num, den <<< q.toNat) else (num <<< (-q).toNat, den)

/-- The natural nearest to `num / den`, a tie to the even one. -/
def roundHalfEven (num den : Nat) : Nat :=
  let d := num / den
  let r := num % den
  if 2 * r < den then d else if den < 2 * r then d + 1 else d + d % 2

/-- The power of two of the last place of the double nearest to `num / den`: the significand takes
53 bits, or fewer at the least exponent. -/
def lastPlace (num den : Nat) : Int :=
  let q := (num.log2 : Int) - (den.log2 : Int) - 52
  let (n, d) := shiftRatio num den q
  max (-1074) (if n / d < hiddenBit then q - 1 else q)

/-- The double nearest to `num / den`, a tie to the even one, an infinity beyond the range. -/
def ofRatio (neg : Bool) (num den : Nat) : Float64 :=
  if num = 0 then ofMagnitude neg 0
  else
    let q := lastPlace num den
    let (n, d) := shiftRatio num den q
    ofMagnitude neg (min infinityMagnitude ((q + 1074).toNat * hiddenBit + roundHalfEven n d))

/-- The nearest double to a natural. -/
def ofNat (neg : Bool) (n : Nat) : Float64 := ofRatio neg n 1

/-- The rounded product of two finite nonnegative doubles. -/
def mulRounded (x y : Float64) : Float64 :=
  let (m, q) := x.parts
  let (n, r) := y.parts
  let (num, den) := shiftRatio (m * n) 1 (-(q + r))
  ofRatio false num den

/-- The rounded quotient of two finite nonnegative doubles, the second not zero. -/
def divRounded (x y : Float64) : Float64 :=
  let (m, q) := x.parts
  let (n, r) := y.parts
  let (num, den) := shiftRatio m n (r - q)
  ofRatio false num den

end Float64

end SegmentStore
