/-!
# Little-endian words

Every number in a segment file is a word of one, four or eight bytes, least significant byte first.

* `leBytes width n` writes the low `width` bytes of `n`.
* `leNat` reads bytes as a natural.
* `leBytes_leNat` says that writing what was read gives the bytes back.
-/

namespace SegmentStore

/-- A sequence of bytes, as written to and read from files. -/
abbrev Bytes := List UInt8

/-- The low `width` bytes of `n`, least significant first. -/
def leBytes : Nat → Nat → Bytes
  | 0, _ => []
  | width + 1, n => UInt8.ofNat n :: leBytes width (n / 256)

/-- The natural with the given bytes, least significant first. -/
def leNat : Bytes → Nat
  | [] => 0
  | b :: bs => b.toNat + 256 * leNat bs

@[simp]
theorem length_leBytes (width n : Nat) : (leBytes width n).length = width := by
  induction width generalizing n with
  | zero => rfl
  | succ width ih => simp [leBytes, ih]

theorem leBytes_leNat (bs : Bytes) : leBytes bs.length (leNat bs) = bs := by
  induction bs with
  | nil => rfl
  | cons b bs ih =>
    have hb := b.toNat_lt
    have hdiv : (b.toNat + 256 * leNat bs) / 256 = leNat bs := by omega
    simp only [List.length_cons, leBytes, leNat, hdiv, ih, List.cons.injEq, and_true]
    apply UInt8.toNat_inj.mp
    have hlow : (UInt8.ofNat (b.toNat + 256 * leNat bs)).toNat = (b.toNat + 256 * leNat bs) % 256 :=
      UInt8.toNat_ofNat'
    omega

/-- The four bytes of a 32-bit word. -/
def u32Bytes (x : UInt32) : Bytes := leBytes 4 x.toNat

/-- The eight bytes of a 64-bit word. -/
def u64Bytes (x : UInt64) : Bytes := leBytes 8 x.toNat

/-- A flag as one byte, one for true. -/
def flagByte (b : Bool) : UInt8 := if b then 1 else 0

end SegmentStore
