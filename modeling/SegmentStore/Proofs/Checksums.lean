import Mathlib.Logic.Function.Iterate
import SegmentStore.Checksum

/-!
# What a checksum notices

Each step of the CRC can be undone: the bit that falls out of the register is seen at its top, where only the polynomial
has put a one. Two registers that differ therefore go on to differ, whatever is fed into them.

* `crcBit_injective` and `crcByte_injective` are the step, `foldl_crcByte_injective` the run.
* `Altered place xs ys` says that one byte of `xs` was changed, and `Altered.append` in which of two parts it is.
* `crc32_altered` says that the checksum is then another one, at any place of bytes of any length.
-/

namespace SegmentStore

/-! ### The register -/

theorem toNat_shiftRight_one (crc : UInt32) : (crc >>> 1).toNat = crc.toNat / 2 := by
  rw [UInt32.toNat_shiftRight]
  exact Nat.shiftRight_eq_div_pow crc.toNat 1

theorem toNat_and_one (crc : UInt32) : (crc &&& 1).toNat = crc.toNat % 2 := by
  rw [UInt32.toNat_and]
  exact Nat.and_one_is_mod crc.toNat

/-- The last bit and those before it are all there is. -/
theorem eq_of_shiftRight_one {a b : UInt32} (hlow : a &&& 1 = b &&& 1) (hhigh : a >>> 1 = b >>> 1) : a = b := by
  have hlow := congrArg UInt32.toNat hlow
  have hhigh := congrArg UInt32.toNat hhigh
  rw [toNat_and_one, toNat_and_one] at hlow
  rw [toNat_shiftRight_one, toNat_shiftRight_one] at hhigh
  apply UInt32.toNat_inj.mp
  omega

theorem and_one_eq (crc : UInt32) : crc &&& 1 = 1 ∨ crc &&& 1 = 0 := by
  have hlow := toNat_and_one crc
  rcases Nat.mod_two_eq_zero_or_one crc.toNat with hzero | hone
  · exact .inr (UInt32.toNat_inj.mp (hlow.trans hzero))
  · exact .inl (UInt32.toNat_inj.mp (hlow.trans hone))

/-- A shift leaves no bit at the top. -/
theorem testBit_shiftRight_one (crc : UInt32) : (crc >>> 1).toNat.testBit 31 = false := by
  have hlt := crc.toNat_lt
  rw [toNat_shiftRight_one]
  exact Nat.testBit_lt_two_pow (by omega)

/-- The polynomial has a bit there. -/
theorem testBit_polynomial (crc : UInt32) : ((crc >>> 1) ^^^ 0xEDB88320).toNat.testBit 31 = true := by
  rw [UInt32.toNat_xor, Nat.testBit_xor, testBit_shiftRight_one]
  decide

theorem testBit_crcBit (crc : UInt32) : (crcBit crc).toNat.testBit 31 = decide (crc &&& 1 = 1) := by
  rw [crcBit]
  split
  · rename_i hlow
    rw [testBit_polynomial, decide_eq_true hlow]
  · rename_i hlow
    rw [testBit_shiftRight_one, decide_eq_false hlow]

theorem crcBit_injective : Function.Injective crcBit := by
  intro a b h
  -- the top bit of what comes out tells which bit has fallen out
  have htop : (a &&& 1 = 1) ↔ (b &&& 1 = 1) := by
    have hbit := testBit_crcBit a
    rw [h, testBit_crcBit] at hbit
    exact (decide_eq_decide.mp hbit).symm
  rw [crcBit, crcBit] at h
  by_cases hlow : a &&& 1 = 1
  · have hlow' := htop.mp hlow
    rw [if_pos hlow, if_pos hlow'] at h
    exact eq_of_shiftRight_one (hlow.trans hlow'.symm) ((UInt32.xor_left_inj _).mp h)
  · have hlow' := mt htop.mpr hlow
    rw [if_neg hlow, if_neg hlow'] at h
    have hzero := (and_one_eq a).resolve_left hlow
    have hzero' := (and_one_eq b).resolve_left hlow'
    exact eq_of_shiftRight_one (hzero.trans hzero'.symm) h

theorem crcByte_eq (crc : UInt32) (b : UInt8) : crcByte crc b = crcBit^[8] (crc ^^^ b.toUInt32) := rfl

/-- Registers that differ still differ after one more byte. -/
theorem crcByte_injective (b : UInt8) : Function.Injective fun crc => crcByte crc b := by
  intro crc crc' h
  dsimp only at h
  rw [crcByte_eq, crcByte_eq] at h
  exact (UInt32.xor_left_inj _).mp (crcBit_injective.iterate 8 h)

/-- Different bytes make different registers of one. -/
theorem crcByte_injective_right (crc : UInt32) : Function.Injective (crcByte crc) := by
  intro b b' h
  rw [crcByte_eq, crcByte_eq] at h
  exact UInt8.toUInt32_inj.mp ((UInt32.xor_right_inj _).mp (crcBit_injective.iterate 8 h))

theorem foldl_crcByte_injective (bs : Bytes) : Function.Injective fun crc => bs.foldl crcByte crc := by
  induction bs with
  | nil => exact Function.injective_id
  | cons b bs ih =>
    intro crc crc' h
    exact crcByte_injective b (ih h)

theorem crc32_injective_middle (front back : Bytes) :
    Function.Injective fun b => crc32 (front ++ b :: back) := by
  intro b b' h
  have h := (UInt32.xor_left_inj _).mp h
  rw [List.foldl_append, List.foldl_append, List.foldl_cons, List.foldl_cons] at h
  exact crcByte_injective_right _ (foldl_crcByte_injective back h)

/-! ### One byte changed -/

/-- The byte at one place was changed to another one, and nothing else. -/
def Altered (place : Nat) (xs ys : Bytes) : Prop :=
  ∃ old new, xs[place]? = some old ∧ new ≠ old ∧ ys = xs.set place new

namespace Altered

variable {place : Nat} {xs ys zs : Bytes}

theorem length_eq (h : Altered place xs ys) : ys.length = xs.length := by
  obtain ⟨old, new, -, -, rfl⟩ := h
  exact List.length_set

theorem place_lt (h : Altered place xs ys) : place < xs.length := by
  obtain ⟨old, new, hold, -, -⟩ := h
  exact (List.getElem?_eq_some_iff.mp hold).1

theorem ne (h : Altered place xs ys) : ys ≠ xs := by
  have hlt := h.place_lt
  obtain ⟨old, new, hold, hnew, rfl⟩ := h
  intro hsame
  rw [← hsame, List.getElem?_set_self hlt] at hold
  exact hnew (Option.some.inj hold)

/-- The byte is in one part or in the other. -/
theorem append (h : Altered place (xs ++ zs) ys) :
    (∃ xs', Altered place xs xs' ∧ ys = xs' ++ zs)
      ∨ xs.length ≤ place ∧ ∃ zs', Altered (place - xs.length) zs zs' ∧ ys = xs ++ zs' := by
  obtain ⟨old, new, hold, hnew, rfl⟩ := h
  rw [List.set_append]
  rw [List.getElem?_append] at hold
  by_cases hleft : place < xs.length
  · rw [if_pos hleft] at hold ⊢
    exact .inl ⟨xs.set place new, ⟨old, new, hold, hnew, rfl⟩, rfl⟩
  · rw [if_neg hleft] at hold ⊢
    exact .inr ⟨by omega, zs.set (place - xs.length) new, ⟨old, new, hold, hnew, rfl⟩, rfl⟩

end Altered

/-- One byte changed changes the checksum. -/
theorem crc32_altered {place : Nat} {xs ys : Bytes} (h : Altered place xs ys) : crc32 ys ≠ crc32 xs := by
  obtain ⟨old, new, hold, hnew, rfl⟩ := h
  obtain ⟨hlt, rfl⟩ := List.getElem?_eq_some_iff.mp hold
  have hxs : xs = xs.take place ++ xs[place] :: xs.drop (place + 1) := by
    rw [List.getElem_cons_drop, List.take_append_drop]
  have hys : xs.set place new = xs.take place ++ new :: xs.drop (place + 1) := by
    rw [List.set_eq_take_append_cons_drop, if_pos hlt]
  rw [hys]
  intro hsame
  exact hnew (crc32_injective_middle (xs.take place) (xs.drop (place + 1)) (hsame.trans (congrArg crc32 hxs)))

theorem crc32_of_verify {what : Checked} {stored : UInt32} {bs : Bytes} (h : verify what stored bs = .ok ()) :
    crc32 bs = stored := by
  rw [verify] at h
  split at h
  · assumption
  · cases h

theorem verify_of_ne {what : Checked} {stored : UInt32} {bs : Bytes} (h : crc32 bs ≠ stored) :
    verify what stored bs = .error (.checksum what stored (crc32 bs)) := if_neg h

end SegmentStore
