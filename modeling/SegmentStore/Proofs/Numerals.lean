import Mathlib.Data.List.Basic
import Mathlib.Data.List.TakeDrop
import SegmentStore.Json.Number

/-!
# Whole numbers as text

A whole number is written digit by digit, and read back from its digits, whatever stands behind them that does not go
on with the number.

* `Number.natOf_digitsOf` reads the digits of a natural, and `Number.head?_digitsOf` says that the first of them is no
  zero beside others.
* `Number.Legible` says of a number that it is taken off whole. Whole numbers are (`Number.legible_ofInt`), and come to
  the same number again (`Number.int?_ofInt`).
-/

namespace SegmentStore.Number

variable {rest ds : Bytes} {n : Number}

/-! ### Digits -/

theorem bounds_of_isDigit {c : Char} (hc : c.isDigit = true) : 48 ≤ c.toNat ∧ c.toNat ≤ 57 := by
  rw [Char.isDigit, Bool.and_eq_true, decide_eq_true_iff, decide_eq_true_iff] at hc
  exact hc

theorem digitByte_toNat {c : Char} (hc : c.isDigit = true) : (UInt8.ofNat c.toNat).toNat = c.toNat := by
  have hbounds := bounds_of_isDigit hc
  rw [UInt8.toNat_ofNat']
  omega

theorem isDigit_digitByte {c : Char} (hc : c.isDigit = true) : isDigit (UInt8.ofNat c.toNat) = true := by
  rw [isDigit, Bool.and_eq_true, decide_eq_true_iff, decide_eq_true_iff, UInt8.le_iff_toNat_le, UInt8.le_iff_toNat_le,
    digitByte_toNat hc]
  exact bounds_of_isDigit hc

theorem isDigit_of_mem_digitsOf {n : Nat} {b : UInt8} (h : b ∈ digitsOf n) : isDigit b = true := by
  obtain ⟨c, hc, rfl⟩ := List.mem_map.mp h
  exact isDigit_digitByte (Nat.isDigit_of_mem_toDigits (by decide) (by decide) hc)

theorem digitsOf_ne_nil (n : Nat) : digitsOf n ≠ [] := by
  rw [digitsOf, digitBytes, ne_eq, List.map_eq_nil_iff]
  exact Nat.toDigits_ne_nil

/-- A natural is read back from its digits. -/
theorem natOf_digitsOf (n : Nat) : natOf (digitsOf n) = n := by
  have hfold : ∀ (cs : List Char) (m : Nat), (∀ c ∈ cs, c.isDigit = true) →
      (digitBytes cs).foldl (fun n d => 10 * n + (d.toNat - 0x30)) m = Nat.ofDigitChars 10 cs m := by
    intro cs
    induction cs with
    | nil => exact fun m _ => Nat.ofDigitChars_nil.symm
    | cons c cs ih =>
      intro m hcs
      obtain ⟨hc, hcs⟩ := List.forall_mem_cons.mp hcs
      rw [Nat.ofDigitChars_cons, ← ih _ hcs, digitBytes, List.map_cons, List.foldl_cons, digitByte_toNat hc]
      rfl
  rw [natOf, digitsOf, hfold _ 0 fun c hc => Nat.isDigit_of_mem_toDigits (by decide) (by decide) hc]
  exact Nat.ofDigitChars_ten_toDigits

/-- All digits but the last are those of a tenth. -/
theorem digitsOf_of_ten_le {n : Nat} (hn : 10 ≤ n) :
    digitsOf n = digitsOf (n / 10) ++ [UInt8.ofNat (Nat.digitChar (n % 10)).toNat] := by
  rw [digitsOf, digitsOf, Nat.toDigits_of_base_le (by decide) hn, digitBytes, digitBytes, List.map_append]
  rfl

theorem head?_digitsOf_of_small : ∀ n < 10, 0 < n → (digitsOf n).head? ≠ some 0x30 := by decide

theorem head?_digitsOf_of_pos {n : Nat} (hn : 0 < n) : (digitsOf n).head? ≠ some 0x30 := by
  induction n using Nat.strongRecOn with
  | ind n ih =>
    by_cases hsmall : n < 10
    · exact head?_digitsOf_of_small n hsmall hn
    · rw [digitsOf_of_ten_le (Nat.le_of_not_lt hsmall), List.head?_append_of_ne_nil _ (digitsOf_ne_nil _)]
      exact ih (n / 10) (by omega) (by omega)

/-- The first digit is no zero, unless it is the only one. -/
theorem head?_digitsOf (n : Nat) : (digitsOf n).head? ≠ some 0x30 ∨ (digitsOf n).length = 1 := by
  rcases Nat.eq_zero_or_pos n with rfl | hn
  · exact .inr rfl
  · exact .inl (head?_digitsOf_of_pos hn)

/-! ### Taking numbers off -/

/-- Text that does not go on with a number that ends before it. -/
def Ends (rest : Bytes) : Prop := ∀ b ∈ rest.head?, isDigit b = false ∧ b ≠ 0x2E ∧ b ≠ 0x65 ∧ b ≠ 0x45

theorem ends_nil : Ends [] := fun _ hb => nomatch hb

theorem ends_cons {b : UInt8} (hdigit : isDigit b = false) (hpoint : b ≠ 0x2E) (hlower : b ≠ 0x65) (hupper : b ≠ 0x45)
    (rest : Bytes) : Ends (b :: rest) := by
  intro b' hb'
  obtain rfl := Option.some.inj hb'
  exact ⟨hdigit, hpoint, hlower, hupper⟩

/-- Digits are taken off up to what is none. -/
theorem digits?_append (hds : ∀ b ∈ ds, isDigit b = true) (hne : ds ≠ []) (hrest : Ends rest) :
    digits? (ds ++ rest) = some (ds, rest) := by
  have htake : rest.takeWhile isDigit = [] ∧ rest.dropWhile isDigit = rest := by
    cases rest with
    | nil => exact ⟨rfl, rfl⟩
    | cons b rest =>
      have hb := (hrest b rfl).1
      exact ⟨List.takeWhile_cons_of_neg (by simp [hb]), List.dropWhile_cons_of_neg (by simp [hb])⟩
  rw [digits?, List.span_eq_takeWhile_dropWhile, List.takeWhile_append_of_pos hds, List.dropWhile_append_of_pos hds,
    htake.1, htake.2, List.append_nil]
  dsimp only
  rw [if_neg (by simpa using hne)]

theorem fractionPart?_of_ends (h : Ends rest) : fractionPart? rest = some ([], rest) := by
  cases rest with
  | nil => rfl
  | cons b rest => exact if_neg (h b rfl).2.1

theorem exponentPart?_of_ends (h : Ends rest) : exponentPart? rest = some (none, rest) := by
  cases rest with
  | nil => rfl
  | cons b rest => exact if_neg (not_or.mpr (h b rfl).2.2)

/-- A number that is taken off whole, whatever stands behind it that does not go on with it. -/
def Legible (n : Number) : Prop := ∀ rest, Ends rest → scan (n.render ++ rest) = some (n, rest)

/-- The text of a number starts with a digit or a minus. -/
theorem Legible.head (h : n.Legible) : ∃ b bs, n.render = b :: bs ∧ (isDigit b = true ∨ b = 0x2D) := by
  have hscan := h [] ends_nil
  rw [List.append_nil] at hscan
  cases hrender : n.render with
  | nil =>
    rw [hrender] at hscan
    cases hscan
  | cons b bs =>
    refine ⟨b, bs, rfl, ?_⟩
    by_contra hother
    obtain ⟨hdigit, hminus⟩ := not_or.mp hother
    have hnone : digits? (b :: bs) = none := by
      rw [digits?, List.span_eq_takeWhile_dropWhile, List.takeWhile_cons_of_neg hdigit]
      rfl
    rw [hrender, scan, minus, if_neg hminus] at hscan
    dsimp only at hscan
    rw [hnone] at hscan
    cases hscan

/-- A sign in front of a digit is taken off, if there is one. -/
theorem minus_append {negative : Bool} {b : UInt8} (hb : isDigit b = true) (bs : Bytes) :
    minus ((if negative then [0x2D] else []) ++ b :: bs) = (negative, b :: bs) := by
  cases negative with
  | true => rfl
  | false =>
    refine if_neg ?_
    rintro rfl
    cases hb

theorem legible_ofInt (n : Int) : (ofInt n).Legible := by
  intro rest hrest
  have hdigits : ∀ b ∈ digitsOf n.natAbs, isDigit b = true := fun b hb => isDigit_of_mem_digitsOf hb
  have hrender : (ofInt n).render ++ rest
      = (if decide (n < 0) then [0x2D] else []) ++ (digitsOf n.natAbs ++ rest) := by
    simp [render, ofInt]
  have hminus : minus ((if decide (n < 0) then [0x2D] else []) ++ (digitsOf n.natAbs ++ rest))
      = (decide (n < 0), digitsOf n.natAbs ++ rest) := by
    obtain ⟨b, bs, hcons⟩ := List.exists_cons_of_ne_nil (digitsOf_ne_nil n.natAbs)
    rw [hcons, List.cons_append]
    exact minus_append (hdigits b (hcons ▸ List.mem_cons_self)) _
  rw [hrender, scan, hminus]
  simp only [digits?_append hdigits (digitsOf_ne_nil _) hrest, fractionPart?_of_ends hrest,
    exponentPart?_of_ends hrest, guard, if_pos (head?_digitsOf n.natAbs), Option.bind_eq_bind, Option.bind_some]
  rfl

/-- A whole number is read back. -/
theorem int?_ofInt (n : Int) : (ofInt n).int? = some n := by
  rw [int?, ofInt, natOf_digitsOf]
  simp only [List.isEmpty_nil, Option.isNone_none, Bool.and_true, if_true]
  by_cases hneg : n < 0
  · rw [if_pos (decide_eq_true hneg), if_neg (by omega)]
    exact congrArg some (by omega)
  · rw [if_neg (by simpa using hneg)]
    exact congrArg some (by omega)

end SegmentStore.Number
