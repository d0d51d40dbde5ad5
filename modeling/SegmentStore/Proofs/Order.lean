import Mathlib.Data.String.Basic
import Mathlib.Data.Prod.Lex
import SegmentStore.Value.Basic

/-!
# The order of values

* `Value.key` sends a value to a linear order: its type, then its number, then its text.
* `Value.lt_iff_key`, `Value.le_iff_key` and `Value.eqv_iff_key` say that the order of values is that of
  their keys, so it is total and transitive, and values of one key are interchangeable in comparisons.
* `Value.eq_of_eqv` says which values equal no other one: all but zeros and NaNs.
-/

namespace SegmentStore

namespace Value

/-- The number that decides between two values of one type, zero where texts decide. -/
def number : Value → ℤ
  | .null => 0
  | .bool b => b.toNat
  | .int32 n => n.toInt
  | .int64 n => n.toInt
  | .float64 x => x.rank
  | .string _ => 0

/-- The text that decides between two strings. -/
def text : Value → String
  | .string s => s
  | _ => ""

/-- The place of a value in the order of values. -/
def key (v : Value) : ℕ ×ₗ ℤ ×ₗ String := toLex (v.typeRank, toLex (v.number, v.text))

theorem compare_eq_lt (a b : Value) : a.compare b = .lt ↔ a.key < b.key := by
  cases a <;> cases b <;>
    simp [compare, key, number, text, typeRank, Prod.Lex.toLex_lt_toLex, Float64.compare,
      compare_lt_iff_lt, compareOfLessAndEq_eq_lt]

theorem compare_eq_gt (a b : Value) : a.compare b = .gt ↔ b.key < a.key := by
  cases a <;> cases b <;>
    simp [compare, key, number, text, typeRank, Prod.Lex.toLex_lt_toLex, Float64.compare,
      compare_gt_iff_gt, compareOfLessAndEq_eq_gt le_antisymm le_total not_le]

theorem lt_iff_key {a b : Value} : a.lt b = true ↔ a.key < b.key := by
  rw [lt, beq_iff_eq, compare_eq_lt]

theorem le_iff_key {a b : Value} : a.le b = true ↔ a.key ≤ b.key := by
  rw [le, bne_iff_ne, ne_eq, compare_eq_gt, not_lt]

theorem eqv_iff_key {a b : Value} : a.eqv b = true ↔ a.key = b.key := by
  rw [eqv, beq_iff_eq]
  constructor
  · intro h
    have hlt : ¬a.key < b.key := by simp [← compare_eq_lt, h]
    have hgt : ¬b.key < a.key := by simp [← compare_eq_gt, h]
    exact le_antisymm (not_lt.mp hgt) (not_lt.mp hlt)
  · intro h
    have hlt : a.compare b ≠ .lt := fun hc => ((compare_eq_lt a b).mp hc).ne h
    have hgt : a.compare b ≠ .gt := fun hc => ((compare_eq_gt a b).mp hc).ne h.symm
    cases hc : a.compare b with
    | lt => exact absurd hc hlt
    | eq => rfl
    | gt => exact absurd hc hgt

/-- Null stands alone in the order. -/
theorem isNull_iff_key {v : Value} : v.isNull = true ↔ v.key = Value.null.key := by
  cases v <;> simp [isNull, key, typeRank, number, text]

end Value

/-! ### Equal values that are not the same -/

namespace Float64

theorem magnitude_lt (x : Float64) : x.magnitude < signBit := Nat.mod_lt _ (by decide)

/-- A double is made of its sign and its magnitude. -/
theorem toNat_bits (x : Float64) :
    x.bits.toNat = x.magnitude + if x.negative then signBit else 0 := by
  have hlt := x.bits.toNat_lt
  by_cases hneg : signBit ≤ x.bits.toNat
  · have hsign : x.negative = true := decide_eq_true hneg
    rw [hsign, if_pos rfl, magnitude]
    unfold signBit at hneg ⊢
    omega
  · have hsign : x.negative = false := decide_eq_false hneg
    rw [hsign, if_neg Bool.false_ne_true, magnitude]
    unfold signBit at hneg ⊢
    omega

/-- NaNs come after every other double. -/
theorem rank_lt {x : Float64} (h : ¬x.isNaN = true) : x.rank < signBit := by
  have hlt := x.magnitude_lt
  rw [rank, if_neg h]
  split <;> omega

/-- Doubles of one rank are the same, or both are NaNs, or both are zeros. -/
theorem eq_of_rank_eq {x y : Float64} (h : x.rank = y.rank) :
    x = y ∨ x.isNaN = true ∧ y.isNaN = true ∨ x.magnitude = 0 ∧ y.magnitude = 0 := by
  by_cases hx : x.isNaN = true
  · by_cases hy : y.isNaN = true
    · exact .inr (.inl ⟨hx, hy⟩)
    · have hlt := rank_lt hy
      rw [← h, rank, if_pos hx] at hlt
      exact absurd hlt (lt_irrefl _)
  · by_cases hy : y.isNaN = true
    · have hlt := rank_lt hx
      rw [h, rank, if_pos hy] at hlt
      exact absurd hlt (lt_irrefl _)
    · rw [rank, rank, if_neg hx, if_neg hy] at h
      have hxbits := x.toNat_bits
      have hybits := y.toNat_bits
      by_cases hzero : x.magnitude = 0 ∧ y.magnitude = 0
      · exact .inr (.inr hzero)
      · -- one of the magnitudes is not zero, so the signs agree
        refine .inl (congrArg Float64.mk (UInt64.toNat_inj.mp ?_))
        cases hxs : x.negative <;> cases hys : y.negative <;> simp [hxs, hys] at h hxbits hybits <;> omega

end Float64

namespace Value

/-- Zeros and NaNs are doubles that equal doubles of other bits. -/
def hasTwins : Value → Bool
  | .float64 x => x.isNaN || x.magnitude = 0
  | _ => false

/-- A value that equals one without twins is that value. -/
theorem eq_of_eqv {a b : Value} (h : a.eqv b = true) (hb : b.hasTwins = false) : a = b := by
  have hkey := eqv_iff_key.mp h
  simp only [key, toLex_inj, Prod.mk.injEq] at hkey
  obtain ⟨hrank, hnumber, htext⟩ := hkey
  cases b with
  | null => cases a <;> simp [typeRank] at hrank ⊢
  | bool b =>
    cases a with
    | bool a => cases a <;> cases b <;> simp [number] at hnumber ⊢
    | _ => simp [typeRank] at hrank
  | int32 n =>
    cases a <;> simp [typeRank, number] at hrank hnumber ⊢
    exact Int32.toInt_inj.mp hnumber
  | int64 n =>
    cases a <;> simp [typeRank, number] at hrank hnumber ⊢
    exact Int64.toInt_inj.mp hnumber
  | float64 y =>
    cases a <;> simp [typeRank, number] at hrank hnumber ⊢
    simp only [hasTwins, Bool.or_eq_false_iff, decide_eq_false_iff_not] at hb
    rcases Float64.eq_of_rank_eq hnumber with hsame | ⟨-, hnan⟩ | ⟨-, hzero⟩
    · exact hsame
    · rw [hnan] at hb
      exact absurd hb.1 (by decide)
    · exact absurd hzero hb.2
  | string s =>
    cases a <;> simp [typeRank, text] at hrank htext ⊢
    exact htext

end Value

end SegmentStore
