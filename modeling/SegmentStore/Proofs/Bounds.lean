import Mathlib.Data.List.Induction
import SegmentStore.Index.Statistic
import SegmentStore.Proofs.Order

/-!
# What the bounds of a block say

* `Statistic.Describes s vs` relates a statistic to a list of values: the bounds are members that
  enclose every value but null, and the flag tells whether there is a null.
* `Statistic.describes_ofValues` says that the statistic collected value by value describes the values.
-/

namespace SegmentStore

namespace Value

theorem eq_null {v : Value} (h : v.isNull = true) : v = .null := by
  cases v <;> simp_all [isNull]

end Value

namespace Statistic

/-- The statistic tells the least and the greatest value of a list and whether it holds a null. -/
structure Describes (s : Statistic) (vs : List Value) : Prop where
  hasNull_iff : s.hasNull = true ↔ .null ∈ vs
  isNull_max : s.max.isNull = s.min.isNull
  /-- Without bounds there is nothing but nulls. -/
  isNull_of_min : s.min.isNull = true → ∀ v ∈ vs, v.isNull = true
  min_mem : s.min.isNull = false → s.min ∈ vs
  max_mem : s.max.isNull = false → s.max ∈ vs
  min_le : ∀ v ∈ vs, v.isNull = false → s.min.key ≤ v.key
  le_max : ∀ v ∈ vs, v.isNull = false → v.key ≤ s.max.key

theorem describes_empty : Describes empty [] where
  hasNull_iff := by simp [empty]
  isNull_max := rfl
  isNull_of_min := by simp
  min_mem := by simp [empty, Value.isNull]
  max_mem := by simp [empty, Value.isNull]
  min_le := by simp
  le_max := by simp

/-- A null only sets the flag. -/
theorem describes_add_null {s : Statistic} {vs : List Value} (h : Describes s vs) :
    Describes { s with hasNull := true } (vs ++ [.null]) where
  hasNull_iff := by simp
  isNull_max := h.isNull_max
  isNull_of_min hmin v hv := by
    rcases List.mem_append.mp hv with hv | hv
    · exact h.isNull_of_min hmin v hv
    · rw [List.mem_singleton.mp hv]
      rfl
  min_mem hmin := List.mem_append_left _ (h.min_mem hmin)
  max_mem hmax := List.mem_append_left _ (h.max_mem hmax)
  min_le v hv hnull := by
    rcases List.mem_append.mp hv with hv | hv
    · exact h.min_le v hv hnull
    · simp [List.mem_singleton.mp hv, Value.isNull] at hnull
  le_max v hv hnull := by
    rcases List.mem_append.mp hv with hv | hv
    · exact h.le_max v hv hnull
    · simp [List.mem_singleton.mp hv, Value.isNull] at hnull

/-- The lower bound once a value is taken into account: the value itself, where it is lower or where
there was no bound. -/
theorem min_add_cases {s : Statistic} {v : Value} (hv : v.isNull = false) :
    (s.add v).min = v ∧ (s.min.isNull = true ∨ v.key < s.min.key)
      ∨ (s.add v).min = s.min ∧ s.min.isNull = false ∧ s.min.key ≤ v.key := by
  by_cases hmin : s.min.isNull = true
  · exact .inl ⟨by simp [add, hv, hmin], .inl hmin⟩
  · by_cases hlt : v.lt s.min = true
    · exact .inl ⟨by simp [add, hv, hlt], .inr (Value.lt_iff_key.mp hlt)⟩
    · refine .inr ⟨by simp [add, hv, hlt, hmin], by simpa using hmin, ?_⟩
      exact not_lt.mp fun h => hlt (Value.lt_iff_key.mpr h)

theorem max_add_cases {s : Statistic} {v : Value} (hv : v.isNull = false) :
    (s.add v).max = v ∧ (s.max.isNull = true ∨ s.max.key < v.key)
      ∨ (s.add v).max = s.max ∧ s.max.isNull = false ∧ v.key ≤ s.max.key := by
  by_cases hmax : s.max.isNull = true
  · exact .inl ⟨by simp [add, hv, hmax], .inl hmax⟩
  · by_cases hlt : s.max.lt v = true
    · exact .inl ⟨by simp [add, hv, hlt], .inr (Value.lt_iff_key.mp hlt)⟩
    · refine .inr ⟨by simp [add, hv, hlt, hmax], by simpa using hmax, ?_⟩
      exact not_lt.mp fun h => hlt (Value.lt_iff_key.mpr h)

/-- A value that is not null may move the bounds, and leaves none missing. -/
theorem describes_add_value {s : Statistic} {vs : List Value} {v : Value} (h : Describes s vs)
    (hv : v.isNull = false) : Describes (s.add v) (vs ++ [v]) := by
  have hne : v ≠ .null := by rintro rfl; simp [Value.isNull] at hv
  have hflag : (s.add v).hasNull = s.hasNull := by simp [add, hv]
  -- one bound is missing exactly when the other is, so the cases of the two bounds go together
  have hnullMin : (s.add v).min.isNull = false := by
    rcases min_add_cases (s := s) hv with ⟨hmin, _⟩ | ⟨hmin, hs, _⟩
    · rw [hmin, hv]
    · rw [hmin, hs]
  have hnullMax : (s.add v).max.isNull = false := by
    rcases max_add_cases (s := s) hv with ⟨hmax, _⟩ | ⟨hmax, hs, _⟩
    · rw [hmax, hv]
    · rw [hmax, hs]
  refine ⟨?_, ?_, ?_, ?_, ?_, ?_, ?_⟩
  · simp [hflag, h.hasNull_iff, hne.symm]
  · rw [hnullMin, hnullMax]
  · simp [hnullMin]
  · intro _
    rcases min_add_cases (s := s) hv with ⟨hmin, _⟩ | ⟨hmin, hs, _⟩
    · simp [hmin]
    · rw [hmin]
      exact List.mem_append_left _ (h.min_mem hs)
  · intro _
    rcases max_add_cases (s := s) hv with ⟨hmax, _⟩ | ⟨hmax, hs, _⟩
    · simp [hmax]
    · rw [hmax]
      exact List.mem_append_left _ (h.max_mem hs)
  · intro x hx hxnull
    rcases min_add_cases (s := s) hv with ⟨hmin, hbelow⟩ | ⟨hmin, _, hbelow⟩ <;> rw [hmin] <;>
      rcases List.mem_append.mp hx with hx | hx
    · rcases hbelow with hs | hlt
      · simp [h.isNull_of_min hs x hx] at hxnull
      · exact hlt.le.trans (h.min_le x hx hxnull)
    · rw [List.mem_singleton.mp hx]
    · exact h.min_le x hx hxnull
    · rwa [List.mem_singleton.mp hx]
  · intro x hx hxnull
    rcases max_add_cases (s := s) hv with ⟨hmax, habove⟩ | ⟨hmax, _, habove⟩ <;> rw [hmax] <;>
      rcases List.mem_append.mp hx with hx | hx
    · rcases habove with hs | hlt
      · simp [h.isNull_of_min (h.isNull_max ▸ hs) x hx] at hxnull
      · exact (h.le_max x hx hxnull).trans hlt.le
    · rw [List.mem_singleton.mp hx]
    · exact h.le_max x hx hxnull
    · rwa [List.mem_singleton.mp hx]

theorem describes_add {s : Statistic} {vs : List Value} (h : Describes s vs) (v : Value) :
    Describes (s.add v) (vs ++ [v]) := by
  by_cases hv : v.isNull = true
  · obtain rfl := Value.eq_null hv
    exact describes_add_null h
  · exact describes_add_value h (by simpa using hv)

theorem ofValues_concat (vs : List Value) (v : Value) :
    ofValues (vs ++ [v]) = (ofValues vs).add v := by
  simp [ofValues]

/-- The statistic that is collected value by value describes the values. -/
theorem describes_ofValues (vs : List Value) : Describes (ofValues vs) vs := by
  induction vs using List.reverseRecOn with
  | nil => exact describes_empty
  | append_singleton vs v ih =>
    rw [ofValues_concat]
    exact describes_add ih v

/-! ### Consequences -/

variable {s : Statistic} {vs : List Value}

/-- Where there are bounds, the lower one is at most the upper one. -/
theorem Describes.min_le_max (h : Describes s vs) (hs : s.min.isNull = false) :
    s.min.key ≤ s.max.key :=
  h.le_max s.min (h.min_mem hs) hs

/-- A value that is not null shows that there are bounds. -/
theorem Describes.isNull_min {v : Value} (h : Describes s vs) (hv : v ∈ vs)
    (hnull : v.isNull = false) : s.min.isNull = false := by
  by_contra hs
  simp [h.isNull_of_min (by simpa using hs) v hv] at hnull

/-- Without the flag no value is null. -/
theorem Describes.isNull_of_hasNull {v : Value} (h : Describes s vs) (hflag : s.hasNull = false)
    (hv : v ∈ vs) : v.isNull = false := by
  by_contra hnull
  have hmem : Value.null ∈ vs := Value.eq_null (by simpa using hnull) ▸ hv
  simp [h.hasNull_iff.mpr hmem] at hflag

end Statistic

end SegmentStore
