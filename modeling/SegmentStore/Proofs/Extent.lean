import SegmentStore.Proofs.Bounds
import SegmentStore.Prune.Predicate

/-!
# What predicates say of a block

Throughout, a statistic describes the values of a block.

* `Predicate.mayMatch_of_holds`: a block with a value that satisfies the predicate may match.
* `Predicate.holds_of_extent_full`: where the extent is full, every value satisfies the predicate.
* `Predicate.extent_eq_none_iff`: the extent is none exactly when the block cannot match.
* `ColumnCondition.extent_full` and `ColumnCondition.extent_none` are the same for conjunctions.
-/

namespace SegmentStore

/-! ### Conjunctions of extents -/

namespace MatchExtent

@[simp]
theorem all_nil : all [] = .full := rfl

@[simp]
theorem all_cons (x : MatchExtent) (xs : List MatchExtent) : all (x :: xs) = x.and (all xs) := rfl

theorem and_eq_full {a b : MatchExtent} : a.and b = .full ↔ a = .full ∧ b = .full := by
  cases a <;> cases b <;> simp [and]

theorem and_eq_none {a b : MatchExtent} : a.and b = .none ↔ a = .none ∨ b = .none := by
  cases a <;> cases b <;> simp [and]

theorem all_eq_full {xs : List MatchExtent} : all xs = .full ↔ ∀ x ∈ xs, x = .full := by
  induction xs with
  | nil => simp
  | cons x xs ih => simp [and_eq_full, ih]

theorem all_eq_none {xs : List MatchExtent} : all xs = .none ↔ .none ∈ xs := by
  induction xs with
  | nil => simp
  | cons x xs ih =>
    rw [all_cons, and_eq_none, ih, List.mem_cons]
    exact or_congr_left eq_comm

theorem fullUnless_ne_none (b : Bool) : fullUnless b ≠ .none := by
  cases b <;> simp [fullUnless]

theorem fullUnless_eq_full {b : Bool} : fullUnless b = .full ↔ b = false := by
  cases b <;> simp [fullUnless]

end MatchExtent

/-! ### One predicate -/

namespace Predicate

open Value

variable {s : Statistic} {vs : List Value}

theorem inBounds_iff {l : Value} : inBounds s l = true ↔ s.min.key ≤ l.key ∧ l.key ≤ s.max.key := by
  simp [inBounds, le_iff_key]

/-- A literal that equals a value of the block lies between the bounds. -/
theorem inBounds_of_eqv {v l : Value} (h : s.Describes vs) (hv : v ∈ vs) (hnull : v.isNull = false)
    (heq : v.eqv l = true) : inBounds s l = true := by
  rw [inBounds_iff, ← eqv_iff_key.mp heq]
  exact ⟨h.min_le v hv hnull, h.le_max v hv hnull⟩

/-- A comparison that some value of the block satisfies is possible by the bounds. -/
theorem mayCompare_of_holds {op : CompareOp} {v l : Value} (h : s.Describes vs) (hv : v ∈ vs)
    (hnull : v.isNull = false) (hop : op.holds v l = true) : mayCompare op s l = true := by
  have hmin := h.min_le v hv hnull
  have hmax := h.le_max v hv hnull
  cases op with
  | eq => exact inBounds_of_eqv h hv hnull hop
  | ne =>
    simp only [CompareOp.holds, Bool.not_eq_true', mayCompare, Bool.and_eq_false_imp] at hop ⊢
    intro hlow
    by_contra hhigh
    simp only [Bool.not_eq_false, eqv_iff_key] at hlow hhigh
    -- both bounds equal the literal, so does everything between them
    have heq : v.key = l.key := le_antisymm (hhigh ▸ hmax) (hlow ▸ hmin)
    simp [eqv_iff_key.mpr heq] at hop
  | lt => exact lt_iff_key.mpr (hmin.trans_lt (lt_iff_key.mp hop))
  | le => exact le_iff_key.mpr (hmin.trans (le_iff_key.mp hop))
  | gt => exact lt_iff_key.mpr ((lt_iff_key.mp hop).trans_le hmax)
  | ge => exact le_iff_key.mpr ((le_iff_key.mp hop).trans hmax)

/-- What the bounds guarantee holds of every value but null. -/
theorem holds_of_mustCompare {op : CompareOp} {v l : Value} (h : s.Describes vs) (hv : v ∈ vs)
    (hnull : v.isNull = false) (hmust : mustCompare op s l = true) : op.holds v l = true := by
  have hmin := h.min_le v hv hnull
  have hmax := h.le_max v hv hnull
  cases op with
  | eq =>
    simp only [mustCompare, Bool.and_eq_true, eqv_iff_key] at hmust
    exact eqv_iff_key.mpr (le_antisymm (hmust.2 ▸ hmax) (hmust.1 ▸ hmin))
  | ne =>
    simp only [mustCompare, Bool.or_eq_true, lt_iff_key] at hmust
    simp only [CompareOp.holds, Bool.not_eq_true', ← Bool.not_eq_true, eqv_iff_key]
    rcases hmust with hlow | hhigh
    · exact (hlow.trans_le hmin).ne'
    · exact (hmax.trans_lt hhigh).ne
  | lt => exact lt_iff_key.mpr (hmax.trans_lt (lt_iff_key.mp hmust))
  | le => exact le_iff_key.mpr (hmax.trans (le_iff_key.mp hmust))
  | gt => exact lt_iff_key.mpr ((lt_iff_key.mp hmust).trans_le hmin)
  | ge => exact le_iff_key.mpr ((le_iff_key.mp hmust).trans hmin)

/-- Bounds that guarantee a comparison leave it possible. -/
theorem mayCompare_of_mustCompare {op : CompareOp} {l : Value} (h : s.Describes vs)
    (hs : s.min.isNull = false) (hmust : mustCompare op s l = true) : mayCompare op s l = true :=
  mayCompare_of_holds h (h.min_mem hs) hs (holds_of_mustCompare h (h.min_mem hs) hs hmust)

/-- A block with a value that satisfies the predicate may match. -/
theorem mayMatch_of_holds {p : Predicate} {v : Value} (h : s.Describes vs) (hv : v ∈ vs)
    (hp : p.holds v = true) : p.mayMatch s = true := by
  cases p with
  | isNull =>
    obtain rfl := eq_null hp
    exact h.hasNull_iff.mpr hv
  | isNotNull =>
    have hmin := h.isNull_min hv (by simpa [holds] using hp)
    simp [mayMatch, Statistic.allNull, hmin]
  | compare op l =>
    simp only [holds, Bool.and_eq_true, Bool.not_eq_true'] at hp
    obtain ⟨⟨hnull, hl⟩, hop⟩ := hp
    simp [mayMatch, Statistic.allNull, h.isNull_min hv hnull, hl, mayCompare_of_holds h hv hnull hop]
  | isIn ls =>
    simp only [holds, Bool.and_eq_true, Bool.not_eq_true', List.any_eq_true] at hp
    obtain ⟨hnull, l, hl, hlnull, heq⟩ := hp
    simp only [mayMatch, Statistic.allNull, h.isNull_min hv hnull, Bool.not_false, Bool.true_and,
      List.any_eq_true, Bool.and_eq_true, Bool.not_eq_true']
    exact ⟨l, hl, hlnull, inBounds_of_eqv h hv hnull heq⟩

/-- Where the extent is full, every value of the block satisfies the predicate. -/
theorem holds_of_extent_full {p : Predicate} (h : s.Describes vs) (hp : p.extent s = .full) :
    ∀ v ∈ vs, p.holds v = true := by
  intro v hv
  cases p with
  | isNull =>
    have hall : s.allNull = true := by
      by_contra hall
      cases hflag : s.hasNull <;> simp [extent, hflag, hall] at hp
    exact h.isNull_of_min hall v hv
  | isNotNull =>
    have hflag : s.hasNull = false := by
      cases hall : s.allNull <;> simp [extent, hall, MatchExtent.fullUnless_eq_full] at hp
      exact hp
    simp [holds, h.isNull_of_hasNull hflag hv]
  | compare op l =>
    simp only [extent] at hp
    split at hp
    · simp at hp
    · rename_i hs
      split at hp
      · rename_i hmust
        have hnull := h.isNull_of_hasNull (MatchExtent.fullUnless_eq_full.mp hp) hv
        have hl : l.isNull = false := by simp_all
        simp [holds, hnull, hl, holds_of_mustCompare h hv hnull hmust]
      · split at hp <;> simp at hp
  | isIn ls =>
    simp only [extent] at hp
    split at hp
    · simp at hp
    · rename_i hs
      split at hp
      · rename_i hmust
        have hnull := h.isNull_of_hasNull (MatchExtent.fullUnless_eq_full.mp hp) hv
        simp only [Bool.and_eq_true, List.any_eq_true, eqv_iff_key] at hmust
        obtain ⟨hbounds, l, hl, heq⟩ := hmust
        -- the bounds are one key, so every value has it, and so has the literal
        have hkey : v.key = l.key := by
          rw [← heq]
          exact le_antisymm (hbounds ▸ h.le_max v hv hnull) (h.min_le v hv hnull)
        have hlnull : l.isNull = false := by
          rw [← Bool.not_eq_true, isNull_iff_key, ← hkey, ← isNull_iff_key, hnull]
          simp
        simp only [holds, hnull, Bool.not_false, Bool.true_and, List.any_eq_true, Bool.and_eq_true,
          Bool.not_eq_true']
        exact ⟨l, hl, hlnull, eqv_iff_key.mpr hkey⟩
      · split at hp <;> simp at hp

/-- The extent is none exactly when the block cannot match. -/
theorem extent_eq_none_iff {p : Predicate} (h : s.Describes vs) :
    p.extent s = .none ↔ p.mayMatch s = false := by
  cases p with
  | isNull =>
    cases hflag : s.hasNull <;> cases hall : s.allNull <;> simp [extent, mayMatch, hflag, hall]
  | isNotNull =>
    cases hall : s.allNull <;> simp [extent, mayMatch, hall, MatchExtent.fullUnless_ne_none]
  | compare op l =>
    by_cases hs : s.allNull = true ∨ l.isNull = true
    · rcases hs with hs | hs <;> simp [extent, mayMatch, hs]
    · obtain ⟨hall, hl⟩ := not_or.mp hs
      have hmin : s.min.isNull = false := by simpa [Statistic.allNull] using hall
      by_cases hmust : mustCompare op s l = true
      · have hmay := mayCompare_of_mustCompare h hmin hmust
        simp [extent, mayMatch, hall, hl, hmust, hmay, MatchExtent.fullUnless_ne_none]
      · cases hmay : mayCompare op s l <;> simp [extent, mayMatch, hall, hl, hmust, hmay]
  | isIn ls =>
    by_cases hall : s.allNull = true
    · simp [extent, mayMatch, hall]
    · have hmin : s.min.isNull = false := by simpa [Statistic.allNull] using hall
      by_cases hmust : (s.min.eqv s.max && ls.any (s.min.eqv ·)) = true
      · have hmay : (ls.any fun l => !l.isNull && inBounds s l) = true := by
          simp only [Bool.and_eq_true, List.any_eq_true] at hmust
          obtain ⟨-, l, hl, heq⟩ := hmust
          have hlnull : l.isNull = false := by
            rw [← Bool.not_eq_true, isNull_iff_key, ← eqv_iff_key.mp heq, ← isNull_iff_key, hmin]
            simp
          rw [List.any_eq_true]
          exact ⟨l, hl, by simp [hlnull, inBounds_of_eqv h (h.min_mem hmin) hmin heq]⟩
        simp [extent, mayMatch, hall, hmust, hmay, MatchExtent.fullUnless_ne_none]
      · cases hmay : (ls.any fun l => !l.isNull && inBounds s l) <;>
          simp [extent, mayMatch, hall, hmust, hmay]

end Predicate

/-! ### Conjunctions of predicates -/

namespace ColumnCondition

variable {s : Statistic} {vs : List Value} {c : ColumnCondition}

/-- A block with a value that satisfies every predicate may match. -/
theorem mayMatch_of_holds {v : Value} (h : s.Describes vs) (hv : v ∈ vs) (hc : c.holds v = true) :
    c.mayMatch s = true := by
  rw [mayMatch, List.all_eq_true]
  intro p hp
  exact Predicate.mayMatch_of_holds h hv (List.all_eq_true.mp hc p hp)

/-- A full extent means that there are predicates and that every value satisfies all of them. -/
theorem extent_full (h : s.Describes vs) (hc : c.extent s = .full) :
    c.predicates ≠ [] ∧ ∀ v ∈ vs, c.holds v = true := by
  unfold extent at hc
  split at hc
  · simp at hc
  · rename_i hne
    refine ⟨by simpa using hne, fun v hv => ?_⟩
    rw [MatchExtent.all_eq_full] at hc
    rw [holds, List.all_eq_true]
    intro p hp
    exact Predicate.holds_of_extent_full h (hc _ (List.mem_map_of_mem hp)) v hv

/-- An extent of none means that there are no predicates or that no value satisfies all of them. -/
theorem extent_none (h : s.Describes vs) (hc : c.extent s = .none) :
    c.predicates = [] ∨ ∀ v ∈ vs, c.holds v = false := by
  unfold extent at hc
  split at hc
  · rename_i hempty
    exact .inl (by simpa using hempty)
  · refine .inr fun v hv => ?_
    rw [MatchExtent.all_eq_none, List.mem_map] at hc
    obtain ⟨p, hp, hnone⟩ := hc
    rw [Predicate.extent_eq_none_iff h] at hnone
    by_contra hholds
    have hall : c.holds v = true := by simpa using hholds
    have hmay := Predicate.mayMatch_of_holds h hv (List.all_eq_true.mp hall p hp)
    rw [hmay] at hnone
    exact Bool.noConfusion hnone

end ColumnCondition

end SegmentStore
