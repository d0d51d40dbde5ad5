import SegmentStore.Proofs.Extent
import SegmentStore.Segment.Writer

/-!
# How much the bounds of a block tell

Of a block that has values a statistic says no more than that they lie between the bounds, and whether there are nulls.
Predicates make the most of that: where they leave something open, it is open.

* `Statistic.Collected` relates a statistic to the lists of values that it may have been collected from.
  `Statistic.Collected.concat` says that a value between the bounds can always be added to such a list.
* `Predicate.mayCompare_iff` and `Predicate.mustCompare_iff`: the tables of comparisons say whether some value between
  the bounds satisfies the comparison, and whether all of them do.
* `Predicate.exists_holds_of_mayMatch` and `Predicate.exists_mixed_of_extent_some` give the lists that leave no other
  answer.
* `Statistic.mayMatch_tight` and `Statistic.extent_tight` say all that the two tests tell of a list of values.
-/

namespace SegmentStore

/-! ### Values between two others -/

namespace Value

theorem typeRank_eq_zero {v : Value} : v.typeRank = 0 ↔ v.isNull = true := by
  cases v <;> simp [typeRank, isNull]

/-- A type accepts null and the values that are ranked as its default is. -/
theorem accepts_iff_typeRank (ty : FieldType) (v : Value) :
    ty.accepts v = true ↔ v.typeRank = 0 ∨ v.typeRank = ty.default.typeRank := by
  cases ty <;> cases v <;> simp [FieldType.accepts, FieldType.default, typeRank]

theorem typeRank_le {a b : Value} (h : a.key ≤ b.key) : a.typeRank ≤ b.typeRank := by
  rw [key, key, Prod.Lex.toLex_le_toLex] at h
  rcases h with hlt | ⟨heq, -⟩
  · exact hlt.le
  · exact heq.le

/-- What lies between two values of a type is a value of that type. -/
theorem between_typed {ty : FieldType} {a b v : Value} (ha : ty.accepts a = true) (hb : ty.accepts b = true)
    (hnull : a.isNull = false) (hle : a.key ≤ v.key) (hle' : v.key ≤ b.key) :
    v.isNull = false ∧ ty.accepts v = true := by
  have hbelow := typeRank_le hle
  have habove := typeRank_le hle'
  have hpos : a.typeRank ≠ 0 := by simp [typeRank_eq_zero, hnull]
  rw [accepts_iff_typeRank] at ha hb ⊢
  have hv : v.typeRank ≠ 0 := by omega
  refine ⟨?_, by omega⟩
  simpa [typeRank_eq_zero] using hv

end Value

/-! ### Lists of one statistic -/

namespace Statistic

/-- The values are of the type, and the statistic is collected from them. -/
structure Collected (s : Statistic) (ty : FieldType) (vs : List Value) : Prop where
  accepted : ∀ v ∈ vs, ty.accepts v = true
  eq : ofValues vs = s

variable {s : Statistic} {ty : FieldType} {vs : List Value}

theorem Collected.describes (h : s.Collected ty vs) : s.Describes vs := by
  rw [← h.eq]
  exact describes_ofValues vs

theorem Collected.isNull_max (h : s.Collected ty vs) (hs : s.min.isNull = false) : s.max.isNull = false := by
  rw [h.describes.isNull_max]
  exact hs

/-- What lies between the bounds is a value of the type. -/
theorem Collected.typed_of_inBounds (h : s.Collected ty vs) (hs : s.min.isNull = false) {v : Value}
    (hv : Predicate.inBounds s v = true) : v.isNull = false ∧ ty.accepts v = true := by
  obtain ⟨hle, hle'⟩ := Predicate.inBounds_iff.mp hv
  have hmin := h.accepted _ (h.describes.min_mem hs)
  have hmax := h.accepted _ (h.describes.max_mem (h.isNull_max hs))
  exact Value.between_typed hmin hmax hs hle hle'

theorem Collected.inBounds_min (h : s.Collected ty vs) (hs : s.min.isNull = false) :
    Predicate.inBounds s s.min = true :=
  Predicate.inBounds_iff.mpr ⟨le_rfl, h.describes.min_le_max hs⟩

theorem Collected.inBounds_max (h : s.Collected ty vs) (hs : s.min.isNull = false) :
    Predicate.inBounds s s.max = true :=
  Predicate.inBounds_iff.mpr ⟨h.describes.min_le_max hs, le_rfl⟩

/-- A value between the bounds moves neither of them. -/
theorem add_of_inBounds {v : Value} (hmin : s.min.isNull = false) (hmax : s.max.isNull = false)
    (hnull : v.isNull = false) (hv : Predicate.inBounds s v = true) : s.add v = s := by
  obtain ⟨hle, hle'⟩ := Predicate.inBounds_iff.mp hv
  have hlow : v.lt s.min = false := by simpa [← Bool.not_eq_true, Value.lt_iff_key] using hle
  have hhigh : s.max.lt v = false := by simpa [← Bool.not_eq_true, Value.lt_iff_key] using hle'
  simp [add, hnull, hmin, hmax, hlow, hhigh]

/-- A value between the bounds can be one of the list, as far as the statistic tells. -/
theorem Collected.concat (h : s.Collected ty vs) (hs : s.min.isNull = false) {v : Value}
    (hv : Predicate.inBounds s v = true) : s.Collected ty (vs ++ [v]) := by
  obtain ⟨hnull, haccepts⟩ := h.typed_of_inBounds hs hv
  refine ⟨?_, ?_⟩
  · intro w hw
    rcases List.mem_append.mp hw with hw | hw
    · exact h.accepted w hw
    · rw [List.mem_singleton.mp hw]
      exact haccepts
  · rw [ofValues_concat, h.eq]
    exact add_of_inBounds hs (h.isNull_max hs) hnull hv

end Statistic

/-! ### Comparisons -/

namespace Predicate

open Value

variable {s : Statistic} {ty : FieldType} {vs : List Value}

theorem eqv_self (v : Value) : v.eqv v = true := eqv_iff_key.mpr rfl

theorem mem_bounds_of_ne {l : Value} (h : ¬(s.min.eqv l = true ∧ s.max.eqv l = true)) :
    CompareOp.ne.holds s.min l = true ∨ CompareOp.ne.holds s.max l = true := by
  by_cases hmin : s.min.eqv l = true
  · right
    have hmax : ¬s.max.eqv l = true := fun hmax => h ⟨hmin, hmax⟩
    simpa [CompareOp.holds] using hmax
  · left
    simpa [CompareOp.holds] using hmin

/-- A comparison is possible exactly when some value between the bounds satisfies it. -/
theorem mayCompare_iff (h : s.Collected ty vs) (hs : s.min.isNull = false) {op : CompareOp} {l : Value} :
    mayCompare op s l = true ↔ ∃ v, inBounds s v = true ∧ op.holds v l = true := by
  constructor
  · intro hmay
    cases op with
    | eq => exact ⟨l, hmay, eqv_self l⟩
    | ne =>
      have hsome : ¬(s.min.eqv l = true ∧ s.max.eqv l = true) := by
        rintro ⟨hmin, hmax⟩
        simp [mayCompare, hmin, hmax] at hmay
      rcases mem_bounds_of_ne hsome with hmin | hmax
      · exact ⟨s.min, h.inBounds_min hs, hmin⟩
      · exact ⟨s.max, h.inBounds_max hs, hmax⟩
    | lt => exact ⟨s.min, h.inBounds_min hs, hmay⟩
    | le => exact ⟨s.min, h.inBounds_min hs, hmay⟩
    | gt => exact ⟨s.max, h.inBounds_max hs, hmay⟩
    | ge => exact ⟨s.max, h.inBounds_max hs, hmay⟩
  · rintro ⟨v, hv, hop⟩
    have hdescribes := (h.concat hs hv).describes
    exact mayCompare_of_holds hdescribes (by simp) (h.typed_of_inBounds hs hv).1 hop

/-- A comparison is certain exactly when every value between the bounds satisfies it. -/
theorem mustCompare_iff (h : s.Collected ty vs) (hs : s.min.isNull = false) {op : CompareOp} {l : Value} :
    mustCompare op s l = true ↔ ∀ v, inBounds s v = true → op.holds v l = true := by
  constructor
  · intro hmust v hv
    have hdescribes := (h.concat hs hv).describes
    exact holds_of_mustCompare hdescribes (by simp) (h.typed_of_inBounds hs hv).1 hmust
  · intro hall
    have hmin := hall s.min (h.inBounds_min hs)
    have hmax := hall s.max (h.inBounds_max hs)
    cases op with
    | eq =>
      rw [mustCompare, Bool.and_eq_true]
      exact ⟨hmin, hmax⟩
    | ne =>
      -- otherwise the literal lies between the bounds itself
      by_contra hmust
      have hbetween : inBounds s l = true := by
        simpa [mustCompare, lt_iff_key, inBounds_iff] using hmust
      have hne := hall l hbetween
      simp [CompareOp.holds, eqv_self] at hne
    | lt => exact hmax
    | le => exact hmax
    | gt => exact hmin
    | ge => exact hmin

/-! ### Lists that leave no other answer -/

/-- A match of all values but null is open only because of a null. -/
theorem hasNull_of_fullUnless {b : Bool} (h : MatchExtent.fullUnless b = .some) : b = true := by
  cases b with
  | true => rfl
  | false => cases h

/-- What the test rules out holds of no value of the block. -/
theorem holds_eq_false {p : Predicate} (h : s.Describes vs) (hp : p.mayMatch s = false) :
    ∀ v ∈ vs, p.holds v = false := by
  intro v hv
  by_contra hholds
  have hpasses : p.mayMatch s = true := mayMatch_of_holds h hv (by simpa using hholds)
  rw [hp] at hpasses
  cases hpasses

/-- Where the test passes, some list of the statistic has a value that satisfies the predicate. -/
theorem exists_holds_of_mayMatch {p : Predicate} (h : s.Collected ty vs) (hp : p.mayMatch s = true) :
    ∃ ws, s.Collected ty ws ∧ ∃ w ∈ ws, p.holds w = true := by
  cases p with
  | isNull => exact ⟨vs, h, .null, h.describes.hasNull_iff.mp hp, rfl⟩
  | isNotNull =>
    have hs : s.min.isNull = false := by simpa [mayMatch, Statistic.allNull] using hp
    exact ⟨vs, h, s.min, h.describes.min_mem hs, by simp [holds, hs]⟩
  | compare op l =>
    simp only [mayMatch, Statistic.allNull, Bool.and_eq_true, Bool.not_eq_true'] at hp
    obtain ⟨⟨hs, hl⟩, hmay⟩ := hp
    obtain ⟨v, hv, hop⟩ := (mayCompare_iff h hs).mp hmay
    refine ⟨vs ++ [v], h.concat hs hv, v, by simp, ?_⟩
    simp [holds, (h.typed_of_inBounds hs hv).1, hl, hop]
  | isIn ls =>
    simp only [mayMatch, Statistic.allNull, Bool.and_eq_true, Bool.not_eq_true', List.any_eq_true] at hp
    obtain ⟨hs, l, hl, hlnull, hbounds⟩ := hp
    refine ⟨vs ++ [l], h.concat hs hbounds, l, by simp, ?_⟩
    simp only [holds, hlnull, Bool.not_false, Bool.true_and, List.any_eq_true, Bool.and_eq_true,
      Bool.not_eq_true']
    exact ⟨l, hl, hlnull, eqv_self l⟩

/-- A list with nulls and other values has a value that satisfies the comparison, if all but the nulls do, and one that
does not. -/
theorem exists_mixed_of_mustCompare {op : CompareOp} {l : Value} (h : s.Collected ty vs) (hs : s.min.isNull = false)
    (hl : l.isNull = false) (hflag : s.hasNull = true) (hmust : mustCompare op s l = true) :
    (∃ w ∈ vs, (compare op l).holds w = true) ∧ ∃ w ∈ vs, (compare op l).holds w = false := by
  have hmin : op.holds s.min l = true := (mustCompare_iff h hs).mp hmust s.min (h.inBounds_min hs)
  refine ⟨⟨s.min, h.describes.min_mem hs, ?_⟩, ⟨.null, h.describes.hasNull_iff.mp hflag, rfl⟩⟩
  simp [holds, hs, hl, hmin]

/-- Where a comparison is possible and not certain, a value that satisfies it and one that does not can both be added. -/
theorem exists_mixed_of_mayCompare {op : CompareOp} {l : Value} (h : s.Collected ty vs) (hs : s.min.isNull = false)
    (hl : l.isNull = false) (hmay : mayCompare op s l = true) (hmust : ¬mustCompare op s l = true) :
    ∃ ws, s.Collected ty ws ∧ (∃ w ∈ ws, (compare op l).holds w = true)
      ∧ ∃ w ∈ ws, (compare op l).holds w = false := by
  obtain ⟨v, hv, hop⟩ := (mayCompare_iff h hs).mp hmay
  obtain ⟨u, hu, hop'⟩ : ∃ u, inBounds s u = true ∧ ¬op.holds u l = true := by
    rw [mustCompare_iff h hs] at hmust
    simpa using hmust
  refine ⟨vs ++ [v] ++ [u], (h.concat hs hv).concat hs hu, ⟨v, by simp, ?_⟩, ⟨u, by simp, ?_⟩⟩
  · simp [holds, (h.typed_of_inBounds hs hv).1, hl, hop]
  · simp [holds, hop']

/-- Where the extent is open, some list of the statistic has both a value that satisfies the predicate and one that does
not. Membership is excepted: between two bounds there may be nothing but its literals. -/
theorem exists_mixed_of_extent_some {p : Predicate} (h : s.Collected ty vs) (hp : ∀ ls, p ≠ .isIn ls)
    (hopen : p.extent s = .some) :
    ∃ ws, s.Collected ty ws ∧ (∃ w ∈ ws, p.holds w = true) ∧ ∃ w ∈ ws, p.holds w = false := by
  have hnull : s.hasNull = true → .null ∈ vs := h.describes.hasNull_iff.mp
  cases p with
  | isNull =>
    have hflag : s.hasNull = true := by
      cases hflag : s.hasNull with
      | true => rfl
      | false => simp [extent, hflag] at hopen
    have hs : s.min.isNull = false := by
      cases hs : s.min.isNull with
      | true => simp [extent, hflag, Statistic.allNull, hs] at hopen
      | false => rfl
    exact ⟨vs, h, ⟨.null, hnull hflag, rfl⟩, s.min, h.describes.min_mem hs, hs⟩
  | isNotNull =>
    have hs : s.min.isNull = false := by
      cases hs : s.min.isNull with
      | true => simp [extent, Statistic.allNull, hs] at hopen
      | false => rfl
    have hflag := hasNull_of_fullUnless (by simpa [extent, Statistic.allNull, hs] using hopen)
    exact ⟨vs, h, ⟨s.min, h.describes.min_mem hs, by simp [holds, hs]⟩, .null, hnull hflag, rfl⟩
  | compare op l =>
    simp only [extent] at hopen
    split at hopen
    · cases hopen
    rename_i hsome
    obtain ⟨hs, hl⟩ : s.min.isNull = false ∧ l.isNull = false := by simpa [Statistic.allNull] using hsome
    split at hopen
    · rename_i hmust
      exact ⟨vs, h, exists_mixed_of_mustCompare h hs hl (hasNull_of_fullUnless hopen) hmust⟩
    rename_i hmust
    split at hopen
    · rename_i hmay
      exact exists_mixed_of_mayCompare h hs hl hmay hmust
    · cases hopen
  | isIn ls => exact absurd rfl (hp ls)

end Predicate

/-! ### Conjunctions -/

/-- The extent of a conjunction is none exactly when the block cannot match. -/
theorem ColumnCondition.extent_eq_none_iff {c : ColumnCondition} {s : Statistic} {vs : List Value}
    (h : s.Describes vs) (hc : c.predicates ≠ []) : c.extent s = .none ↔ c.mayMatch s = false := by
  have hne : c.predicates.isEmpty = false := by simpa using hc
  rw [extent, hne, if_neg Bool.false_ne_true, MatchExtent.all_eq_none, mayMatch, List.all_eq_false, List.mem_map]
  constructor
  · rintro ⟨p, hp, hnone⟩
    refine ⟨p, hp, ?_⟩
    rw [(Predicate.extent_eq_none_iff h).mp hnone]
    exact Bool.false_ne_true
  · rintro ⟨p, hp, hmay⟩
    exact ⟨p, hp, (Predicate.extent_eq_none_iff h).mpr (by simpa using hmay)⟩

/-! ### One block after the other -/

namespace ColumnWriter

theorem statistic_foldl_add (w : ColumnWriter) (vs : List Value) :
    (vs.foldl add w).statistic = vs.foldl Statistic.add w.statistic := by
  induction vs generalizing w with
  | nil => rfl
  | cons v vs ih => exact ih (w.add v)

/-- The statistic put into the zone map is that of the values since the block before was ended. -/
theorem statistic_of_block (w : ColumnWriter) (vs : List Value) :
    (vs.foldl add w.finishBlock.startBlock).finishBlock.zoneMap.back?.map (·.statistic)
      = some (Statistic.ofValues vs) := by
  have hcollected := statistic_foldl_add w.finishBlock.startBlock vs
  change _ = vs.foldl Statistic.add Statistic.empty at hcollected
  simp only [finishBlock, Array.back?_push, Option.map_some] at hcollected ⊢
  rw [hcollected, Statistic.ofValues]

end ColumnWriter

/-! ### What the tests tell of a list of values -/

namespace Statistic

open Predicate

variable {ty : FieldType} {vs : List Value}

/-- Where there are values, the bounds are some of them. They are null if all values are. -/
theorem Describes.bounds_mem {s : Statistic} (h : s.Describes vs) (hne : vs ≠ []) : s.min ∈ vs ∧ s.max ∈ vs := by
  cases hs : s.min.isNull with
  | false => exact ⟨h.min_mem hs, h.max_mem (h.isNull_max.trans hs)⟩
  | true =>
    obtain ⟨v, hv⟩ := List.exists_mem_of_ne_nil vs hne
    have hnull : .null ∈ vs := Value.eq_null (h.isNull_of_min hs v hv) ▸ hv
    rw [Value.eq_null hs, Value.eq_null (h.isNull_max.trans hs)]
    exact ⟨hnull, hnull⟩

/-- A predicate that the statistic of some values rules out is satisfied by none of them, and any other one is satisfied
by a value of some list with that statistic. The bounds are values of the list, and null of the empty one, and enclose all
values but null; the flag tells of nulls. Blocks before the values do not count. -/
theorem mayMatch_tight (hvs : ∀ v ∈ vs, ty.accepts v = true) :
    (∀ p : Predicate, (p.mayMatch (ofValues vs) = false → ∀ v ∈ vs, p.holds v = false)
        ∧ (p.mayMatch (ofValues vs) = true →
          ∃ ws, (ofValues vs).Collected ty ws ∧ ∃ w ∈ ws, p.holds w = true))
      ∧ (vs ≠ [] → (ofValues vs).min ∈ vs ∧ (ofValues vs).max ∈ vs)
      ∧ (vs = [] → (ofValues vs).min = .null ∧ (ofValues vs).max = .null)
      ∧ (∀ v ∈ vs, v.isNull = false → (ofValues vs).min.le v = true ∧ v.le (ofValues vs).max = true)
      ∧ ((ofValues vs).hasNull = true ↔ .null ∈ vs)
      ∧ ∀ w : ColumnWriter,
        (vs.foldl ColumnWriter.add w.finishBlock.startBlock).finishBlock.zoneMap.back?.map (·.statistic)
          = some (ofValues vs) := by
  have h : (ofValues vs).Collected ty vs := ⟨hvs, rfl⟩
  have hdescribes := h.describes
  refine ⟨fun p => ⟨holds_eq_false hdescribes, exists_holds_of_mayMatch h⟩, hdescribes.bounds_mem, ?_, ?_,
    hdescribes.hasNull_iff, fun w => w.statistic_of_block vs⟩
  · rintro rfl
    exact ⟨rfl, rfl⟩
  · intro v hv hnull
    exact ⟨Value.le_iff_key.mpr (hdescribes.min_le v hv hnull), Value.le_iff_key.mpr (hdescribes.le_max v hv hnull)⟩

/-- A null, the smaller zero and a NaN. -/
def sampleDoubles : List Value :=
  [.null, .float64 ⟨0x8000000000000000⟩, .float64 ⟨0x7FF8000000000001⟩]

/-- One is not among the doubles, but as far as their statistic tells it could be. -/
theorem mayMatch_tight_doubles :
    (∀ v ∈ sampleDoubles, FieldType.float64.accepts v = true)
      ∧ (∀ v ∈ sampleDoubles, (Predicate.compare .lt (.float64 .zero)).holds v = false)
      ∧ ∃ ws, (ofValues sampleDoubles).Collected .float64 ws
        ∧ ∃ w ∈ ws, (isIn [.null, .float64 ⟨0x3FF0000000000000⟩]).holds w = true := by
  have hvs : ∀ v ∈ sampleDoubles, FieldType.float64.accepts v = true := by decide
  obtain ⟨hall, -⟩ := mayMatch_tight hvs
  exact ⟨hvs, (hall (.compare .lt (.float64 .zero))).1 (by decide),
    (hall (.isIn [.null, .float64 ⟨0x3FF0000000000000⟩])).2 (by decide)⟩

/-- Of the empty list the bounds are null, and no members. -/
theorem bounds_notMem_nil :
    ¬∀ (ty : FieldType) (vs : List Value), (∀ v ∈ vs, ty.accepts v = true) →
      (ofValues vs).min ∈ vs ∧ (ofValues vs).max ∈ vs := by
  intro hall
  have hmem := (hall .int32 [] nofun).1
  exact absurd hmem List.not_mem_nil

/-- A full extent means that every value satisfies the predicate, an extent of none, which is that of a predicate ruled
out, that no value does. Any other extent of a predicate but membership is open: some list with the statistic has a value
that satisfies the predicate and one that does not. Of conjunctions the two answers mean the same, and without predicates
the extent is none. -/
theorem extent_tight (hvs : ∀ v ∈ vs, ty.accepts v = true) :
    (∀ p : Predicate, (p.extent (ofValues vs) = .full → ∀ v ∈ vs, p.holds v = true)
        ∧ (p.extent (ofValues vs) = .none → ∀ v ∈ vs, p.holds v = false)
        ∧ (p.extent (ofValues vs) = .none ↔ p.mayMatch (ofValues vs) = false)
        ∧ ((∀ ls, p ≠ .isIn ls) → p.extent (ofValues vs) = .some →
          ∃ ws, (ofValues vs).Collected ty ws ∧ (∃ w ∈ ws, p.holds w = true) ∧ ∃ w ∈ ws, p.holds w = false))
      ∧ ∀ c : ColumnCondition,
        (c.predicates ≠ [] →
          (c.extent (ofValues vs) = .full → ∀ v ∈ vs, c.holds v = true)
            ∧ (c.extent (ofValues vs) = .none ↔ c.mayMatch (ofValues vs) = false)
            ∧ (c.extent (ofValues vs) = .none → ∀ v ∈ vs, c.holds v = false))
          ∧ (c.predicates = [] → c.extent (ofValues vs) = .none) := by
  have h : (ofValues vs).Collected ty vs := ⟨hvs, rfl⟩
  have hdescribes := h.describes
  refine ⟨fun p => ⟨holds_of_extent_full hdescribes, ?_, extent_eq_none_iff hdescribes,
    exists_mixed_of_extent_some h⟩, fun c => ⟨fun hne => ⟨fun hfull => ?_,
      ColumnCondition.extent_eq_none_iff hdescribes hne, fun hnone => ?_⟩, fun hempty => ?_⟩⟩
  · intro hnone
    exact holds_eq_false hdescribes ((extent_eq_none_iff hdescribes).mp hnone)
  · exact (ColumnCondition.extent_full hdescribes hfull).2
  · exact (ColumnCondition.extent_none hdescribes hnone).resolve_left hne
  · simp [ColumnCondition.extent, hempty]

/-- Two numbers without a null, and with one. -/
theorem extent_tight_numbers :
    (∀ v ∈ [Value.int32 5, .int32 9], (Predicate.compare .ne (.int32 4)).holds v = true)
      ∧ (∀ v ∈ [Value.int32 5, .int32 9], (Predicate.compare .gt (.int32 9)).holds v = false)
      ∧ (∀ v ∈ [Value.int32 5, .int32 9],
        ColumnCondition.holds ⟨[.isNotNull, .compare .lt (.int32 10)]⟩ v = true)
      ∧ ∃ ws, (ofValues [.int32 5, .null, .int32 9]).Collected .int32 ws
        ∧ (∃ w ∈ ws, (Predicate.compare .ne (.int32 7)).holds w = true)
        ∧ ∃ w ∈ ws, (Predicate.compare .ne (.int32 7)).holds w = false := by
  have hvs : ∀ v ∈ [Value.int32 5, .int32 9], FieldType.int32.accepts v = true := by decide
  have hvs' : ∀ v ∈ [Value.int32 5, .null, .int32 9], FieldType.int32.accepts v = true := by decide
  obtain ⟨hall, hconj⟩ := extent_tight hvs
  obtain ⟨hall', -⟩ := extent_tight hvs'
  refine ⟨(hall (.compare .ne (.int32 4))).1 (by decide), (hall (.compare .gt (.int32 9))).2.1 (by decide), ?_, ?_⟩
  · exact ((hconj ⟨[.isNotNull, .compare .lt (.int32 10)]⟩).1 (by decide)).1 (by decide)
  · exact (hall' (.compare .ne (.int32 7))).2.2.2 nofun (by decide)

end Statistic

end SegmentStore
