import SegmentStore.Index.Statistic
import SegmentStore.Prune.Disposition

/-!
# Predicates on columns

* `Predicate.holds` is the meaning of a predicate on one value. A comparison never holds on a null, nor
  with a null literal.
* `Predicate.mayMatch` asks a statistic whether some row can satisfy the predicate, `Predicate.extent`
  how many rows do, and `Predicate.mayMatchBloom` asks a membership test.
* `ColumnCondition` is a conjunction of predicates on one column.
-/

namespace SegmentStore

inductive CompareOp where
  | eq
  | ne
  | lt
  | le
  | gt
  | ge
  deriving DecidableEq, Inhabited

namespace CompareOp

def all : List CompareOp := [.eq, .ne, .lt, .le, .gt, .ge]

/-- The sign of the comparison. -/
def symbol : CompareOp → String
  | .eq => "="
  | .ne => "!="
  | .lt => "<"
  | .le => "<="
  | .gt => ">"
  | .ge => ">="

/-- The comparison of two values. -/
def holds (op : CompareOp) (a b : Value) : Bool :=
  match op with
  | .eq => a.eqv b
  | .ne => !a.eqv b
  | .lt => a.lt b
  | .le => a.le b
  | .gt => b.lt a
  | .ge => b.le a

end CompareOp

/-- A condition on the value of one column. -/
inductive Predicate where
  | compare (op : CompareOp) (literal : Value)
  | isIn (literals : List Value)
  | isNull
  | isNotNull
  deriving DecidableEq

namespace Predicate

/-- The values that a predicate compares with. -/
def literals : Predicate → List Value
  | .compare _ v => [v]
  | .isIn vs => vs
  | .isNull => []
  | .isNotNull => []

/-- The meaning of a predicate on one value. -/
def holds (p : Predicate) (v : Value) : Bool :=
  match p with
  | .isNull => v.isNull
  | .isNotNull => !v.isNull
  | .compare op l => !v.isNull && !l.isNull && op.holds v l
  | .isIn ls => !v.isNull && ls.any fun l => !l.isNull && v.eqv l

/-- Some value between the bounds equals the literal, as far as the bounds tell. -/
def inBounds (s : Statistic) (l : Value) : Bool := s.min.le l && l.le s.max

/-- Some value between the bounds satisfies the comparison, as far as the bounds tell. -/
def mayCompare (op : CompareOp) (s : Statistic) (l : Value) : Bool :=
  match op with
  | .eq => inBounds s l
  | .ne => !(s.min.eqv l && s.max.eqv l)
  | .lt => s.min.lt l
  | .le => s.min.le l
  | .gt => l.lt s.max
  | .ge => l.le s.max

/-- Every value between the bounds satisfies the comparison. -/
def mustCompare (op : CompareOp) (s : Statistic) (l : Value) : Bool :=
  match op with
  | .eq => s.min.eqv l && s.max.eqv l
  | .ne => l.lt s.min || s.max.lt l
  | .lt => s.max.lt l
  | .le => s.max.le l
  | .gt => l.lt s.min
  | .ge => l.le s.min

/-- False only if no row described by the statistic can satisfy the predicate. -/
def mayMatch (p : Predicate) (s : Statistic) : Bool :=
  match p with
  | .isNull => s.hasNull
  | .isNotNull => !s.allNull
  | .compare op l => !s.allNull && !l.isNull && mayCompare op s l
  | .isIn ls => !s.allNull && ls.any fun l => !l.isNull && inBounds s l

/-- How many of the rows described by the statistic satisfy the predicate. -/
def extent (p : Predicate) (s : Statistic) : MatchExtent :=
  let every := MatchExtent.fullUnless s.hasNull
  match p with
  | .isNull => if !s.hasNull then .none else if s.allNull then .full else .some
  | .isNotNull => if s.allNull then .none else every
  | .compare op l =>
    if s.allNull || l.isNull then .none
    else if mustCompare op s l then every
    else if mayCompare op s l then .some
    else .none
  | .isIn ls =>
    if s.allNull then .none
    else if s.min.eqv s.max && ls.any (s.min.eqv ·) then every
    else if ls.any fun l => !l.isNull && inBounds s l then .some
    else .none

/-- False only if the membership test rules the predicate out. Only equality asks the test. -/
def mayMatchBloom (p : Predicate) (test : Value → Bool) : Bool :=
  match p with
  | .compare .eq l => test l
  | .isIn ls => ls.any test
  | _ => true

end Predicate

/-- A conjunction of predicates on one column. -/
structure ColumnCondition where
  predicates : List Predicate
  deriving DecidableEq, Inhabited

namespace ColumnCondition

/-- The condition without predicates. -/
def empty : ColumnCondition := ⟨[]⟩

/-- Adds a predicate at the end. -/
def push (c : ColumnCondition) (p : Predicate) : ColumnCondition := ⟨c.predicates ++ [p]⟩

/-- The meaning of a condition on one value. -/
def holds (c : ColumnCondition) (v : Value) : Bool := c.predicates.all (·.holds v)

/-- False only if no row described by the statistic can satisfy every predicate. -/
def mayMatch (c : ColumnCondition) (s : Statistic) : Bool := c.predicates.all (·.mayMatch s)

/-- False only if the membership test rules a predicate out. -/
def mayMatchBloom (c : ColumnCondition) (test : Value → Bool) : Bool :=
  c.predicates.all (·.mayMatchBloom test)

/-- How many rows satisfy the condition. A condition without predicates deletes nothing. -/
def extent (c : ColumnCondition) (s : Statistic) : MatchExtent :=
  if c.predicates.isEmpty then .none else .all (c.predicates.map (·.extent s))

end ColumnCondition

end SegmentStore
