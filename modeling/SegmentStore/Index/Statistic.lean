import SegmentStore.Value.Basic

/-!
# Bounds of a block

* `Statistic` bounds the values of a block that are not null, and tells whether there are nulls.
* `Statistic.ofValues` collects it, value by value.
-/

namespace SegmentStore

/-- The least and the greatest value of a block and whether it holds a null. Both bounds are null when
every value is. -/
structure Statistic where
  min : Value
  max : Value
  hasNull : Bool
  deriving DecidableEq, Inhabited

namespace Statistic

/-- The statistic of no values. -/
def empty : Statistic := ⟨.null, .null, false⟩

/-- No value of the block is other than null. -/
def allNull (s : Statistic) : Bool := s.min.isNull

/-- Takes one more value into account. An equal value does not replace a bound. -/
def add (s : Statistic) (v : Value) : Statistic :=
  if v.isNull then { s with hasNull := true }
  else
    { min := if s.min.isNull || v.lt s.min then v else s.min
      max := if s.max.isNull || s.max.lt v then v else s.max
      hasNull := s.hasNull }

/-- The statistic of a list of values. -/
def ofValues (vs : List Value) : Statistic := vs.foldl add empty

end Statistic

end SegmentStore
