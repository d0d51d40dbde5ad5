/-!
# What a scan does with a block

* `MatchExtent` says how much of a block a delete condition matches; `MatchExtent.all` is the
  conjunction of such answers.
* `Disposition` is what becomes of a block; `Disposition.applyDelete` folds one delete condition in.
-/

namespace SegmentStore

/-- How much of a block a condition matches. -/
inductive MatchExtent where
  /-- Every row matches. -/
  | full
  /-- Some rows may match. -/
  | some
  /-- No row matches. -/
  | none
  deriving DecidableEq, Inhabited

namespace MatchExtent

/-- The name shown to users. -/
def display : MatchExtent → String
  | .full => "FullMatch"
  | .some => "PartialMatch"
  | .none => "NoMatch"

/-- A match of every value that is not null: with nulls about, not of every row. -/
def fullUnless (hasNull : Bool) : MatchExtent := if hasNull then .some else .full

/-- The extent of a conjunction: no match wins, then a possible one. -/
def and : MatchExtent → MatchExtent → MatchExtent
  | .none, _ => .none
  | _, .none => .none
  | .some, _ => .some
  | _, .some => .some
  | .full, .full => .full

/-- The extent of a conjunction of any number of conditions, full when there are none. -/
def all (outcomes : List MatchExtent) : MatchExtent := outcomes.foldr and .full

end MatchExtent

/-- What a scan does with a block, from mild to strict. -/
inductive Disposition where
  /-- Every row of the block survives the delete conditions. -/
  | included
  /-- Some rows may be deleted, the consumer checks row by row. -/
  | needsRowFilter
  /-- No row of the block is visible. -/
  | excluded
  deriving DecidableEq, Inhabited

namespace Disposition

/-- The strictness of a disposition. -/
def rank : Disposition → Nat
  | .included => 0
  | .needsRowFilter => 1
  | .excluded => 2

/-- The stricter of two dispositions. -/
def max (a b : Disposition) : Disposition := if a.rank ≤ b.rank then b else a

/-- The name shown to users. -/
def display : Disposition → String
  | .included => "Include"
  | .needsRowFilter => "RequiresRowFilter"
  | .excluded => "Excluded"

/-- Folds the outcome of one delete condition into the disposition of a block that is not yet
excluded. A block once marked for row filtering stays so when a further condition does not match. -/
def applyDelete (d : Disposition) : MatchExtent → Disposition
  | .full => .excluded
  | .some => .needsRowFilter
  | .none => if d = .needsRowFilter then .needsRowFilter else .included

end Disposition

end SegmentStore
