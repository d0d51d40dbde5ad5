import SegmentStore.Prune.Disposition

/-!
# Dispositions of all blocks

* `BlockMap` holds the disposition of every block of a segment and counts those that are left.
-/

namespace SegmentStore

/-- The disposition of every block, and how many are not excluded. -/
structure BlockMap where
  dispositions : Array Disposition
  remaining : Nat
  deriving DecidableEq

namespace BlockMap

/-- Blocks from `first` to `last` are included, all others excluded. -/
def make (count first last : Nat) : BlockMap :=
  ⟨((List.range count).map fun b =>
      if first ≤ b ∧ b ≤ last then Disposition.included else .excluded).toArray,
    last - first + 1⟩

/-- The disposition of a block. -/
def get (m : BlockMap) (block : Nat) : Disposition := m.dispositions[block]?.getD .excluded

/-- Sets the disposition of a block. -/
def set (m : BlockMap) (block : Nat) (d : Disposition) : BlockMap :=
  ⟨m.dispositions.setIfInBounds block d,
    if d = .excluded ∧ m.get block ≠ .excluded then m.remaining - 1 else m.remaining⟩

end BlockMap

end SegmentStore
