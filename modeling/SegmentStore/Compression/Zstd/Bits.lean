import SegmentStore.Bytes.Word

/-!
# Bit streams

Entropy-coded data is read as bits, either from the first byte on or backwards from the last.

* `bitsAt` is the number made of some neighbouring bits, least significant first.
* `ForwardBits` reads from the start, `BackwardBits` from the end, where the highest set bit of the
  last byte marks the end of the stream.
-/

namespace SegmentStore.Zstd

/-- The bit at an index, counted from the least significant bit of the first byte. Bits beyond the end
are zero. -/
def bitAt (data : Array UInt8) (i : Nat) : Bool := (data[i / 8]?.getD 0).toNat.testBit (i % 8)

/-- The number made of `n` bits from an index on. -/
def bitsAt (data : Array UInt8) (i : Nat) : Nat → Nat
  | 0 => 0
  | n + 1 => (bitAt data i).toNat + 2 * bitsAt data (i + 1) n

/-- A stream read from its first bit. -/
structure ForwardBits where
  data : Array UInt8
  position : Nat

namespace ForwardBits

/-- The next `n` bits, without moving on. -/
def peek (s : ForwardBits) (n : Nat) : Nat := bitsAt s.data s.position n

def skip (s : ForwardBits) (n : Nat) : ForwardBits := { s with position := s.position + n }

/-- The whole bytes that were begun. -/
def bytesUsed (s : ForwardBits) : Nat := (s.position + 7) / 8

end ForwardBits

/-- A stream read from its last bit. `left` counts the bits that are unread. -/
structure BackwardBits where
  data : Array UInt8
  left : Nat

namespace BackwardBits

/-- The stream in the given bytes. The last byte holds the mark and may not be zero. -/
def open? (bs : Bytes) : Option BackwardBits :=
  let data := bs.toArray
  match data.back? with
  | none => none
  | some b => if b = 0 then none else some ⟨data, (data.size - 1) * 8 + b.toNat.log2⟩

/-- The next `n` bits, without moving on. Beyond the start of the stream follow zeros. -/
def peek (s : BackwardBits) (n : Nat) : Nat :=
  if n ≤ s.left then bitsAt s.data (s.left - n) n
  else bitsAt s.data 0 s.left <<< (n - s.left)

/-- Moves on by `n` bits, if there are so many. -/
def skip? (s : BackwardBits) (n : Nat) : Option BackwardBits :=
  if n ≤ s.left then some { s with left := s.left - n } else none

/-- The next `n` bits and the stream after them. -/
def read? (s : BackwardBits) (n : Nat) : Option (Nat × BackwardBits) :=
  (s.skip? n).map fun s' => (s.peek n, s')

end BackwardBits

end SegmentStore.Zstd
