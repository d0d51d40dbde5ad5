import SegmentStore.Compression.Zstd.Bits

/-!
# Finite state entropy tables

* `Distribution` gives each symbol its share of `2 ^ accuracy` states; `Distribution.read?` reads the
  compact form in a block.
* `FseTable` tells for each state its symbol and how the next state is read; `FseTable.build` spreads
  the symbols over the states, and `FseTable.single` has one symbol only.
-/

namespace SegmentStore.Zstd

/-- The shares of the symbols. A share of -1 stands for a probability below one state. -/
structure Distribution where
  accuracy : Nat
  shares : Array Int

namespace Distribution

/-- The number of symbols without a state that two-bit flags announce: a flag of three is followed by
another one. -/
def readZeros (s : ForwardBits) (n : Nat) : Nat → Nat × ForwardBits
  | 0 => (n, s)
  | fuel + 1 =>
    let flag := s.peek 2
    if flag = 3 then readZeros (s.skip 2) (n + 3) fuel else (n + flag, s.skip 2)

/-- The share in front, coded in the bits that `remaining` states ask for, one bit less for the small
shares. -/
def readShare (s : ForwardBits) (remaining : Nat) : Int × ForwardBits :=
  let width := remaining.log2 + 1
  let threshold := 1 <<< (width - 1)
  let top := 2 * threshold - 1 - remaining
  let low := s.peek (width - 1)
  if low < top then ((low : Int) - 1, s.skip (width - 1))
  else
    let full := s.peek width
    let value := if threshold ≤ full then full - top else full
    ((value : Int) - 1, s.skip width)

/-- Reads shares until one state remains. `remaining` is one more than the states left. -/
def readShares (maxSymbol bitLimit : Nat) (s : ForwardBits) (remaining : Nat)
    (shares : Array Int) : Nat → Option (Array Int × ForwardBits)
  | 0 => none
  | fuel + 1 =>
    if bitLimit < s.position then none
    else if remaining = 1 then some (shares, s)
    else if maxSymbol < shares.size then none
    else
      let (share, s) := readShare s remaining
      if remaining < share.natAbs + 1 then none
      else
        let remaining := remaining - share.natAbs
        let shares := shares.push share
        if share = 0 then
          let (zeros, s) := readZeros s 0 s.data.size.succ.succ
          readShares maxSymbol bitLimit s remaining (shares ++ Array.replicate zeros 0) fuel
        else readShares maxSymbol bitLimit s remaining shares fuel

/-- The distribution at the front of some bytes and how many bytes it takes. -/
def read? (maxAccuracy maxSymbol : Nat) (bs : Bytes) : Option (Distribution × Nat) := do
  let s : ForwardBits := ⟨bs.toArray, 0⟩
  let accuracy := s.peek 4 + 5
  if maxAccuracy < accuracy then none
  else
    let bitLimit := 8 * s.data.size
    let (shares, s) ← readShares maxSymbol bitLimit (s.skip 4) ((1 <<< accuracy) + 1) #[]
      (maxSymbol + 2)
    if maxSymbol + 1 < shares.size || bitLimit < s.position then none
    else some (⟨accuracy, shares⟩, s.bytesUsed)

end Distribution

/-- What a state stands for and how the next state is read. -/
structure FseEntry where
  symbol : Nat
  bits : Nat
  base : Nat
  deriving Inhabited

/-- The states of a coder. -/
structure FseTable where
  accuracy : Nat
  entries : Array FseEntry

namespace FseTable

/-- The next place at or below `high` on the walk that spreads symbols. -/
def nextPlace (size high : Nat) (place : Nat) : Nat → Nat
  | 0 => place
  | fuel + 1 =>
    let next := (place + size / 2 + size / 8 + 3) % size
    if next ≤ high then next else nextPlace size high next fuel

/-- Puts a symbol on `n` places of the walk. -/
def spread (size high symbol : Nat) : Nat → Array Nat → Nat → Array Nat × Nat
  | 0, symbols, place => (symbols, place)
  | n + 1, symbols, place =>
    spread size high symbol n (symbols.setIfInBounds place symbol)
      (nextPlace size high place size)

/-- Puts the symbols of the least probability on the last states. Gives the last state below them. -/
def placeRare (size : Nat) (shares : List (Int × Nat)) (symbols : Array Nat) : Array Nat × Nat :=
  shares.foldl (fun (symbols, high) (share, symbol) =>
    if share = -1 then (symbols.setIfInBounds high symbol, high - 1) else (symbols, high))
    (symbols, size - 1)

/-- The states of a distribution. -/
def build (d : Distribution) : FseTable :=
  let size := 1 <<< d.accuracy
  let shares := d.shares.toList.zipIdx
  let (symbols, high) := placeRare size shares (Array.replicate size 0)
  let (symbols, _) := shares.foldl (fun (symbols, place) (share, symbol) =>
    spread size high symbol share.toNat symbols place) (symbols, 0)
  let counts := d.shares.map fun share => share.natAbs
  let (entries, _) := symbols.foldl (fun (entries, counts) symbol =>
    let next := counts[symbol]?.getD 1
    let bits := d.accuracy - next.log2
    (entries.push ⟨symbol, bits, (next <<< bits) - size⟩, counts.setIfInBounds symbol (next + 1)))
    (#[], counts)
  ⟨d.accuracy, entries⟩

/-- The coder that knows one symbol and reads no bits. -/
def single (symbol : Nat) : FseTable := ⟨0, #[⟨symbol, 0, 0⟩]⟩

def entry (t : FseTable) (state : Nat) : FseEntry := t.entries[state]?.getD default

/-- The first state. -/
def start? (t : FseTable) (s : BackwardBits) : Option (Nat × BackwardBits) := s.read? t.accuracy

/-- The state after a state. -/
def next? (t : FseTable) (state : Nat) (s : BackwardBits) : Option (Nat × BackwardBits) := do
  let e := t.entry state
  let (bits, s) ← s.read? e.bits
  return (e.base + bits, s)

end FseTable

end SegmentStore.Zstd
