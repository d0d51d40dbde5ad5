import SegmentStore.Bytes.Decoder
import SegmentStore.Compression.Zstd.Fse

/-!
# Huffman codes of literals

A code is given by the weights of the symbols: a symbol of weight `w` owns `2 ^ (w - 1)` of the places
of the table, and the last weight fills the table up.

* `HuffmanTable.read?` reads a table description, its weights either plain or entropy-coded.
* `HuffmanTable.decodeStream?` reads symbols from a stream that must end with the last of them,
  `HuffmanTable.decodeFour?` from four streams with a jump table.
-/

namespace SegmentStore.Zstd

/-- A symbol and the length of its code. -/
structure HuffmanEntry where
  symbol : UInt8
  bits : Nat
  deriving Inhabited

/-- The symbols by the next `maxBits` bits of a stream. -/
structure HuffmanTable where
  maxBits : Nat
  entries : Array HuffmanEntry

namespace HuffmanTable

/-! ### Weights -/

/-- Weights of four bits each, the high half of a byte first. -/
def plainWeights (bs : Bytes) (n : Nat) : List Nat :=
  (bs.flatMap fun b => [b.toNat / 16, b.toNat % 16]).take n

/-- Weights from two states that take turns. When the bits run out, the other state gives the last
weight. At most 255 weights can be coded. -/
def codedWeights (t : FseTable) (a b : Nat) (s : BackwardBits) (acc : Array Nat) :
    Nat → Option (Array Nat)
  | 0 => none
  | fuel + 1 =>
    let acc := acc.push (t.entry a).symbol
    match t.next? a s with
    | none => some (acc.push (t.entry b).symbol)
    | some (a, s) => codedWeights t b a s acc fuel

/-- The weights of a description whose first byte is given, and the bytes after it. -/
def readWeights? (header : UInt8) (bs : Bytes) : Option (List Nat × Bytes) :=
  if 128 ≤ header then
    let n := header.toNat - 127
    (splitExact? ((n + 1) / 2) bs).map fun (w, rest) => (plainWeights w n, rest)
  else do
    let (coded, rest) ← splitExact? header.toNat bs
    let (distribution, used) ← Distribution.read? 6 255 coded
    let table := FseTable.build distribution
    let s ← BackwardBits.open? (coded.drop used)
    let (a, s) ← table.start? s
    let (b, s) ← table.start? s
    let weights ← codedWeights table a b s #[] 254
    return (weights.toList, rest)

/-- The places that a weight takes. -/
def places (w : Nat) : Nat := if w = 0 then 0 else 1 <<< (w - 1)

/-- The table of some weights. The last symbol, whose weight is not written, takes what is left. -/
def ofWeights? (weights : List Nat) : Option HuffmanTable :=
  let total := weights.foldl (fun n w => n + places w) 0
  if weights.any (12 < ·) || total = 0 then none
  else
    let maxBits := total.log2 + 1
    let left := (1 <<< maxBits) - total
    if 12 < maxBits || left ≠ 1 <<< left.log2 then none
    else
      let weights := weights ++ [left.log2 + 1]
      let rank1 := weights.count 1
      if rank1 < 2 || rank1 % 2 = 1 then none
      else
        let symbols := weights.zipIdx
        let entries := (List.range maxBits).flatMap fun i =>
          symbols.flatMap fun (w, symbol) =>
            if w = i + 1 then
              List.replicate (places w) ⟨UInt8.ofNat symbol, maxBits + 1 - w⟩
            else []
        some ⟨maxBits, entries.toArray⟩

/-- The table described at the front of some bytes, and the bytes after it. -/
def read? : Bytes → Option (HuffmanTable × Bytes)
  | [] => none
  | header :: bs => do
    let (weights, rest) ← readWeights? header bs
    let table ← ofWeights? weights
    return (table, rest)

/-! ### Symbols -/

/-- Reads `n` symbols. -/
def decodeSymbols? (t : HuffmanTable) (s : BackwardBits) (acc : Array UInt8) :
    Nat → Option (Array UInt8 × BackwardBits)
  | 0 => some (acc, s)
  | n + 1 =>
    let e := t.entries[s.peek t.maxBits]?.getD default
    match s.skip? e.bits with
    | none => none
    | some s => decodeSymbols? t s (acc.push e.symbol) n

/-- Reads `n` symbols, which must be all that the stream holds. -/
def decodeStream? (t : HuffmanTable) (bs : Bytes) (n : Nat) : Option Bytes := do
  let s ← BackwardBits.open? bs
  let (symbols, s) ← t.decodeSymbols? s #[] n
  if s.left = 0 then some symbols.toList else none

/-- Reads `n` symbols from four streams. The jump table gives the sizes of the first three, which hold
a quarter of the symbols each. -/
def decodeFour? (t : HuffmanTable) (bs : Bytes) (n : Nat) : Option Bytes := do
  let (jump, bs) ← splitExact? 6 bs
  let (s1, bs) ← splitExact? (leNat (jump.take 2)) bs
  let (s2, bs) ← splitExact? (leNat ((jump.drop 2).take 2)) bs
  let (s3, s4) ← splitExact? (leNat (jump.drop 4)) bs
  let quarter := (n + 3) / 4
  if n < 3 * quarter then none
  else
    let x1 ← t.decodeStream? s1 quarter
    let x2 ← t.decodeStream? s2 quarter
    let x3 ← t.decodeStream? s3 quarter
    let x4 ← t.decodeStream? s4 (n - 3 * quarter)
    return x1 ++ x2 ++ x3 ++ x4

end HuffmanTable

end SegmentStore.Zstd
