import SegmentStore.Compression.Lz4
import SegmentStore.Compression.Zstd.Huffman

/-!
# Compressed blocks

A compressed block holds literals and sequences. A sequence copies some literals and then earlier
output.

* `BlockState` is what one block of a frame leaves for the next: codes that may be repeated and the
  last three offsets.
* `readLiterals?` reads the literals of a block.
* `readSequences?` reads the sequences and carries them out on the output of the frame.
* `decodeBlock?` does both.
-/

namespace SegmentStore.Zstd

/-- What blocks of a frame share. -/
structure BlockState where
  huffman? : Option HuffmanTable
  literalLengths? : Option FseTable
  offsets? : Option FseTable
  matchLengths? : Option FseTable
  /-- The last three offsets, the latest first. -/
  recent : Nat × Nat × Nat

/-- The state before the first block. -/
def BlockState.start : BlockState := ⟨none, none, none, none, (1, 4, 8)⟩

/-! ### Literals -/

/-- Literals of one kind: as they are, or one byte over and over. Their size stands in the header. -/
def readSimpleLiterals? (runLength : Bool) (limit : Nat) (bs : Bytes) : Option (Bytes × Bytes) := do
  let first ← bs.head?
  let format := first.toNat / 4 % 4
  let headerSize := if format = 1 then 2 else if format = 3 then 3 else 1
  let (header, bs) ← splitExact? headerSize bs
  let size := if headerSize = 1 then leNat header / 8 else leNat header / 16
  if limit < size then none
  else if runLength then
    match bs with
    | [] => none
    | b :: bs => some (List.replicate size b, bs)
  else splitExact? size bs

/-- Literals under a Huffman code, either a new one or the one of the block before. -/
def readCodedLiterals? (repeated : Bool) (limit : Nat) (state : BlockState) (bs : Bytes) :
    Option (Bytes × Bytes × BlockState) := do
  if bs.length < 5 then none
  else
    let first ← bs.head?
    let format := first.toNat / 4 % 4
    let headerSize := if format = 2 then 4 else if format = 3 then 5 else 3
    let width := if format = 2 then 14 else if format = 3 then 18 else 10
    let (header, bs) ← splitExact? headerSize bs
    let sizes := leNat header / 16
    let size := sizes % (1 <<< width)
    let codedSize := (sizes >>> width) % (1 <<< width)
    let single := format = 0
    if limit < size || size = 0 || (!single && size < 6) then none
    else
      let (coded, rest) ← splitExact? codedSize bs
      let (table, streams) ← if repeated then state.huffman?.map (·, coded) else HuffmanTable.read? coded
      let literals ← if single then table.decodeStream? streams size else table.decodeFour? streams size
      return (literals, rest, { state with huffman? := some table })

/-- The literals of a block, the bytes after them, and the code they leave. -/
def readLiterals? (limit : Nat) (state : BlockState) (bs : Bytes) :
    Option (Bytes × Bytes × BlockState) := do
  let first ← bs.head?
  match first.toNat % 4 with
  | 0 => (readSimpleLiterals? false limit bs).map fun (x, rest) => (x, rest, state)
  | 1 => (readSimpleLiterals? true limit bs).map fun (x, rest) => (x, rest, state)
  | 2 => readCodedLiterals? false limit state bs
  | _ => readCodedLiterals? true limit state bs

/-! ### Codes of lengths and offsets -/

/-- A code for numbers: what each symbol starts from and how many bits follow. -/
structure NumberCode where
  maxAccuracy : Nat
  maxSymbol : Nat
  predefined : Distribution
  base : Nat → Nat
  bits : Nat → Nat

/-- The value at an index of a list, or zero. -/
def at0 (xs : List Nat) (i : Nat) : Nat := xs[i]?.getD 0

def literalLengthBits : List Nat :=
  List.replicate 16 0 ++ [1, 1, 1, 1, 2, 2, 3, 3, 4, 6, 7, 8, 9, 10, 11, 12, 13, 14, 15, 16]

def literalLengthBases : List Nat :=
  List.range 16 ++ [16, 18, 20, 22, 24, 28, 32, 40, 48, 64, 128, 256, 512, 1024, 2048, 4096, 8192,
    16384, 32768, 65536]

def matchLengthBits : List Nat :=
  List.replicate 32 0 ++ [1, 1, 1, 1, 2, 2, 3, 3, 4, 4, 5, 7, 8, 9, 10, 11, 12, 13, 14, 15, 16]

def matchLengthBases : List Nat :=
  (List.range 32).map (· + 3) ++ [35, 37, 39, 41, 43, 47, 51, 59, 67, 83, 99, 131, 259, 515, 1027,
    2051, 4099, 8195, 16387, 32771, 65539]

def literalLengthCode : NumberCode where
  maxAccuracy := 9
  maxSymbol := 35
  predefined := ⟨6, #[4, 3, 2, 2, 2, 2, 2, 2, 2, 2, 2, 2, 2, 1, 1, 1, 2, 2, 2, 2, 2, 2, 2, 2, 2, 3, 2,
    1, 1, 1, 1, 1, -1, -1, -1, -1]⟩
  base := at0 literalLengthBases
  bits := at0 literalLengthBits

def offsetCode : NumberCode where
  maxAccuracy := 8
  maxSymbol := 31
  predefined := ⟨5, #[1, 1, 1, 1, 1, 1, 2, 2, 2, 1, 1, 1, 1, 1, 1, 1, 1, 1, 1, 1, 1, 1, 1, 1, -1, -1,
    -1, -1, -1]⟩
  base := fun symbol => 1 <<< symbol
  bits := id

def matchLengthCode : NumberCode where
  maxAccuracy := 9
  maxSymbol := 52
  predefined := ⟨6, #[1, 4, 3, 2, 2, 2, 2, 2, 2, 1, 1, 1, 1, 1, 1, 1, 1, 1, 1, 1, 1, 1, 1, 1, 1, 1, 1,
    1, 1, 1, 1, 1, 1, 1, 1, 1, 1, 1, 1, 1, 1, 1, 1, 1, 1, 1, -1, -1, -1, -1, -1, -1, -1]⟩
  base := at0 matchLengthBases
  bits := at0 matchLengthBits

/-- The table for a number code, by its mode: predefined, one symbol, described, or the last one. -/
def readTable? (code : NumberCode) (mode : Nat) (last : Option FseTable) (bs : Bytes) :
    Option (FseTable × Bytes) :=
  match mode with
  | 0 => some (.build code.predefined, bs)
  | 1 =>
    match bs with
    | [] => none
    | b :: bs => if code.maxSymbol < b.toNat then none else some (.single b.toNat, bs)
  | 2 => do
    let (distribution, used) ← Distribution.read? code.maxAccuracy code.maxSymbol bs
    return (.build distribution, bs.drop used)
  | _ => last.map (·, bs)

/-! ### Sequences -/

/-- The number of sequences at the front of a section. -/
def readCount? : Bytes → Option (Nat × Bytes)
  | [] => none
  | b0 :: bs =>
    if b0 < 128 then some (b0.toNat, bs)
    else match bs with
      | [] => none
      | b1 :: bs =>
        if b0 < 255 then some ((b0.toNat - 128) * 256 + b1.toNat, bs)
        else match bs with
          | [] => none
          | b2 :: bs => some (b1.toNat + b2.toNat * 256 + 0x7F00, bs)

/-- The offset that a value stands for, and the offsets to remember. The values one to three stand for
recent offsets, shifted by one where no literals come before the copy. -/
def resolveOffset (value literalLength : Nat) (recent : Nat × Nat × Nat) :
    Nat × (Nat × Nat × Nat) :=
  let (r1, r2, r3) := recent
  if 3 < value then (value - 3, (value - 3, r1, r2))
  else
    match value - 1 + (if literalLength = 0 then 1 else 0) with
    | 0 => (r1, recent)
    | 1 => (r2, (r2, r1, r3))
    | 2 => (r3, (r3, r1, r2))
    | _ => (r1 - 1, (r1 - 1, r1, r2))

/-- The tables and states that sequences are read with. -/
structure SequenceReader where
  literalLengths : FseTable
  offsets : FseTable
  matchLengths : FseTable
  literalState : Nat
  offsetState : Nat
  matchState : Nat
  bits : BackwardBits

/-- The numbers of the sequence that the states stand for: literals to copy, offset value and length of
the copy. -/
def SequenceReader.current? (r : SequenceReader) :
    Option ((Nat × Nat × Nat) × SequenceReader) := do
  let ll := (r.literalLengths.entry r.literalState).symbol
  let of := (r.offsets.entry r.offsetState).symbol
  let ml := (r.matchLengths.entry r.matchState).symbol
  let (offsetBits, s) ← r.bits.read? (offsetCode.bits of)
  let (matchBits, s) ← s.read? (matchLengthCode.bits ml)
  let (literalBits, s) ← s.read? (literalLengthCode.bits ll)
  return ((literalLengthCode.base ll + literalBits, offsetCode.base of + offsetBits,
    matchLengthCode.base ml + matchBits), { r with bits := s })

/-- The states of the next sequence. -/
def SequenceReader.advance? (r : SequenceReader) : Option SequenceReader := do
  let (literalState, s) ← r.literalLengths.next? r.literalState r.bits
  let (matchState, s) ← r.matchLengths.next? r.matchState s
  let (offsetState, s) ← r.offsets.next? r.offsetState s
  return { r with literalState, matchState, offsetState, bits := s }

/-- Carries out `n` sequences on the output of the frame, which starts at `origin` and has room up to
`capacity`. -/
def runSequences? (origin capacity : Nat) (r : SequenceReader) (literals : Bytes)
    (recent : Nat × Nat × Nat) (out : Array UInt8) :
    Nat → Option (Array UInt8 × Bytes × (Nat × Nat × Nat) × BackwardBits)
  | 0 => some (out, literals, recent, r.bits)
  | n + 1 => do
    let ((literalLength, offsetValue, matchLength), r) ← r.current?
    let (offset, recent) := resolveOffset offsetValue literalLength recent
    let (copied, literals) ← splitExact? literalLength literals
    let out := out ++ copied
    if capacity < out.size + matchLength || offset = 0 || out.size < origin + offset then none
    else
      let out := Lz4.copyBack offset matchLength out
      let r ← if n = 0 then some r else r.advance?
      runSequences? origin capacity r literals recent out n

/-- Appends literals where there is room. -/
def appendLiterals? (capacity : Nat) (out : Array UInt8) (literals : Bytes) :
    Option (Array UInt8) :=
  let out := out ++ literals
  if capacity < out.size then none else some out

/-- Reads the sequences of a block and carries them out. -/
def readSequences? (origin capacity : Nat) (state : BlockState) (literals bs : Bytes)
    (out : Array UInt8) : Option (Array UInt8 × BlockState) := do
  let (count, bs) ← readCount? bs
  if count = 0 then
    if bs.isEmpty then (appendLiterals? capacity out literals).map (·, state) else none
  else
    match bs with
    | [] => none
    | modes :: bs =>
      if modes.toNat % 4 ≠ 0 then none
      else
        let (ll, bs) ← readTable? literalLengthCode (modes.toNat / 64) state.literalLengths? bs
        let (of, bs) ← readTable? offsetCode (modes.toNat / 16 % 4) state.offsets? bs
        let (ml, bs) ← readTable? matchLengthCode (modes.toNat / 4 % 4) state.matchLengths? bs
        let s ← BackwardBits.open? bs
        let (literalState, s) ← ll.start? s
        let (offsetState, s) ← of.start? s
        let (matchState, s) ← ml.start? s
        let r : SequenceReader := ⟨ll, of, ml, literalState, offsetState, matchState, s⟩
        let (out, literals, recent, s) ← runSequences? origin capacity r literals state.recent out count
        if s.left ≠ 0 then none
        else
          let out ← appendLiterals? capacity out literals
          return (out, { state with
            literalLengths? := some ll, offsets? := some of, matchLengths? := some ml, recent })

/-- The content of a compressed block, appended to the output of the frame. `limit` bounds the size of
a block. -/
def decodeBlock? (origin capacity limit : Nat) (state : BlockState) (bs : Bytes)
    (out : Array UInt8) : Option (Array UInt8 × BlockState) :=
  if limit < bs.length || bs.length < 2 then none
  else do
    let (literals, bs, state) ← readLiterals? (min limit (capacity - out.size)) state bs
    readSequences? origin capacity state literals bs out

end SegmentStore.Zstd
