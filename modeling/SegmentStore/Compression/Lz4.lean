import SegmentStore.Bytes.Decoder
import Std.Data.HashMap.Basic

/-!
# LZ4 blocks

A block is a run of sequences, each made of literals and a copy of earlier output, and ends in
literals.

* `Lz4.decodeBlock` reads a block and fails where it leaves the input or the room for output, or where
  a copy starts before the output.
* `Lz4.plan` cuts an input into sequences, taking for each place the last earlier place with the same
  four bytes, and `Lz4.encodeBlock` writes them.
* `Lz4.compress` and `Lz4.decompress` put the size of the content in front.
-/

namespace SegmentStore.Lz4

/-- Appends `n` bytes from `offset` bytes back, one by one, so that a copy may run into itself. -/
def copyBack (offset : Nat) : Nat → Array UInt8 → Array UInt8
  | 0, out => out
  | n + 1, out => copyBack offset n (out.push (out[out.size - offset]?.getD 0))

/-! ### Reading -/

/-- Adds further length bytes to a length: 255 means that another one follows. -/
def readExtension (n : Nat) : Bytes → Option (Nat × Bytes)
  | [] => none
  | b :: bs => if b = 255 then readExtension (n + 255) bs else some (n + b.toNat, bs)

/-- A length of four bits, with further bytes where all bits are set. -/
def readLength (nibble : Nat) (bs : Bytes) : Option (Nat × Bytes) :=
  if nibble = 15 then readExtension 15 bs else some (nibble, bs)

/-- Where a sequence leads: to the end of the block, or to more input. -/
inductive Step where
  | done (out : Array UInt8)
  | more (out : Array UInt8) (rest : Bytes)

/-- Reads one sequence, with room for `capacity` bytes of output in all. -/
def decodeSequence (capacity : Nat) (out : Array UInt8) (input : Bytes) : Option Step := do
  match input with
  | [] => none
  | token :: bs =>
    let (literalLength, bs) ← readLength (token.toNat / 16) bs
    let (literals, bs) ← splitExact? literalLength bs
    let out := out ++ literals
    if capacity < out.size then none
    else match bs with
      | [] => some (.done out)
      | [_] => none
      | lo :: hi :: bs =>
        let offset := lo.toNat + 256 * hi.toNat
        let (matchLength, bs) ← readLength (token.toNat % 16) bs
        if capacity < out.size + matchLength + 4 then none
        else if offset = 0 || out.size < offset then none
        else some (.more (copyBack offset (matchLength + 4) out) bs)

/-- Reads at most `fuel` sequences. -/
def decodeSequences (capacity : Nat) : Nat → Array UInt8 → Bytes → Option (Array UInt8)
  | 0, _, _ => none
  | fuel + 1, out, input =>
    match decodeSequence capacity out input with
    | none => none
    | some (.done out) => some out
    | some (.more out rest) => decodeSequences capacity fuel out rest

/-- The content of a block, which takes at most `capacity` bytes. Each sequence takes a byte of the
input. -/
def decodeBlock (capacity : Nat) (input : Bytes) : Option Bytes :=
  (decodeSequences capacity (input.length + 1) #[] input).map Array.toList

/-- The content of a block behind its size. -/
def decompress (limit : Nat) (payload : Bytes) : Except FormatFault Bytes :=
  match splitExact? 4 payload with
  | none => .error .lz4TooShort
  | some (sizeBytes, body) =>
    let size := leNat sizeBytes
    if limit < size then .error (.chunkTooLarge size limit)
    else match decodeBlock size body with
      | none => .error .decompression
      | some content =>
        if content.length = size then .ok content
        else .error (.chunkSize content.length size)

/-! ### Writing -/

/-- Literals and the copy after them. -/
structure Sequence where
  literals : Bytes
  offset : Nat
  matchLength : Nat

/-- The length bytes after a nibble that is full. -/
def extension (n : Nat) : Bytes :=
  if n < 15 then [] else List.replicate ((n - 15) / 255) 255 ++ [UInt8.ofNat ((n - 15) % 255)]

def encodeSequence (s : Sequence) : Bytes :=
  let literalNibble := min s.literals.length 15
  let matchNibble := min (s.matchLength - 4) 15
  UInt8.ofNat (literalNibble * 16 + matchNibble) :: extension s.literals.length ++ s.literals
    ++ leBytes 2 s.offset ++ extension (s.matchLength - 4)

/-- The literals at the end of a block. -/
def encodeLast (literals : Bytes) : Bytes :=
  UInt8.ofNat (min literals.length 15 * 16) :: extension literals.length ++ literals

/-- The bytes of an input between two places. -/
def between (input : Array UInt8) (start stop : Nat) : Bytes := (input.extract start stop).toList

/-- The four bytes at a place as a number. -/
def wordAt (input : Array UInt8) (i : Nat) : Nat := leNat (between input i (i + 4))

/-- How far two places of the input agree, up to `limit` bytes. -/
def agreement (input : Array UInt8) (i j : Nat) : Nat → Nat
  | 0 => 0
  | limit + 1 =>
    if input[i]? = input[j]? then agreement input (i + 1) (j + 1) limit + 1 else 0

/-- Plans the sequences from place `i` on, with literals pending since `anchor`. A copy starts at least
twelve bytes before the end and leaves the last five bytes as literals. -/
def planFrom (input : Array UInt8) : Nat → Nat → Nat → Std.HashMap Nat Nat → Array Sequence →
    Array Sequence × Nat
  | 0, anchor, _, _, acc => (acc, anchor)
  | fuel + 1, anchor, i, seen, acc =>
    if input.size < i + 12 then (acc, anchor)
    else
      let word := wordAt input i
      let earlier := seen[word]?
      let seen := seen.insert word i
      match earlier with
      | some j =>
        if i - j ≤ 65535 then
          let n := 4 + agreement input (j + 4) (i + 4) (input.size - 5 - (i + 4))
          planFrom input fuel (i + n) (i + n) seen
            (acc.push ⟨between input anchor i, i - j, n⟩)
        else planFrom input fuel anchor (i + 1) seen acc
      | none => planFrom input fuel anchor (i + 1) seen acc

/-- The sequences of an input and the place where the last literals start. -/
def plan (input : Array UInt8) : Array Sequence × Nat := planFrom input input.size 0 0 ∅ #[]

def encodeBlock (content : Bytes) : Bytes :=
  let input := content.toArray
  let (sequences, anchor) := plan input
  sequences.toList.flatMap encodeSequence ++ encodeLast (between input anchor input.size)

/-- The size of the content and its block. -/
def compress (content : Bytes) : Bytes := leBytes 4 content.length ++ encodeBlock content

end SegmentStore.Lz4
