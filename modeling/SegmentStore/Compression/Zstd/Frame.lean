import SegmentStore.Compression.XxHash
import SegmentStore.Compression.Zstd.Block

/-!
# Zstandard frames

* `FrameHeader` is what a frame says in front of its blocks.
* `decodeFrame?` reads one frame, `decodeFrames?` reads a payload made of frames, those to be skipped
  among them.
* `encodeFrame` writes one frame of raw blocks and of blocks that repeat one byte.
* `Zstd.decompress` and `Zstd.compress` are the codec of chunks.
-/

namespace SegmentStore.Zstd

/-- The most bytes in the content of a block. -/
def blockLimit : Nat := 128 * 1024

/-- The marks at the start of a frame and of a frame to be skipped, the latter up to its last four
bits. -/
def frameMagic : Nat := 0xFD2FB528

def skipMagic : Nat := 0x184D2A50

/-! ### Frame headers -/

structure FrameHeader where
  windowSize : Nat
  contentSize? : Option Nat
  hasChecksum : Bool

/-- The header behind the magic, and the bytes after it. Frames that need a dictionary are refused. -/
def readHeader? (bs : Bytes) : Option (FrameHeader × Bytes) := do
  match bs with
  | [] => none
  | descriptor :: bs =>
    let d := descriptor.toNat
    let single := d / 32 % 2 = 1
    if d / 8 % 2 = 1 then none
    else
      let (window?, bs) ←
        if single then some (none, bs)
        else match bs with
          | [] => none
          | b :: bs =>
            let log := b.toNat / 8 + 10
            if 31 < log then none
            else some (some ((1 <<< log) + (1 <<< log) / 8 * (b.toNat % 8)), bs)
      let dictionarySize := at0 [0, 1, 2, 4] (d % 4)
      let (dictionary, bs) ← splitExact? dictionarySize bs
      let sizeFlag := d / 64
      let sizeWidth := if sizeFlag = 0 then (if single then 1 else 0) else 1 <<< sizeFlag
      let (sizeBytes, bs) ← splitExact? sizeWidth bs
      let size := leNat sizeBytes + if sizeFlag = 1 then 256 else 0
      let contentSize? := if sizeWidth = 0 || size = 0xFFFFFFFFFFFFFFFF then none else some size
      if leNat dictionary ≠ 0 then none
      else some (⟨window?.getD size, contentSize?, d / 4 % 2 = 1⟩, bs)

/-! ### Blocks -/

/-- The blocks of a frame and the bytes after them. -/
def decodeBlocks? (origin capacity limit : Nat) (state : BlockState) (bs : Bytes)
    (out : Array UInt8) : Nat → Option (Array UInt8 × Bytes)
  | 0 => none
  | fuel + 1 => do
    let (header, bs) ← splitExact? 3 bs
    let h := leNat header
    let size := h / 8
    let (out, state, bs) ← match h / 2 % 4 with
      | 0 => do
        let (raw, bs) ← splitExact? size bs
        let out ← appendLiterals? capacity out raw
        some (out, state, bs)
      | 1 =>
        match bs with
        | [] => none
        | b :: bs =>
          if capacity < out.size + size then none
          else some (out ++ Array.replicate size b, state, bs)
      | 2 => do
        let (block, bs) ← splitExact? size bs
        let (out, state) ← decodeBlock? origin capacity limit state block out
        some (out, state, bs)
      | _ => none
    if h % 2 = 1 then some (out, bs)
    else decodeBlocks? origin capacity limit state bs out fuel

/-- Reads one frame behind its magic. -/
def decodeFrame? (capacity : Nat) (bs : Bytes) (out : Array UInt8) :
    Option (Array UInt8 × Bytes) := do
  if bs.length < 5 then none
  else
    let (header, bs) ← readHeader? bs
    let origin := out.size
    let limit := min header.windowSize blockLimit
    let (out, bs) ← decodeBlocks? origin capacity limit .start bs out (bs.length + 1)
    let content := (out.extract origin out.size).toList
    if header.contentSize?.any (· ≠ content.length) then none
    else if header.hasChecksum then do
      let (stored, bs) ← splitExact? 4 bs
      if leNat stored = (xxHash64 content).toNat % UInt32.size then some (out, bs) else none
    else some (out, bs)

/-- Reads frames until the bytes are used up. -/
def decodeFrames? (capacity : Nat) (bs : Bytes) (out : Array UInt8) : Nat → Option (Array UInt8)
  | 0 => none
  | fuel + 1 =>
    if bs.isEmpty then some out
    else if bs.length < 5 then none
    else do
      let (magicBytes, rest) ← splitExact? 4 bs
      let magic := leNat magicBytes
      if magic / 16 = skipMagic / 16 then
        let (sizeBytes, rest) ← splitExact? 4 rest
        let (_, rest) ← splitExact? (leNat sizeBytes) rest
        decodeFrames? capacity rest out fuel
      else if magic = frameMagic then
        let (out, rest) ← decodeFrame? capacity rest out
        decodeFrames? capacity rest out fuel
      else none

/-- The content of a payload, of at most `limit` bytes. -/
def decompress (limit : Nat) (payload : Bytes) : Except FormatFault Bytes :=
  match decodeFrames? limit payload #[] (payload.length + 1) with
  | some out => .ok out.toList
  | none => .error .decompression

/-! ### Writing -/

/-- A block of at most 128 KiB: one byte repeated where all are equal, the bytes as they are
otherwise. -/
def encodeBlock (last : Bool) (content : Bytes) : Bytes :=
  let size := content.length * 8 + last.toNat
  match content with
  | b :: rest =>
    if rest.all (· = b) then leBytes 3 (size + 2) ++ [b] else leBytes 3 size ++ content
  | [] => leBytes 3 size

/-- The blocks of some content, at most `fuel` of them. -/
def encodeBlocks : Nat → Bytes → Bytes
  | 0, content => encodeBlock true content
  | fuel + 1, content =>
    if content.length ≤ blockLimit then encodeBlock true content
    else encodeBlock false (content.take blockLimit) ++ encodeBlocks fuel (content.drop blockLimit)

/-- A frame that states its size in eight bytes and carries no checksum. -/
def encodeFrame (content : Bytes) : Bytes :=
  leBytes 4 frameMagic ++ [0xE0] ++ leBytes 8 content.length
    ++ encodeBlocks (content.length / blockLimit) content

/-- The payload of some content. -/
def compress (content : Bytes) : Bytes := encodeFrame content

end SegmentStore.Zstd
