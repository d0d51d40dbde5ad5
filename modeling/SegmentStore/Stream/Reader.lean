import SegmentStore.Bytes.Decoder
import SegmentStore.Checksum
import SegmentStore.Segment.File
import SegmentStore.Stream.Writer

/-!
# Reading chunked streams

* `StreamReader` is a stream of a file with a cursor: the bytes of the current chunk that are still
  unread, and where the next chunk starts.
* `StreamReader.load` brings in the chunk at an offset, or leaves the reader as it was.
* `StreamReader.seek` moves the cursor, `StreamReader.read` reads an exact number of bytes across
  chunks, `StreamReader.readAll` reads the whole stream and puts the cursor back to its start.

Each operation gives its result and the reader after it, also when it fails.
-/

namespace SegmentStore

/-- Undoes the compression of a payload, given the most bytes the content may have. -/
abbrev Decompressor := Nat → Bytes → Except FormatFault Bytes

/-- Bytes that loads have brought in: as stored, and as content. -/
structure Traffic where
  stored : Nat
  content : Nat
  deriving DecidableEq, Inhabited

namespace Traffic

def zero : Traffic := ⟨0, 0⟩

def add (a b : Traffic) : Traffic := ⟨a.stored + b.stored, a.content + b.content⟩

end Traffic

/-- A stream of a file and a cursor in it. -/
structure StreamReader where
  /-- Where the stream starts in the file. -/
  offset : UInt64
  length : UInt64
  decompress? : Option Decompressor
  /-- The most bytes in the content of a chunk. -/
  bufferSize : Nat
  /-- What is unread of the current chunk. -/
  pending : Bytes
  /-- Where the next chunk starts in the stream. -/
  nextChunk : UInt64
  /-- What all loads so far have brought in. -/
  traffic : Traffic

namespace StreamReader

/-- A stream with its cursor at the start. -/
def make (offset length : UInt64) (decompress? : Option Decompressor) (bufferSize : Nat) :
    StreamReader :=
  ⟨offset, length, decompress?, bufferSize, [], 0, .zero⟩

/-- The head of a chunk. -/
structure ChunkHead where
  payloadLength : UInt32
  compressed : Bool
  checksum : UInt32

def decodeHead : Decoder ChunkHead := do
  let payloadLength ← Decoder.u32
  let compressed ← Decoder.flag
  let checksum ← Decoder.u32
  return ⟨payloadLength, compressed, checksum⟩

/-- The content of a chunk and the length of its payload. -/
def readChunk (file : SegmentFile) (s : StreamReader) (chunk : UInt64) :
    Except StorageError (Bytes × UInt64) := do
  if s.length ≤ chunk then
    throw .streamEof
  let start ← plus chunk 9
  if s.length < start then
    throw (.format .truncatedChunkHead)
  let headOffset ← plus s.offset chunk
  let headBytes ← file.readAt headOffset.toNat chunkHeadSize
  let (head, _) ← liftFault (decodeHead headBytes)
  let payloadLength := head.payloadLength.toUInt64
  let stop ← plus start payloadLength
  if s.length < stop then
    throw (.format (.chunkOverrun chunk.toNat s.length.toNat))
  let payloadOffset ← plus s.offset start
  let payload ← file.readAt payloadOffset.toNat payloadLength.toNat
  liftFault (verify .chunk head.checksum payload)
  if head.compressed then
    match s.decompress? with
    | none => throw (.format .unexpectedCompression)
    | some decompress =>
      let content ← liftFault (decompress s.bufferSize payload)
      return (content, payloadLength)
  else
    return (payload, payloadLength)

/-- Brings in the chunk at an offset and puts the cursor at its start. The next chunk starts where this
one ends, which was found to be a word when the chunk was read. -/
def load (file : SegmentFile) (s : StreamReader) (chunk : UInt64) :
    Except StorageError StreamReader := do
  let (content, payloadLength) ← s.readChunk file chunk
  return { s with
    pending := content
    nextChunk := chunk + 9 + payloadLength
    traffic := s.traffic.add ⟨payloadLength.toNat, content.length⟩ }

/-- Moves the cursor to a byte of a chunk. A position beyond the chunk leaves the cursor at its
start. -/
def seek (file : SegmentFile) (s : StreamReader) (chunk byte : UInt64) :
    Except StorageError Unit × StreamReader :=
  match s.load file chunk with
  | .error e => (.error e, s)
  | .ok s =>
    if s.pending.length < byte.toNat then
      (.error (.format (.seekBeyondChunk byte.toNat s.pending.length)), s)
    else
      (.ok (), { s with pending := s.pending.drop byte.toNat })

/-- Reads on from the cursor with at most `fuel` more chunks. What was read before a failure is
consumed. -/
def readFrom (file : SegmentFile) (n : Nat) (acc : Bytes) (s : StreamReader) :
    Nat → Except StorageError Bytes × StreamReader
  | 0 => (.error .streamEof, s)
  | fuel + 1 =>
    let got := s.pending.take n
    let s := { s with pending := s.pending.drop n }
    let acc := acc ++ got
    let left := n - got.length
    if left = 0 then (.ok acc, s)
    else
      match s.load file s.nextChunk with
      | .error e => (.error e, s)
      | .ok s => readFrom file left acc s fuel

/-- Reads exactly `n` bytes from the cursor, across chunks. Each chunk takes at least the bytes of its
head, so a stream has fewer chunks than bytes. -/
def read (file : SegmentFile) (s : StreamReader) (n : Nat) :
    Except StorageError Bytes × StreamReader :=
  s.readFrom file n [] (s.length.toNat + 2)

/-- Reads one byte. -/
def readByte (file : SegmentFile) (s : StreamReader) : Except StorageError UInt8 × StreamReader :=
  match s.read file 1 with
  | (.ok [b], s) => (.ok b, s)
  | (.ok _, s) => (.error .streamEof, s)
  | (.error e, s) => (.error e, s)

/-- The content of all chunks from an offset on, with at most `fuel` chunks. -/
def readChunks (file : SegmentFile) (acc : Array UInt8) (s : StreamReader) (chunk : UInt64) :
    Nat → Except StorageError Bytes × StreamReader
  | 0 => (.ok acc.toList, s)
  | fuel + 1 =>
    if chunk < s.length then
      match s.load file chunk with
      | .error e => (.error e, s)
      | .ok s => readChunks file (acc ++ s.pending) s s.nextChunk fuel
    else
      (.ok acc.toList, { s with pending := [], nextChunk := 0 })

/-- Reads the whole stream from its start, and then puts the cursor there. -/
def readAll (file : SegmentFile) (s : StreamReader) : Except StorageError Bytes × StreamReader :=
  s.readChunks file #[] 0 (s.length.toNat + 1)

end StreamReader

end SegmentStore
