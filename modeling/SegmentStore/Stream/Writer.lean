import SegmentStore.Checksum

/-!
# Writing chunked streams

A stream is a sequence of chunks, cut whenever the buffer is full:

`| payload length, 4 bytes | compressed, 1 byte | checksum of the payload, 4 bytes | payload |`

* `StreamWriter.write` adds bytes one by one, so that the chunks depend on the bytes alone and not on
  how they were handed over.
* `StreamWriter.position` is where the next byte will be found.
* `StreamWriter.finish` writes out the last chunk.
-/

namespace SegmentStore

/-- The length of the head of a chunk. -/
def chunkHeadSize : Nat := 9

/-- A chunk of the given payload. -/
def encodeChunk (compressed : Bool) (payload : Bytes) : Bytes :=
  u32Bytes (UInt32.ofNat payload.length) ++ flagByte compressed :: u32Bytes (crc32 payload)
    ++ payload

/-- A stream being written. -/
structure StreamWriter where
  compress? : Option (Bytes → Bytes)
  /-- The bytes in each chunk but the last, at least one. -/
  bufferSize : Nat
  /-- The chunks written out. -/
  output : Array UInt8
  /-- The bytes of the chunk being filled. -/
  current : Array UInt8

namespace StreamWriter

/-- A stream without bytes. A buffer size of zero means one. -/
def empty (compress? : Option (Bytes → Bytes)) (bufferSize : Nat) : StreamWriter :=
  ⟨compress?, max bufferSize 1, #[], #[]⟩

/-- The chunk of some content: compressed where that makes it smaller. -/
def chunkOf (compress? : Option (Bytes → Bytes)) (content : Bytes) : Bytes :=
  match compress? with
  | none => encodeChunk false content
  | some compress =>
    let packed := compress content
    if packed.length < content.length then encodeChunk true packed else encodeChunk false content

/-- Writes out the chunk being filled, if there is anything in it. -/
def spill (w : StreamWriter) : StreamWriter :=
  if w.current.isEmpty then w
  else
    { w with
      output := w.output ++ chunkOf w.compress? w.current.toList
      current := #[] }

/-- Adds one byte. -/
def writeByte (w : StreamWriter) (b : UInt8) : StreamWriter :=
  let w := { w with current := w.current.push b }
  if w.current.size = w.bufferSize then w.spill else w

/-- Adds bytes. -/
def write (w : StreamWriter) (bs : Bytes) : StreamWriter := bs.foldl writeByte w

/-- The chunk and the offset in its content where the next byte will be found. -/
def position (w : StreamWriter) : Nat × Nat := (w.output.size, w.current.size)

/-- The bytes of the finished stream. -/
def finish (w : StreamWriter) : Bytes := w.spill.output.toList

end StreamWriter

end SegmentStore
