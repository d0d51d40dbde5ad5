import SegmentStore.Bytes.Decoder
import SegmentStore.Checksum
import SegmentStore.Segment.File

/-!
# Segment headers

A segment file starts with a header: a magic, a version, and a checksummed body that lists the
properties of the segment, its columns and its streams. The streams follow in the order of the list.

* `SegmentHeader.encode` writes a header, `SegmentHeader.readFrom` reads the one at the start of a
  file with its length.
* `SegmentHeader.checkVersion` refuses a wrong magic. A newer version is accepted, since the reader
  may still understand it.
* `StreamInfo.locate` finds where each stream starts.
-/

namespace SegmentStore

/-- What a stream of a column holds. -/
inductive StreamKind where
  /-- The zone map. -/
  | rowIndex
  /-- One bloom filter for each block. -/
  | bloomFilter
  /-- One byte for each row, not zero for a null. -/
  | present
  /-- The values. -/
  | data
  deriving DecidableEq, Inhabited

namespace StreamKind

def all : List StreamKind := [.rowIndex, .bloomFilter, .present, .data]

/-- The tag that headers record. -/
def tag : StreamKind → UInt8
  | .rowIndex => 0
  | .bloomFilter => 1
  | .present => 2
  | .data => 3

def ofTag? (t : UInt8) : Option StreamKind := all.find? fun k => k.tag = t

def name : StreamKind → String
  | .rowIndex => "RowIndex"
  | .bloomFilter => "BloomFilter"
  | .present => "Present"
  | .data => "Data"

/-- The stream is read when a segment is opened, not while scanning. -/
def isIndex : StreamKind → Bool
  | .rowIndex => true
  | .bloomFilter => true
  | .present => false
  | .data => false

end StreamKind

/-- How the values of a column are laid out. -/
inductive ColumnEncoding where
  | plain
  deriving DecidableEq, Inhabited

namespace ColumnEncoding

def tag : ColumnEncoding → UInt8
  | .plain => 0

def ofTag? (t : UInt8) : Option ColumnEncoding := if t = 0 then some .plain else none

end ColumnEncoding

/-- A column as a segment stores it. -/
structure StoredColumn where
  uniqueId : UniqueId
  type : FieldType
  isNullable : Bool
  encoding : ColumnEncoding
  deriving DecidableEq

/-- A stream of a segment. -/
structure StreamInfo where
  uniqueId : UniqueId
  kind : StreamKind
  length : UInt64
  deriving DecidableEq

/-- Everything a segment says about itself. -/
structure SegmentHeader where
  /-- Eleven bytes that mark a segment file. -/
  magic : Vector UInt8 11
  version : UInt32
  rowCount : UInt64
  /-- Zero leaves the choice to the segment group. -/
  rowsPerBlock : UInt32
  /-- The tag of the compression, looked up when the segment is opened. -/
  compression : UInt32
  bufferSize : UInt32
  bloomHashes : UInt32
  bloomBits : UInt32
  nullSupported : Bool
  columns : List StoredColumn
  streams : List StreamInfo
  deriving DecidableEq

namespace SegmentHeader

/-- The magic of segment files, `COLUMN DATA`. -/
def segmentMagic : Vector UInt8 11 :=
  #v[0x43, 0x4F, 0x4C, 0x55, 0x4D, 0x4E, 0x20, 0x44, 0x41, 0x54, 0x41]

/-- The version that writers record. -/
def currentVersion : UInt32 := 1

/-- The length of the part before the body. -/
def prefixSize : Nat := 23

/-! ### Writing -/

def encodeColumn (c : StoredColumn) : Bytes :=
  u32Bytes c.uniqueId ++ [c.type.tag, flagByte c.isNullable, c.encoding.tag]

def encodeStream (s : StreamInfo) : Bytes :=
  u32Bytes s.uniqueId ++ s.kind.tag :: u64Bytes s.length

def encodeBody (h : SegmentHeader) : Bytes :=
  u64Bytes h.rowCount ++ u32Bytes h.rowsPerBlock ++ u32Bytes h.compression
    ++ u32Bytes h.bufferSize ++ u32Bytes h.bloomHashes ++ u32Bytes h.bloomBits
    ++ flagByte h.nullSupported :: u32Bytes (UInt32.ofNat h.columns.length)
    ++ h.columns.flatMap encodeColumn
    ++ u32Bytes (UInt32.ofNat h.streams.length)
    ++ h.streams.flatMap encodeStream

def encode (h : SegmentHeader) : Bytes :=
  let body := h.encodeBody
  h.magic.toList ++ u32Bytes h.version ++ u32Bytes (UInt32.ofNat body.length)
    ++ u32Bytes (crc32 body) ++ body

/-! ### Reading -/

def decodeColumn : Decoder StoredColumn := do
  let uid ← Decoder.u32
  let typeTag ← Decoder.u8
  let type ← Decoder.named (FieldType.ofTag? typeTag) (.unknownFieldType typeTag)
  let isNullable ← Decoder.flag
  let encodingTag ← Decoder.u8
  let encoding ← Decoder.named (ColumnEncoding.ofTag? encodingTag) (.unknownEncoding encodingTag)
  return ⟨uid, type, isNullable, encoding⟩

def decodeStream : Decoder StreamInfo := do
  let uid ← Decoder.u32
  let kindTag ← Decoder.u8
  let kind ← Decoder.named (StreamKind.ofTag? kindTag) (.unknownStreamKind kindTag)
  let length ← Decoder.u64
  return ⟨uid, kind, length⟩

/-- Reads a body. Bytes after the last stream are ignored. -/
def decodeBody (magic : Vector UInt8 11) (version : UInt32) : Decoder SegmentHeader := do
  let rowCount ← Decoder.u64
  let rowsPerBlock ← Decoder.u32
  let compression ← Decoder.u32
  let bufferSize ← Decoder.u32
  let bloomHashes ← Decoder.u32
  let bloomBits ← Decoder.u32
  let nullSupported ← Decoder.flag
  let columnCount ← Decoder.u32
  let columns ← Decoder.many decodeColumn columnCount.toNat
  let streamCount ← Decoder.u32
  let streams ← Decoder.many decodeStream streamCount.toNat
  return { magic, version, rowCount, rowsPerBlock, compression, bufferSize, bloomHashes,
           bloomBits, nullSupported, columns, streams }

/-- The part of a header before its body. -/
structure Front where
  magic : Vector UInt8 11
  version : UInt32
  bodyLength : UInt32
  checksum : UInt32

def decodeFront : Decoder Front := do
  let magic ← Decoder.bytes 11 .endOfBuffer
  let version ← Decoder.u32
  let bodyLength ← Decoder.u32
  let checksum ← Decoder.u32
  return ⟨Vector.ofFn fun i => magic[i]?.getD 0, version, bodyLength, checksum⟩

/-- The header at the start of a file and its length. Magic and version are not looked at. -/
def readFrom (file : SegmentFile) : Except StorageError (SegmentHeader × UInt64) := do
  if file.size < prefixSize then
    throw (.format (.fileTooSmall file.size))
  let start ← file.readAt 0 prefixSize
  let (front, _) ← liftFault (decodeFront start)
  let length := prefixSize + front.bodyLength.toNat
  if file.size < length then
    throw (.format (.headerTooLong length file.size))
  let body ← file.readAt prefixSize front.bodyLength.toNat
  liftFault (verify .header front.checksum body)
  let (header, _) ← liftFault (decodeBody front.magic front.version body)
  return (header, UInt64.ofNat length)

/-- Refuses a file that is no segment. -/
def checkVersion (h : SegmentHeader) : Except StorageError Unit :=
  if h.magic = segmentMagic then .ok () else .error (.format (.badMagic h.magic.toList))

end SegmentHeader

/-! ### Where streams are -/

/-- A stream and where it starts in the file. -/
structure LocatedStream where
  info : StreamInfo
  offset : UInt64

/-- Every stream with its start. Each one starts where the one before ends, and the last one ends at a
word as well. -/
def StreamInfo.locateAll (offset : UInt64) : List StreamInfo → Except StorageError (List LocatedStream)
  | [] => .ok []
  | s :: ss => do
    let next ← plus offset s.length
    let located ← locateAll next ss
    return ⟨s, offset⟩ :: located

/-- The streams that are needed, with their starts. Streams that are not needed take space all the
same. -/
def StreamInfo.locate (streams : List StreamInfo) (headerLength : UInt64)
    (needed : StreamInfo → Bool) : Except StorageError (List LocatedStream) := do
  let located ← locateAll headerLength streams
  return located.filter fun s => needed s.info

end SegmentStore
