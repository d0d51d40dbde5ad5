import SegmentStore.Bytes.Word
import SegmentStore.Value.Basic
import SegmentStore.Text.Quoted

/-!
# Causes of failure

* `FormatFault` lists what can be wrong with stored bytes.
* `ArgumentFault` lists what can be wrong with a request.
* `StorageError` is the failure of an operation, `StorageError.message` its text.
* `plus` is a sum of words that fails where it is no word.
-/

namespace SegmentStore

/-- What a checksum was computed over. -/
inductive Checked where
  | header
  | chunk
  deriving DecidableEq

/-- Something wrong with the bytes of a segment. -/
inductive FormatFault where
  | endOfBuffer
  | unknownValueTag (tag : UInt8)
  | truncatedString
  | invalidString
  | zoneMapType (min max : Value) (type : FieldType)
  | zoneMapTrailing
  | missingPositions
  | bloomParameters (bits hashes : Nat)
  | bloomLength (size entrySize : Nat)
  | checksum (what : Checked) (expected found : UInt32)
  | fileTooSmall (size : Nat)
  | headerTooLong (header file : Nat)
  | unknownFieldType (tag : UInt8)
  | unknownEncoding (tag : UInt8)
  | unknownStreamKind (tag : UInt8)
  | badMagic (magic : Bytes)
  | readOutOfRange (length offset size : Nat)
  | truncatedChunkHead
  | chunkOverrun (chunk length : Nat)
  | seekBeyondChunk (offset size : Nat)
  | unexpectedCompression
  | unknownCompression (tag : UInt32)
  | lz4TooShort
  | chunkTooLarge (size limit : Nat)
  | decompression
  | chunkSize (size expected : Nat)
  | zeroRowsPerBlock
  | unknownColumn (uid : UniqueId)
  | indexEntries (expected found : Nat)
  | indexStream (uid : UniqueId)
  | noEncoding (uid : UniqueId)
  | noDataStream (uid : UniqueId)
  deriving DecidableEq

/-- Something wrong with a request. -/
inductive ArgumentFault where
  | literalType (literal : Value) (type : FieldType) (column : String)
  | zeroRowsPerBlock
  | bloomParameters (bits hashes : Nat)
  | rowLength (row columns : Nat)
  | valueType (value : Value) (uid : UniqueId) (type : FieldType)
  | nullWithoutPresent (uid : UniqueId)
  | notInitialized
  | notSeeked
  | blockRange (first last count : Nat)
  | vectorType (uid : UniqueId) (stored wanted : FieldType)
  deriving DecidableEq

/-- The failure of a storage operation. -/
inductive StorageError where
  /-- The stored bytes are malformed. -/
  | format (fault : FormatFault)
  /-- The request does not make sense. -/
  | argument (fault : ArgumentFault)
  /-- The schema has no such column. -/
  | invalidColumn (cid : ColumnId)
  /-- A column could not be positioned at a block. -/
  | columnSeek (uid : UniqueId) (block : Nat)
  /-- A stream ran out of bytes. -/
  | streamEof
  /-- The scan ran out of data. -/
  | dataEof
  /-- The file could not be read. -/
  | io
  /-- A JSON text could not be decoded. -/
  | json
  /-- A value was pushed into a vector of another type. -/
  | vectorMismatch (value : Value) (type : FieldType)
  /-- A sum of words is no word. Whatever was going on ends here: no operation turns this failure into
  another, or goes on after it. -/
  | overflow
  deriving DecidableEq

/-- Carries a fault of the stored bytes to the failure of an operation. -/
def liftFault {α : Type} : Except FormatFault α → Except StorageError α
  | .ok x => .ok x
  | .error e => .error (.format e)

theorem ok_bind {ε α β : Type} (a : α) (f : α → Except ε β) : (Except.ok a >>= f) = f a := rfl

/-- The sum of two words, if it is a word. -/
def plus (a b : UInt64) : Except StorageError UInt64 :=
  if a.toNat + b.toNat < UInt64.size then .ok (a + b) else .error .overflow

/-! ### Texts -/

/-- A checksum as eight hexadecimal digits. -/
def hexWord (x : UInt32) : String :=
  let ds := Nat.toDigits 16 x.toNat
  "0x" ++ String.ofList (List.replicate (8 - ds.length) '0' ++ ds)

def Checked.name : Checked → String
  | .header => "segment header"
  | .chunk => "stream chunk"

/-- Parameters that no bloom filter can have. -/
def bloomParametersText (bits hashes : Nat) : String :=
  s!"invalid bloom filter parameters: {bits} bits, {hashes} hash functions"

def FormatFault.message : FormatFault → String
  | .endOfBuffer => "unexpected end of buffer"
  | .unknownValueTag t => s!"unknown value tag {t.toNat}"
  | .truncatedString => "truncated string value"
  | .invalidString => "invalid string"
  | .zoneMapType min max ty =>
    "zone map statistic " ++ min.display ++ ".." ++ max.display ++ " does not match column type "
      ++ ty.display
  | .zoneMapTrailing => "trailing bytes after zone map"
  | .missingPositions => "zone map entry is missing positions"
  | .bloomParameters bits hashes => bloomParametersText bits hashes
  | .bloomLength size entry =>
    s!"bloom filter stream of {size} bytes is not a multiple of entry size {entry}"
  | .checksum what expected found =>
    what.name ++ " checksum mismatch: expected " ++ hexWord expected ++ ", found " ++ hexWord found
  | .fileTooSmall n => s!"segment file of {n} bytes is smaller than header"
  | .headerTooLong h n => s!"header length {h} exceeds file length {n}"
  | .unknownFieldType t => s!"unknown field type {t.toNat}"
  | .unknownEncoding t => s!"unknown column encoding {t.toNat}"
  | .unknownStreamKind t => s!"unknown stream kind {t.toNat}"
  | .badMagic magic => "bad segment magic " ++ Text.quoted (Text.lossy magic)
  | .readOutOfRange length offset size =>
    s!"read of {length} bytes at {offset} is out of file range {size}"
  | .truncatedChunkHead => "truncated chunk head"
  | .chunkOverrun chunk length => s!"chunk at {chunk} overruns stream of {length} bytes"
  | .seekBeyondChunk offset size => s!"byte offset {offset} beyond chunk of {size} bytes"
  | .unexpectedCompression => "compressed chunk in an uncompressed segment"
  | .unknownCompression t => s!"unknown compression kind {t.toNat}"
  | .lz4TooShort => "lz4 chunk is too short"
  | .chunkTooLarge size limit => s!"decompressed chunk of {size} bytes exceeds buffer size {limit}"
  | .decompression => "failed to decompress chunk"
  | .chunkSize size expected => s!"decompressed chunk has {size} bytes, expected {expected}"
  | .zeroRowsPerBlock => "rows per block is zero"
  | .unknownColumn uid => s!"unknown column unique id {uid.toNat}"
  | .indexEntries expected found => s!"expected {expected} index entries, found {found}"
  | .indexStream uid => s!"failed to read index stream of column {uid.toNat}"
  | .noEncoding uid => s!"no encoding for column {uid.toNat}"
  | .noDataStream uid => s!"column {uid.toNat} has no data stream"

def ArgumentFault.message : ArgumentFault → String
  | .literalType v ty column =>
    "literal " ++ v.display ++ " does not match type " ++ ty.display ++ " of column " ++ column
  | .zeroRowsPerBlock => "rows per block is zero"
  | .bloomParameters bits hashes => bloomParametersText bits hashes
  | .rowLength row columns => s!"row has {row} values, segment has {columns} columns"
  | .valueType v uid ty =>
    "value " ++ v.display ++ s!" does not fit column {uid.toNat} of type " ++ ty.display
  | .nullWithoutPresent uid => s!"null in column {uid.toNat} without present stream"
  | .notInitialized => "segment reader is not initialized"
  | .notSeeked => "seek_to_block must be called before get_block"
  | .blockRange first last count => s!"invalid block range {first}..={last} of {count} blocks"
  | .vectorType uid stored wanted =>
    s!"column {uid.toNat} of type " ++ stored.display ++ " read into a " ++ wanted.display
      ++ " vector"

/-- The text of a rejected push. -/
def mismatchText (v : Value) (ty : FieldType) : String :=
  "cannot push " ++ v.display ++ " into a " ++ ty.display ++ " array"

/-- The text of a failure. -/
def StorageError.message : StorageError → String
  | .format fault => "format error: " ++ fault.message
  | .argument fault => "invalid argument: " ++ fault.message
  | .invalidColumn cid => s!"invalid column id: {cid.toNat}"
  | .columnSeek uid block => s!"failed to seek column {uid.toNat} to block {block}"
  | .streamEof => "end of column stream"
  | .dataEof => "no more data in segment"
  | .io => "IO error"
  | .json => "JSON decode error"
  | .vectorMismatch v ty => "array error: " ++ mismatchText v ty
  | .overflow => "attempt to add with overflow"

end SegmentStore
