import SegmentStore.Compression.Kind

/-!
# Options of readers and writers

* `ReaderOptions` are the settings of a scan, `WriterOptions` those of a segment being written.
-/

namespace SegmentStore

/-- Settings of a scan. -/
structure ReaderOptions where
  /-- The bytes an index cache made from these options may hold. -/
  cacheCapacity : UInt64
  /-- How files are read. -/
  backend : Backend
  /-- Bloom filters are asked only when at least this many blocks are left. -/
  minFilterBlocks : UInt32
  deriving DecidableEq

namespace ReaderOptions

def default : ReaderOptions := ⟨268435456, .positioned, 10⟩

end ReaderOptions

/-- Settings of a segment being written. -/
structure WriterOptions where
  rowsPerBlock : UInt32
  compression : CompressionKind
  /-- The most bytes in the content of a chunk. -/
  bufferSize : UInt32
  /-- Nullable columns record their nulls. -/
  nullSupported : Bool
  /-- Columns with a bloom filter. -/
  bloomColumns : List UniqueId
  bloomBits : UInt32
  bloomHashes : UInt32
  codecs : Codecs

namespace WriterOptions

def default : WriterOptions := ⟨1024, .lz4, 65536, true, [], 4096, 4, .standard⟩

/-- The codec of the chunks, none where they are stored as they are. -/
def codec? (o : WriterOptions) : Option Codec := o.codecs.codec? o.compression

/-- Makes the payloads of the chunks. -/
def compressor? (o : WriterOptions) : Option (Bytes → Bytes) := o.codec?.map Codec.compress

/-- Makes the contents of the chunks again. -/
def decompressor? (o : WriterOptions) : Option Decompressor := o.codec?.map Codec.decompress

end WriterOptions

end SegmentStore
