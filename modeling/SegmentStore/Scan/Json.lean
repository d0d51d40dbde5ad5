import SegmentStore.Scan.Options
import SegmentStore.Scan.Statistics
import SegmentStore.Schema.Json

/-!
# Options and statistics as JSON

* `ReaderOptions.decodeJson` and `WriterOptions.decodeJson` read options; every field may be left out.
* `ScanStatistics.toJson` reports what a scan has done.
-/

namespace SegmentStore

/-- The ways of reading files that options can name. -/
def Backend.onDisk : List Backend := [.positioned, .seeking]

/-- The name of a way of reading files. -/
def Backend.name : Backend → String
  | .memory => "InMemory"
  | .positioned => "PositionedRead"
  | .seeking => "NormalRead"

def CompressionKind.name : CompressionKind → String
  | .none => "None"
  | .lz4 => "Lz4"
  | .zstd => "Zstd"

namespace ReaderOptions

def toJson (o : ReaderOptions) : Json :=
  .ofFields [
    ("index_cache_capacity", .ofNat o.cacheCapacity.toNat),
    ("io_backend", .ofText o.backend.name),
    ("min_filter_block_num", .ofNat o.minFilterBlocks.toNat)]

/-- The names of the fields, in order. -/
def fieldNames : List String := ["index_cache_capacity", "io_backend", "min_filter_block_num"]

def ofJson? (j : Json) : Option ReaderOptions := do
  let fields ← Json.record? fieldNames j
  let cacheCapacity ← Json.optional? fields "index_cache_capacity" Json.u64? default.cacheCapacity
  let backend ← Json.optional? fields "io_backend" (Json.enum? Backend.onDisk Backend.name)
    default.backend
  let minFilterBlocks ← Json.optional? fields "min_filter_block_num" Json.u32?
    default.minFilterBlocks
  return { cacheCapacity, backend, minFilterBlocks }

def encodeJson (layout : Json.Layout) (o : ReaderOptions) : Bytes := o.toJson.render layout

/-- The options in a text. -/
def decodeJson (text : Bytes) : Except StorageError ReaderOptions := decodeText ofJson? text

end ReaderOptions

namespace WriterOptions

def toJson (o : WriterOptions) : Json :=
  .ofFields [
    ("rows_per_block", .ofNat o.rowsPerBlock.toNat),
    ("compress_kind", .ofText o.compression.name),
    ("stream_buffer_size", .ofNat o.bufferSize.toNat),
    ("null_supported", .bool o.nullSupported),
    ("bloom_filter_columns", .array (o.bloomColumns.map fun uid => .ofNat uid.toNat)),
    ("bf_bit_num", .ofNat o.bloomBits.toNat),
    ("bf_hash_function_num", .ofNat o.bloomHashes.toNat)]

/-- The names of the fields, in order. -/
def fieldNames : List String :=
  ["rows_per_block", "compress_kind", "stream_buffer_size", "null_supported",
    "bloom_filter_columns", "bf_bit_num", "bf_hash_function_num"]

def ofJson? (j : Json) : Option WriterOptions := do
  let fields ← Json.record? fieldNames j
  let rowsPerBlock ← Json.optional? fields "rows_per_block" Json.u32? default.rowsPerBlock
  let compression ← Json.optional? fields "compress_kind"
    (Json.enum? CompressionKind.all CompressionKind.name) default.compression
  let bufferSize ← Json.optional? fields "stream_buffer_size" Json.u32? default.bufferSize
  let nullSupported ← Json.optional? fields "null_supported" Json.bool? default.nullSupported
  let bloomColumns ← Json.optional? fields "bloom_filter_columns" (Json.list? Json.u32?)
    default.bloomColumns
  let bloomBits ← Json.optional? fields "bf_bit_num" Json.u32? default.bloomBits
  let bloomHashes ← Json.optional? fields "bf_hash_function_num" Json.u32? default.bloomHashes
  return { rowsPerBlock, compression, bufferSize, nullSupported, bloomColumns, bloomBits,
           bloomHashes, codecs := default.codecs }

def encodeJson (layout : Json.Layout) (o : WriterOptions) : Bytes := o.toJson.render layout

/-- The options in a text. -/
def decodeJson (text : Bytes) : Except StorageError WriterOptions := decodeText ofJson? text

end WriterOptions

/-- The counters by name. A scan keeps no clock, so its three durations are zero. -/
def ScanStatistics.toJson (s : ScanStatistics) : Json :=
  .ofFields [
    ("rows_del_filtered", .ofNat s.rowsDeleted),
    ("rows_stats_filtered", .ofNat s.rowsRuledOut),
    ("blocks_load", .ofNat s.blocksLoaded),
    ("raw_rows_read", .ofNat s.rowsRead),
    ("compressed_bytes_read", .ofNat s.traffic.stored),
    ("uncompressed_bytes_read", .ofNat s.traffic.content),
    ("index_load_ns", .ofNat 0),
    ("block_seek_ns", .ofNat 0),
    ("block_load_ns", .ofNat 0)]

end SegmentStore
