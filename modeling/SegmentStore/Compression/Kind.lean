import SegmentStore.Compression.Lz4
import SegmentStore.Compression.Zstd.Frame
import SegmentStore.Stream.Reader

/-!
# Kinds of compression

* `CompressionKind` is the compression of all chunks of a segment, with the tag that headers record.
* `Codecs` makes and unmakes the payloads of each kind; segments without compression need no codec.
  `Codecs.standard` is what segments are written and read with.
* `Codecs.decompressorFor` is the decompressor for the tag of a header.
-/

namespace SegmentStore

/-- The compression of the chunks of a segment. -/
inductive CompressionKind where
  | none
  | lz4
  | zstd
  deriving DecidableEq, Inhabited

namespace CompressionKind

def all : List CompressionKind := [.none, .lz4, .zstd]

/-- The tag that headers record. -/
def tag : CompressionKind → UInt32
  | .none => 0
  | .lz4 => 1
  | .zstd => 2

def ofTag? (t : UInt32) : Option CompressionKind := all.find? fun k => k.tag = t

end CompressionKind

/-- A way to compress chunks. -/
structure Codec where
  /-- Makes the payload of some content. -/
  compress : Bytes → Bytes
  /-- Makes the content of a payload. -/
  decompress : Decompressor

/-- The codecs of the kinds of compression. Nothing is assumed of them here. -/
structure Codecs where
  lz4 : Codec
  zstd : Codec

namespace Codecs

/-- The codecs of the two formats. -/
def standard : Codecs := ⟨⟨Lz4.compress, Lz4.decompress⟩, ⟨Zstd.compress, Zstd.decompress⟩⟩

/-- The codec of a kind, none where chunks are stored as they are. -/
def codec? (codecs : Codecs) : CompressionKind → Option Codec
  | .none => none
  | .lz4 => some codecs.lz4
  | .zstd => some codecs.zstd

/-- The decompressor for a tag, none where chunks are stored as they are. -/
def decompressorFor (codecs : Codecs) (tag : UInt32) : Except StorageError (Option Decompressor) :=
  match CompressionKind.ofTag? tag with
  | some kind => .ok ((codecs.codec? kind).map Codec.decompress)
  | none => .error (.format (.unknownCompression tag))

end Codecs

end SegmentStore
