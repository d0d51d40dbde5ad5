import SegmentStore.Index.Statistic
import SegmentStore.Value.Codec

/-!
# Zone maps

The zone map of a column has one entry for each block: where the block starts in the streams of the
column, and the bounds of its values.

* `ZoneMap.encode` writes a count and the entries, `ZoneMap.decode` reads them and refuses bounds of
  another type and bytes left over.
* `takePosition` hands out the positions of an entry one by one.
-/

namespace SegmentStore

/-- One block in the zone map of a column. -/
structure ZoneMapEntry where
  /-- Chunk and byte offsets of the block, stream after stream. -/
  positions : List UInt64
  statistic : Statistic
  deriving DecidableEq, Inhabited

namespace ZoneMapEntry

def encode (e : ZoneMapEntry) : Bytes :=
  UInt8.ofNat e.positions.length :: e.positions.flatMap u64Bytes
    ++ e.statistic.min.encode ++ e.statistic.max.encode ++ [flagByte e.statistic.hasNull]

/-- An entry whose bounds are null or of the given type. -/
def decode (type : FieldType) : Decoder ZoneMapEntry := do
  let count ← Decoder.u8
  let positions ← Decoder.many Decoder.u64 count.toNat
  let min ← Value.decode
  let max ← Value.decode
  if !type.accepts min || !type.accepts max then
    Decoder.fail (.zoneMapType min max type)
  else
    let hasNull ← Decoder.flag
    return ⟨positions, ⟨min, max, hasNull⟩⟩

end ZoneMapEntry

namespace ZoneMap

def encode (entries : List ZoneMapEntry) : Bytes :=
  u32Bytes (UInt32.ofNat entries.length) ++ entries.flatMap ZoneMapEntry.encode

def decode (type : FieldType) (bs : Bytes) : Except FormatFault (List ZoneMapEntry) :=
  let entries : Decoder (List ZoneMapEntry) := do
    let count ← Decoder.u32
    Decoder.many (ZoneMapEntry.decode type) count.toNat
  Decoder.whole entries .zoneMapTrailing bs

end ZoneMap

/-- The next position of an entry and those after it. -/
def takePosition : List UInt64 → Except StorageError (UInt64 × List UInt64)
  | [] => .error (.format .missingPositions)
  | p :: ps => .ok (p, ps)

end SegmentStore
