import SegmentStore.Bytes.Decoder
import SegmentStore.Text.Utf8

/-!
# Stored forms of values

* `Value.plain` is the form in a data stream: a fixed width for numbers, a length and the UTF-8 bytes
  for strings.
* `Value.encode` puts a tag in front; zone maps store this form and bloom filters hash it.
* `Value.decode` reads the tagged form back.
-/

namespace SegmentStore

namespace Value

/-- The form of a value in a data stream. Null has none: a default is stored in its place. -/
def plain : Value → Bytes
  | .null => []
  | .bool b => [flagByte b]
  | .int32 n => u32Bytes n.toUInt32
  | .int64 n => u64Bytes n.toUInt64
  | .float64 x => u64Bytes x.bits
  | .string s => u32Bytes (UInt32.ofNat (Utf8.encode s).length) ++ Utf8.encode s

/-- The tagged form of a value. -/
def encode (v : Value) : Bytes :=
  match v.fieldType? with
  | none => [0]
  | some ty => ty.tag :: v.plain

/-- The untagged form of a value of the given type. -/
def decodePlain : FieldType → Decoder Value
  | .bool => do return .bool (← Decoder.flag)
  | .int32 => do return .int32 (Int32.ofUInt32 (← Decoder.u32))
  | .int64 => do return .int64 (Int64.ofUInt64 (← Decoder.u64))
  | .float64 => do return .float64 ⟨← Decoder.u64⟩
  | .varchar => do
    let length ← Decoder.u32
    let bs ← Decoder.bytes length.toNat .truncatedString
    let s ← Decoder.named (Utf8.decode? bs) .invalidString
    return .string s

/-- The tagged form of a value. -/
def decode : Decoder Value := do
  let tag ← Decoder.u8
  if tag = 0 then
    return .null
  else
    let ty ← Decoder.named (FieldType.ofTag? tag) (.unknownValueTag tag)
    decodePlain ty

end Value

end SegmentStore
