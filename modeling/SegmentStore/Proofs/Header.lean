import SegmentStore.Proofs.Decoding
import SegmentStore.Segment.Header

/-!
# Headers read back

* `SegmentHeader.reads_encodeBody` is the round trip of the body of a header.
* `SegmentHeader.Laid` says how a file starts that may hold a header, and `SegmentHeader.Laid.readFrom` what is
  then done to read it.
* `SegmentHeader.readFrom_encode` says that a file that starts with an encoded header gives that header
  and its length, whatever follows.
-/

namespace SegmentStore

open Decoder

theorem StreamKind.ofTag?_tag (k : StreamKind) : ofTag? k.tag = some k := by
  cases k <;> decide

theorem ColumnEncoding.ofTag?_tag (e : ColumnEncoding) : ofTag? e.tag = some e := by
  cases e; rfl

namespace SegmentFile

@[simp]
theorem length_toList (f : SegmentFile) : f.toList.length = f.size := rfl

end SegmentFile

namespace SegmentHeader

theorem reads_encodeColumn (c : StoredColumn) : Reads decodeColumn c (encodeColumn c) := by
  have henc : encodeColumn c
      = u32Bytes c.uniqueId ++ ([c.type.tag] ++ ([] ++ ([flagByte c.isNullable]
        ++ ([c.encoding.tag] ++ [])))) := rfl
  rw [henc]
  refine (reads_u32 c.uniqueId).bind ((reads_u8 c.type.tag).bind ?_)
  refine (reads_named (FieldType.ofTag?_tag c.type) _).bind ((reads_flag c.isNullable).bind ?_)
  refine (reads_u8 c.encoding.tag).bind ?_
  exact (reads_named (ColumnEncoding.ofTag?_tag c.encoding) _).map

theorem reads_encodeStream (s : StreamInfo) : Reads decodeStream s (encodeStream s) := by
  have henc : encodeStream s
      = u32Bytes s.uniqueId ++ ([s.kind.tag] ++ ([] ++ u64Bytes s.length)) := rfl
  rw [henc]
  refine (reads_u32 s.uniqueId).bind ((reads_u8 s.kind.tag).bind ?_)
  refine (reads_named (StreamKind.ofTag?_tag s.kind) _).bind ?_
  exact (reads_u64 s.length).map

/-- A list behind its length. -/
theorem reads_counted {α : Type} {d : Decoder α} {encode : α → Bytes} {xs : List α}
    (h : ∀ x, Reads d x (encode x)) (hlen : xs.length < 2 ^ 32) :
    Reads (many d (UInt32.ofNat xs.length).toNat) xs (xs.flatMap encode) := by
  rw [toNat_ofNat_u32 hlen]
  exact Reads.many fun x _ => h x

theorem reads_encodeBody {h : SegmentHeader} (hcolumns : h.columns.length < 2 ^ 32)
    (hstreams : h.streams.length < 2 ^ 32) :
    Reads (decodeBody h.magic h.version) h h.encodeBody := by
  have henc : h.encodeBody
      = u64Bytes h.rowCount ++ (u32Bytes h.rowsPerBlock ++ (u32Bytes h.compression
        ++ (u32Bytes h.bufferSize ++ (u32Bytes h.bloomHashes ++ (u32Bytes h.bloomBits
        ++ ([flagByte h.nullSupported] ++ (u32Bytes (UInt32.ofNat h.columns.length)
        ++ (h.columns.flatMap encodeColumn ++ (u32Bytes (UInt32.ofNat h.streams.length)
        ++ h.streams.flatMap encodeStream))))))))) := by
    simp [encodeBody, List.append_assoc]
  rw [henc]
  refine (reads_u64 h.rowCount).bind ((reads_u32 h.rowsPerBlock).bind ?_)
  refine (reads_u32 h.compression).bind ((reads_u32 h.bufferSize).bind ?_)
  refine (reads_u32 h.bloomHashes).bind ((reads_u32 h.bloomBits).bind ?_)
  refine (reads_flag h.nullSupported).bind ((reads_u32 _).bind ?_)
  refine (reads_counted reads_encodeColumn hcolumns).bind ((reads_u32 _).bind ?_)
  exact (reads_counted reads_encodeStream hstreams).map

/-! ### The whole header -/

theorem length_encodeColumn (c : StoredColumn) : (encodeColumn c).length = 7 := by
  simp [encodeColumn, u32Bytes]

theorem length_encodeStream (s : StreamInfo) : (encodeStream s).length = 13 := by
  simp [encodeStream, u32Bytes, u64Bytes]

theorem length_flatMap_const {α : Type} {f : α → Bytes} {width : Nat} (h : ∀ x, (f x).length = width)
    (xs : List α) : (xs.flatMap f).length = width * xs.length := by
  induction xs with
  | nil => rfl
  | cons x xs ih =>
    rw [List.flatMap_cons, List.length_append, h, ih, List.length_cons, Nat.mul_succ, Nat.add_comm]

/-- Each column and each stream takes bytes of the body, so the width of its length bounds them. -/
theorem length_encodeBody (h : SegmentHeader) :
    h.encodeBody.length = 37 + 7 * h.columns.length + 13 * h.streams.length := by
  have hcolumns := length_flatMap_const length_encodeColumn h.columns
  have hstreams := length_flatMap_const length_encodeStream h.streams
  simp only [encodeBody, List.length_append, List.length_cons, hcolumns, hstreams, u32Bytes,
    u64Bytes, length_leBytes]
  omega

/-- The part before the body. -/
def encodeFront (h : SegmentHeader) : Bytes :=
  h.magic.toList ++ (u32Bytes h.version ++ (u32Bytes (UInt32.ofNat h.encodeBody.length)
    ++ u32Bytes (crc32 h.encodeBody)))

theorem length_encodeFront (h : SegmentHeader) : h.encodeFront.length = prefixSize := by
  simp [encodeFront, u32Bytes, prefixSize]

theorem encode_eq (h : SegmentHeader) : h.encode = h.encodeFront ++ h.encodeBody := by
  simp [encode, encodeFront, List.append_assoc]

theorem length_encode (h : SegmentHeader) : h.encode.length = prefixSize + h.encodeBody.length := by
  rw [encode_eq, List.length_append, length_encodeFront]

theorem ofFn_toList (magic : Vector UInt8 11) :
    (Vector.ofFn fun i => magic.toList[i]?.getD 0) = magic := by
  ext i hi
  simp

/-- The bytes before the body, whatever they say of it. -/
def Front.encode (x : Front) : Bytes :=
  x.magic.toList ++ (u32Bytes x.version ++ (u32Bytes x.bodyLength ++ u32Bytes x.checksum))

theorem Front.length_encode (x : Front) : x.encode.length = prefixSize := by
  simp [encode, u32Bytes, prefixSize]

theorem Front.reads_encode (x : Front) : Reads decodeFront x x.encode := by
  have hmagic : Reads (bytes 11 .endOfBuffer) x.magic.toList x.magic.toList := by
    have hbytes := reads_bytes x.magic.toList .endOfBuffer
    rwa [Vector.length_toList] at hbytes
  refine hmagic.bind ((reads_u32 x.version).bind ((reads_u32 x.bodyLength).bind ?_))
  rw [ofFn_toList]
  exact (reads_u32 x.checksum).map

/-- The front of a header, as it is read back. -/
def front (h : SegmentHeader) : Front :=
  ⟨h.magic, h.version, UInt32.ofNat h.encodeBody.length, crc32 h.encodeBody⟩

theorem encode_front (h : SegmentHeader) : h.front.encode = h.encodeFront := rfl

theorem verify_crc32 (what : Checked) (bs : Bytes) : verify what (crc32 bs) bs = .ok () := by
  simp [verify]

/-! ### Files that start with a header -/

/-- The file starts with a front and with so many bytes behind it as the front says the body has. -/
structure Laid (file : SegmentFile) (x : Front) (body rest : Bytes) : Prop where
  content : file.toList = x.encode ++ (body ++ rest)
  bodyLength : x.bodyLength.toNat = body.length

theorem Laid.size {file : SegmentFile} {x : Front} {body rest : Bytes} (h : Laid file x body rest) :
    file.size = prefixSize + body.length + rest.length := by
  rw [← SegmentFile.length_toList, h.content, List.length_append, List.length_append, x.length_encode, Nat.add_assoc]

/-- The checksum is looked at first, and the body only then. -/
theorem Laid.readFrom {file : SegmentFile} {x : Front} {body rest : Bytes} (h : Laid file x body rest) :
    readFrom file = (do
      liftFault (verify .header x.checksum body)
      let (header, _) ← liftFault (decodeBody x.magic x.version body)
      return (header, UInt64.ofNat (prefixSize + body.length))) := by
  have hsize := h.size
  have hstart : file.readAt 0 prefixSize = .ok x.encode := by
    rw [SegmentFile.readAt_eq_ok file (by omega) (by omega), h.content, List.drop_zero, ← x.length_encode,
      List.take_left]
  have hbody : file.readAt prefixSize body.length = .ok body := by
    rw [SegmentFile.readAt_eq_ok file (by omega) (by decide), h.content, ← x.length_encode, List.drop_left,
      List.take_left]
  have hsmall : ¬file.size < prefixSize := by omega
  have hlong : ¬file.size < prefixSize + body.length := by omega
  simp only [SegmentHeader.readFrom, hsmall, if_false, hstart, x.reads_encode.apply_self, liftFault, h.bodyLength,
    hlong, hbody, bind, Except.bind, pure, Except.pure]

theorem laid_encode {h : SegmentHeader} {file : SegmentFile} {rest : Bytes} (hfile : file.toList = h.encode ++ rest)
    (hbody : h.encodeBody.length < 2 ^ 32) : Laid file h.front h.encodeBody rest := by
  constructor
  · rw [hfile, encode_eq, encode_front, List.append_assoc]
  · exact toNat_ofNat_u32 hbody

/-- A file that starts with a header gives that header and its length. -/
theorem readFrom_encode {h : SegmentHeader} {file : SegmentFile} {rest : Bytes}
    (hfile : file.toList = h.encode ++ rest) (hbody : h.encodeBody.length < 2 ^ 32) :
    readFrom file = .ok (h, UInt64.ofNat h.encode.length) := by
  have hcount := length_encodeBody h
  have hdecode := (reads_encodeBody (h := h) (by omega) (by omega)).apply_self
  have hverify : verify .header h.front.checksum h.encodeBody = .ok () := verify_crc32 _ _
  have hmagic : decodeBody h.front.magic h.front.version h.encodeBody = .ok (h, []) := hdecode
  rw [(laid_encode hfile hbody).readFrom, hverify, hmagic, length_encode]
  rfl

end SegmentHeader

end SegmentStore
