import SegmentStore.Index.ZoneMap
import SegmentStore.Schema.Mapping
import SegmentStore.Stream.Reader
import SegmentStore.Vector.Basic

/-!
# Reading columns

* `PlainReader` decodes the streams of a stored column, `ColumnReader` is either that or the constant
  of a column that the segment lacks.
* `ColumnReader.seek` goes to the start of a block, `ColumnReader.nextVector` reads on from there.

Each operation gives its result and the reader after it, also when it fails.
-/

namespace SegmentStore

/-- The streams of a stored column. -/
structure PlainReader where
  uniqueId : UniqueId
  type : FieldType
  /-- One byte for each row, not zero for a null. Absent if the column has no nulls. -/
  present? : Option StreamReader
  data : StreamReader

namespace PlainReader

/-- Everything the streams have brought in. -/
def traffic (r : PlainReader) : Traffic :=
  match r.present? with
  | some p => p.traffic.add r.data.traffic
  | none => r.data.traffic

/-- Whether the next row is null. -/
def readNull (file : SegmentFile) (r : PlainReader) : Except StorageError Bool × PlainReader :=
  match r.present? with
  | none => (.ok false, r)
  | some p =>
    let (result, p) := p.readByte file
    (result.map (· != 0), { r with present? := some p })

/-- The bytes of the next row. -/
def readData (file : SegmentFile) (r : PlainReader) (n : Nat) :
    Except StorageError Bytes × PlainReader :=
  let (result, d) := r.data.read file n
  (result, { r with data := d })

/-- The bytes of a value, without the length of a string. -/
def fixedWidth : FieldType → Nat
  | .bool => 1
  | .int32 => 4
  | .int64 => 8
  | .float64 => 8
  | .varchar => 4

/-- The number with the given bytes. -/
def fixedValue (type : FieldType) (bs : Bytes) : Value :=
  match type with
  | .bool => .bool (leNat bs != 0)
  | .int32 => .int32 (Int32.ofUInt32 (UInt32.ofNat (leNat bs)))
  | .int64 => .int64 (Int64.ofUInt64 (UInt64.ofNat (leNat bs)))
  | .float64 => .float64 ⟨UInt64.ofNat (leNat bs)⟩
  | .varchar => .null

/-- The string with the given bytes. -/
def textValue (bs : Bytes) : Except StorageError Value :=
  match Utf8.decode? bs with
  | some s => .ok (.string s)
  | none => .error (.format .invalidString)

/-- The value of the next row. The data of a null is read, but not looked at. -/
def readCell (file : SegmentFile) (r : PlainReader) : Except StorageError Value × PlainReader :=
  match r.readNull file with
  | (.error e, r) => (.error e, r)
  | (.ok isNull, r) =>
    match r.readData file (fixedWidth r.type) with
    | (.error e, r) => (.error e, r)
    | (.ok bs, r) =>
      if r.type = .varchar then
        match r.readData file (leNat bs) with
        | (.error e, r) => (.error e, r)
        | (.ok text, r) => (if isNull then .ok .null else textValue text, r)
      else (.ok (if isNull then .null else fixedValue r.type bs), r)

/-- Reads `n` rows into a vector. -/
def readCells (file : SegmentFile) :
    Nat → PlainReader → ColumnVector → Except StorageError ColumnVector × PlainReader
  | 0, r, v => (.ok v, r)
  | n + 1, r, v =>
    match r.readCell file with
    | (.error e, r) => (.error e, r)
    | (.ok x, r) =>
      match v.push x with
      | .error e => (.error e, r)
      | .ok v => readCells file n r v

/-- Moves a stream to the position made of the next two numbers. -/
def seekStream (file : SegmentFile) (s : StreamReader) (positions : List UInt64) :
    Except StorageError (List UInt64) × StreamReader :=
  match (do
    let (chunk, ps) ← takePosition positions
    let (byte, ps) ← takePosition ps
    return (chunk, byte, ps) : Except StorageError (UInt64 × UInt64 × List UInt64)) with
  | .error e => (.error e, s)
  | .ok (chunk, byte, ps) =>
    let (result, s) := s.seek file chunk byte
    (result.map fun _ => ps, s)

/-- Goes to the nulls of a block, if the column has any, and gives the positions that are left. -/
def seekNulls (file : SegmentFile) (r : PlainReader) (positions : List UInt64) :
    Except StorageError (List UInt64) × PlainReader :=
  match r.present? with
  | none => (.ok positions, r)
  | some p =>
    let (result, p) := seekStream file p positions
    (result, { r with present? := some p })

/-- Goes to the start of a block: first the nulls, if any, then the data. -/
def seek (file : SegmentFile) (r : PlainReader) (positions : List UInt64) :
    Except StorageError Unit × PlainReader :=
  match r.seekNulls file positions with
  | (.error e, r) => (.error e, r)
  | (.ok ps, r) =>
    let (result, d) := seekStream file r.data ps
    (result.map fun _ => (), { r with data := d })

end PlainReader

/-- The reader of one projected column. -/
inductive ColumnReader where
  /-- Reads the streams of a stored column. -/
  | plain (reader : PlainReader)
  /-- Repeats the default of a column that the segment lacks. -/
  | constant (uid : UniqueId) (value : Value)

namespace ColumnReader

def uniqueId : ColumnReader → UniqueId
  | .plain r => r.uniqueId
  | .constant uid _ => uid

/-- Everything the streams have brought in. -/
def traffic : ColumnReader → Traffic
  | .plain r => r.traffic
  | .constant _ _ => .zero

/-- Goes to the start of a block. A constant has nowhere to go. -/
def seek (file : SegmentFile) (r : ColumnReader) (positions : List UInt64) :
    Except StorageError Unit × ColumnReader :=
  match r with
  | .plain p =>
    let (result, p) := p.seek file positions
    (result, .plain p)
  | .constant uid v => (.ok (), .constant uid v)

/-- Adds a value `n` times. -/
def pushTimes (x : Value) : Nat → ColumnVector → Except StorageError ColumnVector
  | 0, v => .ok v
  | n + 1, v =>
    match v.push x with
    | .error e => .error e
    | .ok v => pushTimes x n v

/-- Reads the next `n` rows into a vector of the given type. -/
def nextVector (file : SegmentFile) (type : FieldType) (n : Nat) (r : ColumnReader) :
    Except StorageError ColumnVector × ColumnReader :=
  match r with
  | .plain p =>
    if p.type ≠ type then (.error (.argument (.vectorType p.uniqueId p.type type)), r)
    else
      let (result, p) := p.readCells file n (.empty type)
      (result, .plain p)
  | .constant _ x => (pushTimes x n (.empty type), r)

end ColumnReader

/-! ### The readers of a scan -/

/-- The streams of a segment that are not yet taken by a reader. -/
abbrev StreamTable := List ((UniqueId × StreamKind) × StreamReader)

/-- The readers of the projected columns. -/
abbrev ReaderTable := List (ColumnId × ColumnReader)

namespace StreamTable

/-- The table of some streams, the last one counting where several have one name. -/
def ofList (streams : List ((UniqueId × StreamKind) × StreamReader)) : StreamTable :=
  streams.foldl (fun t e => e :: t.filter fun e' => e'.1 ≠ e.1) []

/-- Takes a stream out. -/
def take (t : StreamTable) (name : UniqueId × StreamKind) : Option StreamReader × StreamTable :=
  (t.lookup name, t.filter fun e => e.1 ≠ name)

end StreamTable

namespace ReaderTable

/-- Puts a reader back after it was used. -/
def set (t : ReaderTable) (cid : ColumnId) (r : ColumnReader) : ReaderTable :=
  t.map fun e => if e.1 = cid then (cid, r) else e

/-- Everything the streams of all readers have brought in. -/
def traffic (t : ReaderTable) : Traffic := t.foldl (fun sum e => sum.add e.2.traffic) .zero

/-- The reader of a table column, with its streams taken out of the table. -/
def makeReader (schema : TabletSchema) (mapping : ColumnMapping) (streams : StreamTable)
    (cid : ColumnId) : Except StorageError (ColumnReader × StreamTable) :=
  match schema.column? cid with
  | none => .error (.invalidColumn cid)
  | some column =>
    let uid := column.uniqueId
    if mapping.isStored uid then
      match mapping.encoding? uid with
      | none => .error (.format (.noEncoding uid))
      | some .plain =>
        match streams.take (uid, .data) with
        | (none, _) => .error (.format (.noDataStream uid))
        | (some data, streams) =>
          let (present?, streams) := streams.take (uid, .present)
          .ok (.plain ⟨uid, column.type, present?, data⟩, streams)
    else .ok (.constant uid column.default, streams)

/-- The readers of some table columns, one for each. -/
def make (schema : TabletSchema) (mapping : ColumnMapping) :
    List ColumnId → StreamTable → ReaderTable → Except StorageError ReaderTable
  | [], _, t => .ok t
  | cid :: cids, streams, t =>
    if (t.lookup cid).isSome then make schema mapping cids streams t
    else
      match makeReader schema mapping streams cid with
      | .error e => .error e
      | .ok (r, streams) => make schema mapping cids streams (t ++ [(cid, r)])

end ReaderTable

end SegmentStore
