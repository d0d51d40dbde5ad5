import SegmentStore.Index.Bloom
import SegmentStore.Index.ZoneMap
import SegmentStore.Scan.Options
import SegmentStore.Schema.Basic
import SegmentStore.Segment.Header
import SegmentStore.Stream.Writer

/-!
# Writing segments

A segment is written row by row. Each column keeps its streams, its zone map and, where asked for, its
bloom filters.

* `SegmentWriter.make` prepares a writer for some table columns.
* `SegmentWriter.appendRow` adds a row. Columns take their values one after the other, and those before
  a value that is refused keep theirs.
* `SegmentWriter.finish` gives the header and the bytes of the file.
-/

namespace SegmentStore

/-- The bloom filters of a column: that of the current block, and the stream of those before. -/
structure BloomWriter where
  current : BloomFilter
  output : Array UInt8

namespace BloomWriter

def empty (bits hashes : Nat) : BloomWriter := ⟨.empty bits hashes, #[]⟩

def add (w : BloomWriter) (v : Value) : BloomWriter := { w with current := w.current.add v }

/-- Writes out the filter of the current block and starts another. -/
def finishBlock (w : BloomWriter) : BloomWriter :=
  ⟨.empty w.current.bitCount w.current.hashes, w.output ++ w.current.encode⟩

end BloomWriter

/-- One column being written. -/
structure ColumnWriter where
  column : StoredColumn
  present? : Option StreamWriter
  data : StreamWriter
  zoneMap : Array ZoneMapEntry
  statistic : Statistic
  /-- Where the current block starts. -/
  positions : List UInt64
  bloom? : Option BloomWriter

namespace ColumnWriter

/-- A position as two words. -/
def words (p : Nat × Nat) : List UInt64 := [UInt64.ofNat p.1, UInt64.ofNat p.2]

/-- Notes where the next block starts. -/
def startBlock (w : ColumnWriter) : ColumnWriter :=
  let present := match w.present? with
    | some p => words p.position
    | none => []
  { w with positions := present ++ words w.data.position }

/-- Adds a value that the column can hold, a default standing for a null in the data. -/
def add (w : ColumnWriter) (v : Value) : ColumnWriter :=
  let ⟨column, present?, data, zoneMap, statistic, positions, bloom?⟩ := w
  { column, zoneMap, positions
    present? := present?.map (·.writeByte (flagByte v.isNull))
    statistic := statistic.add v
    bloom? := if v.isNull then bloom? else bloom?.map (·.add v)
    data := data.write (if v.isNull then column.type.default.plain else v.plain) }

/-- Why the column cannot hold a value. -/
def fault? (w : ColumnWriter) (v : Value) : Option ArgumentFault :=
  if !w.column.type.accepts v then some (.valueType v w.column.uniqueId w.column.type)
  else if v.isNull && w.present?.isNone then some (.nullWithoutPresent w.column.uniqueId)
  else none

/-- Puts the current block into the zone map and the bloom filters. -/
def finishBlock (w : ColumnWriter) : ColumnWriter :=
  { w with
    zoneMap := w.zoneMap.push ⟨w.positions, w.statistic⟩
    statistic := .empty
    bloom? := w.bloom?.map BloomWriter.finishBlock }

end ColumnWriter

/-- A segment being written. -/
structure SegmentWriter where
  options : WriterOptions
  columns : List ColumnWriter
  rowCount : Nat
  rowsInBlock : Nat

namespace SegmentWriter

/-- The writer of one table column. -/
def columnWriter (options : WriterOptions) (c : Column) : ColumnWriter :=
  let stream := StreamWriter.empty options.compressor? options.bufferSize.toNat
  { column := ⟨c.uniqueId, c.type, c.isNullable, .plain⟩
    present? := if options.nullSupported && c.isNullable then some stream else none
    data := stream
    zoneMap := #[]
    statistic := .empty
    positions := []
    bloom? :=
      if options.bloomColumns.contains c.uniqueId then
        some (.empty options.bloomBits.toNat options.bloomHashes.toNat)
      else none }

/-- A writer for the given table columns, in this order. -/
def make (schema : TabletSchema) (cids : List ColumnId) (options : WriterOptions) :
    Except StorageError SegmentWriter := do
  if options.rowsPerBlock = 0 then
    throw (.argument .zeroRowsPerBlock)
  let bits := options.bloomBits.toNat
  let hashes := options.bloomHashes.toNat
  if !options.bloomColumns.isEmpty && !BloomFilter.validParameters bits hashes then
    throw (.argument (.bloomParameters bits hashes))
  let columns ← cids.mapM fun cid =>
    match schema.column? cid with
    | some c => .ok (columnWriter options c)
    | none => .error (.invalidColumn cid)
  return ⟨options, columns, 0, 0⟩

/-- Adds one value to each column, stopping at the first that is refused. -/
def appendValues : List ColumnWriter → List Value →
    Except StorageError Unit × List ColumnWriter
  | w :: ws, v :: vs =>
    match w.fault? v with
    | some fault => (.error (.argument fault), w :: ws)
    | none =>
      let (result, ws) := appendValues ws vs
      (result, w.add v :: ws)
  | ws, _ => (.ok (), ws)

/-- Ends the current block. -/
def finishBlock (w : SegmentWriter) : SegmentWriter :=
  { w with columns := w.columns.map ColumnWriter.finishBlock, rowsInBlock := 0 }

/-- Notes where a block starts, if the next row starts one. -/
def startBlock (columns : List ColumnWriter) (rowsInBlock : Nat) : List ColumnWriter :=
  if rowsInBlock = 0 then columns.map ColumnWriter.startBlock else columns

/-- Adds a row. -/
def appendRow (w : SegmentWriter) (row : List Value) :
    Except StorageError Unit × SegmentWriter :=
  let ⟨options, columns, rowCount, rowsInBlock⟩ := w
  if row.length ≠ columns.length then
    (.error (.argument (.rowLength row.length columns.length)),
      ⟨options, columns, rowCount, rowsInBlock⟩)
  else
    match appendValues (startBlock columns rowsInBlock) row with
    | (.error e, columns) => (.error e, ⟨options, columns, rowCount, rowsInBlock⟩)
    | (.ok (), columns) =>
      let w : SegmentWriter := ⟨options, columns, rowCount + 1, rowsInBlock + 1⟩
      (.ok (), if rowsInBlock + 1 = options.rowsPerBlock.toNat then w.finishBlock else w)

/-- Adds rows, skipping those that are refused. -/
def appendRows (w : SegmentWriter) (rows : List (List Value)) : SegmentWriter :=
  rows.foldl (fun w row => (w.appendRow row).2) w

/-- The chunked form of an index stream. -/
def indexStream (options : WriterOptions) (bs : Bytes) : Bytes :=
  ((StreamWriter.empty options.compressor? options.bufferSize.toNat).write bs).finish

/-- The streams of a column, in the order of the file. -/
def columnStreams (options : WriterOptions) (w : ColumnWriter) : List (StreamKind × Bytes) :=
  (.rowIndex, indexStream options (ZoneMap.encode w.zoneMap.toList))
    :: (w.bloom?.toList.map fun b => (.bloomFilter, indexStream options b.output.toList))
    ++ (w.present?.toList.map fun p => (.present, p.finish))
    ++ [(.data, w.data.finish)]

/-- The header and the bytes of the file. -/
def finish (w : SegmentWriter) : SegmentHeader × Bytes :=
  let w := if 0 < w.rowsInBlock then w.finishBlock else w
  let streams := w.columns.flatMap fun c =>
    (columnStreams w.options c).map fun (kind, bs) => (c.column.uniqueId, kind, bs)
  let header : SegmentHeader :=
    { magic := SegmentHeader.segmentMagic
      version := SegmentHeader.currentVersion
      rowCount := UInt64.ofNat w.rowCount
      rowsPerBlock := w.options.rowsPerBlock
      compression := w.options.compression.tag
      bufferSize := w.options.bufferSize
      bloomHashes := w.options.bloomHashes
      bloomBits := w.options.bloomBits
      nullSupported := w.options.nullSupported
      columns := w.columns.map (·.column)
      streams := streams.map fun (uid, kind, bs) => ⟨uid, kind, UInt64.ofNat bs.length⟩ }
  (header, header.encode ++ streams.flatMap fun (_, _, bs) => bs)

end SegmentWriter

end SegmentStore
