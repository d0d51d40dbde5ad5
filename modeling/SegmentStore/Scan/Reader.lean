import SegmentStore.Prune.Blocks
import SegmentStore.Scan.ColumnReader
import SegmentStore.Scan.Options
import SegmentStore.Scan.Statistics
import SegmentStore.Vector.RowBatch

/-!
# Scanning a segment

A reader is used in three steps: it is initialised, which opens the file and loads the indexes; it is
sent to a range of blocks, which prunes them; and it loads the blocks that are left, one by one.

* `SegmentReader.init`, `SegmentReader.seekToBlock` and `SegmentReader.getBlock` are the three steps.
* `ScanCursor` is where the scan stands. The streams of the columns are moved only when they are not
  already at the start of the block to be loaded.

Each step gives its result and the state after it, also when it fails.
-/

namespace SegmentStore

/-- Adds a column to a list in strictly ascending order. -/
def insertColumn (cid : ColumnId) : List ColumnId → List ColumnId
  | [] => [cid]
  | c :: cs => if cid < c then cid :: c :: cs else if cid = c then c :: cs else c :: insertColumn cid cs

/-- The columns of a list in strictly ascending order. -/
def columnSet (cids : List ColumnId) : List ColumnId :=
  cids.foldl (fun cs cid => insertColumn cid cs) []

/-- What a scan asks for. -/
structure ReadContext where
  /-- The projected columns. -/
  used : List ColumnId
  /-- The columns whose bloom filters are asked, in ascending order. -/
  bloomColumns : List ColumnId
  conditions? : Option Conditions
  deletes? : Option DeleteHandler
  deleteStatus : DeleteStatus
  /-- Index streams go through the cache. -/
  cached : Bool
  options : ReaderOptions

/-- A segment whose header and indexes are loaded. -/
structure OpenSegment where
  file : FileId
  info : SegmentMeta
  decompress? : Option Decompressor
  rowsPerBlock : Nat
  mapping : ColumnMapping
  indexes : IndexSet

/-- Where a scan stands. -/
structure ScanCursor where
  /-- The block that the columns are positioned at. -/
  current : Nat
  /-- The block to be loaded next. -/
  next : Nat
  /-- The last block of the range. -/
  last : Nat
  eof : Bool
  /-- Excluded blocks are loaded as well. -/
  unfiltered : Bool
  /-- The columns have to be positioned before the next load. -/
  needsSeek : Bool
  deriving DecidableEq

/-- Where a scan goes on. -/
structure ScanPosition where
  nextBlock : Nat
  eof : Bool
  deriving DecidableEq

def ScanCursor.start : ScanCursor := ⟨0, 0, 0, false, false, false⟩

def ScanCursor.position (c : ScanCursor) : ScanPosition := ⟨c.next, c.eof⟩

/-- A reader of one segment of a group. -/
structure SegmentReader where
  segmentId : UInt32
  context : ReadContext
  segment? : Option OpenSegment
  /-- The readers of the columns, made by the first seek. -/
  readers? : Option ReaderTable
  /-- The dispositions found by the last filtered seek. -/
  blocks? : Option BlockMap
  cursor : ScanCursor

namespace SegmentReader

/-- A reader that is not yet initialised. -/
def make (segmentId : UInt32) (context : ReadContext) : SegmentReader :=
  ⟨segmentId, context, none, none, none, .start⟩

/-- The buffers of the indexes that the reader holds. -/
def buffers (r : SegmentReader) : List IndexBuffer :=
  match r.segment? with
  | some s => s.indexes.buffers
  | none => []

/-! ### Opening -/

/-- Refuses conditions whose literals do not fit their columns. -/
def checkContext (context : ReadContext) (schema : TabletSchema) : Except StorageError Unit := do
  match context.conditions? with
  | some c => c.checkTypes schema
  | none => pure ()
  (context.deletes?.getD []).forM fun d => d.conditions.checkTypes schema

/-- The rows in each block of a segment. -/
def rowsPerBlock (header : SegmentHeader) (group : SegmentGroup) : Except StorageError Nat :=
  let n := if header.rowsPerBlock = 0 then group.rowsPerBlock else header.rowsPerBlock
  if n = 0 then .error (.format .zeroRowsPerBlock) else .ok n.toNat

/-- A segment before its indexes are loaded. -/
def openSegment (r : SegmentReader) (file : FileId) (info : SegmentMeta) (group : SegmentGroup) :
    Except StorageError OpenSegment := do
  info.header.checkVersion
  let rows ← rowsPerBlock info.header group
  let decompress? ← group.codecs.decompressorFor info.header.compression
  let mapping ← ColumnMapping.build group.schema r.context.used r.context.bloomColumns info.header
  return ⟨file, info, decompress?, rows, mapping, ⟨[], [], 0⟩⟩

/-- The file of the reader and its header. -/
def openFile (r : SegmentReader) (group : SegmentGroup) :
    Except StorageError (FileId × SegmentFile) := do
  checkContext r.context group.schema
  match group.files.file? r.segmentId with
  | none => throw .io
  | some id => return (id, ⟨r.context.options.backend, group.files.content id⟩)

/-- What `init` leaves behind. -/
structure InitResult where
  result : Except StorageError Unit
  reader : SegmentReader
  group : SegmentGroup
  cache : IndexCache
  stats : ScanStatistics

/-- Opens the segment and loads the indexes. With `fillCache`, streams read from the file are put into
the cache. A failure leaves the reader as it was. -/
def init (r : SegmentReader) (fillCache : Bool) (group : SegmentGroup) (cache : IndexCache)
    (stats : ScanStatistics) : InitResult :=
  match r.openFile group with
  | .error e => ⟨.error e, r, group, cache, stats⟩
  | .ok (id, file) =>
    match group.segmentMeta r.segmentId file with
    | .error e => ⟨.error e, r, group, cache, stats⟩
    | .ok (info, group) =>
      match r.openSegment id info group with
      | .error e => ⟨.error e, r, group, cache, stats⟩
      | .ok s =>
        let q : IndexRequest :=
          { file, fileName := group.segmentPath r.segmentId, info, mapping := s.mapping
            schema := group.schema, decompress? := s.decompress?, cached := r.context.cached
            fillCache, rowsPerBlock := s.rowsPerBlock }
        match q.load cache with
        | (.error e, cache, traffic) => ⟨.error e, r, group, cache, stats.addTraffic traffic⟩
        | (.ok indexes, cache, traffic) =>
          let opened : SegmentReader :=
            { r with
              segment? := some { s with indexes }
              readers? := none
              blocks? := none
              cursor := .start }
          ⟨.ok (), opened, group, cache.releaseAll r.buffers, stats.addTraffic traffic⟩

/-! ### Seeking -/

/-- The readers of the projected columns, their streams at the start. -/
def makeReaders (r : SegmentReader) (s : OpenSegment) (schema : TabletSchema) :
    Except StorageError ReaderTable := do
  let header := s.info.header
  let located ← StreamInfo.locate header.streams s.info.headerLength s.mapping.needsDataStream
  let streams := located.map fun l =>
    ((l.info.uniqueId, l.info.kind),
      StreamReader.make l.offset l.info.length s.decompress? header.bufferSize.toNat)
  ReaderTable.make schema s.mapping r.context.used (StreamTable.ofList streams) []

/-- What pruning looks at for this reader. -/
def pruneRequest (r : SegmentReader) (s : OpenSegment) (group : SegmentGroup) : PruneRequest :=
  { schema := group.schema, mapping := s.mapping, indexes := s.indexes
    conditions? := r.context.conditions?, deletes? := r.context.deletes?
    deleteStatus := r.context.deleteStatus, bloomColumns := r.context.bloomColumns
    version := group.version, rowCount := s.info.header.rowCount.toNat
    rowsPerBlock := s.rowsPerBlock
    minFilterBlocks := r.context.options.minFilterBlocks.toNat }

/-- The first block from `block` on that is not excluded, up to `last`. -/
def firstIncluded (m : BlockMap) (last block : Nat) : Nat → Nat
  | 0 => block
  | fuel + 1 =>
    if block ≤ last ∧ m.get block = .excluded then firstIncluded m last (block + 1) fuel else block

/-- Moves on to the first block from `block` on that is to be loaded. -/
def advance (r : SegmentReader) (block : Nat) : SegmentReader :=
  let next := match r.blocks?, r.cursor.unfiltered with
    | some m, false => firstIncluded m r.cursor.last block (r.cursor.last + 1 - block)
    | _, _ => block
  { r with cursor :=
    { r.cursor with next, eof := r.cursor.eof || decide (r.cursor.last < next) } }

/-- Goes to a range of blocks of an open segment whose column readers are made. -/
def seekRange (r : SegmentReader) (s : OpenSegment) (first last : Nat) (unfiltered : Bool)
    (group : SegmentGroup) (stats : ScanStatistics) :
    Except StorageError ScanPosition × SegmentReader × ScanStatistics :=
  let count := s.indexes.blockCount
  let cursor : ScanCursor :=
    ⟨r.cursor.current, 0, 0, false, unfiltered, true⟩
  let r := { r with blocks? := none, cursor }
  if count = 0 then
    let r := { r with cursor := { cursor with next := first, eof := true } }
    (.ok r.cursor.position, r, stats)
  else
    let last := min last (count - 1)
    let r := { r with cursor := { cursor with last } }
    if unfiltered then
      let r := r.advance first
      (.ok r.cursor.position, r, stats)
    else
      match (r.pruneRequest s group).prune first last with
      | .error e => (.error e, r, stats)
      | .ok p =>
        let r := { r with blocks? := some p.blocks }.advance first
        (.ok r.cursor.position, r, stats.addFiltered p.deleted p.ruledOut)

/-- Prepares a scan of the blocks from `first` to `last`, the latter at most the last block of the
segment. Unless `unfiltered`, blocks are pruned. -/
def seekToBlock (r : SegmentReader) (first last : Nat) (unfiltered : Bool) (group : SegmentGroup)
    (stats : ScanStatistics) :
    Except StorageError ScanPosition × SegmentReader × ScanStatistics :=
  match r.segment? with
  | none => (.error (.argument .notInitialized), r, stats)
  | some s =>
    match r.readers? with
    | some _ => r.seekRange s first last unfiltered group stats
    | none =>
      match r.makeReaders s group.schema with
      | .error e => (.error e, r, stats)
      | .ok t => { r with readers? := some t }.seekRange s first last unfiltered group stats

/-! ### Loading -/

/-- What becomes of a failure to position a column. One that has no more data ends the scan, and a sum that
overflows stays what it is. -/
def seekFailure (uid : UniqueId) (block : Nat) : StorageError → StorageError
  | .streamEof => .dataEof
  | .overflow => .overflow
  | _ => .columnSeek uid block

/-- Positions some columns at the start of a block. Columns without a zone map are left where they
are. -/
def seekColumns (file : SegmentFile) (s : OpenSegment) (block : Nat) :
    List ColumnId → ReaderTable → Except StorageError Unit × ReaderTable
  | [], t => (.ok (), t)
  | cid :: cids, t =>
    match (s.mapping.uniqueId? cid).bind s.indexes.zoneMap? with
    | none => seekColumns file s block cids t
    | some z =>
      match t.lookup cid with
      | none => (.error (.invalidColumn cid), t)
      | some r =>
        let positions := (z.entries[block]?.getD default).positions
        match r.seek file positions with
        | (.ok (), r) => seekColumns file s block cids (t.set cid r)
        | (.error e, r) => (.error (seekFailure r.uniqueId block e), t.set cid r)

/-- Reads `rows` rows into the columns of a batch from index `i` on. -/
def readColumns (file : SegmentFile) (rows : Nat) :
    List BatchColumn → Nat → ReaderTable → RowBatch →
      Except StorageError Unit × ReaderTable × RowBatch
  | [], _, t, batch => (.ok (), t, batch)
  | c :: cs, i, t, batch =>
    match t.lookup c.id with
    | none => (.error (.invalidColumn c.id), t, batch)
    | some r =>
      match r.nextVector file c.type rows with
      | (.error e, r) => (.error e, t.set c.id r, batch)
      | (.ok v, r) => readColumns file rows cs (i + 1) (t.set c.id r) (batch.setVector i v)

/-- The rows to load from a block: the last one has what is left. -/
def rowsToLoad (s : OpenSegment) (block capacity : Nat) : Nat :=
  let rows := min capacity s.rowsPerBlock
  if block + 1 = s.indexes.blockCount then
    min rows (s.info.header.rowCount.toNat - s.rowsPerBlock * block)
  else rows

/-- Positions the columns of a batch at the next block, unless they are there already. -/
def positionColumns (r : SegmentReader) (file : SegmentFile) (s : OpenSegment) (t : ReaderTable)
    (batch : RowBatch) : Except StorageError Unit × SegmentReader :=
  let block := r.cursor.next
  if r.cursor.needsSeek || block ≠ r.cursor.current then
    let (result, t) := seekColumns file s block batch.columnIds t
    let r := { r with readers? := some t }
    match result with
    | .ok () => (.ok (), { r with cursor := { r.cursor with current := block, needsSeek := false } })
    | .error e => (.error e, r)
  else (.ok (), r)

/-- The bytes brought in between two states of the readers. -/
def trafficSince (before after : ReaderTable) : Traffic :=
  ⟨after.traffic.stored - before.traffic.stored, after.traffic.content - before.traffic.content⟩

/-- Loads the current block into a batch, the columns being positioned, and moves on. -/
def loadBlock (r : SegmentReader) (file : SegmentFile) (s : OpenSegment) (t : ReaderTable)
    (batch : RowBatch) :
    Except StorageError Nat × SegmentReader × RowBatch :=
  let current := r.cursor.current
  let rows := rowsToLoad s current batch.capacity
  match readColumns file rows batch.columns 0 t batch with
  | (.error e, t, batch) => (.error e, { r with readers? := some t }, batch)
  | (.ok (), t, batch) =>
    let status := match r.blocks? with
      | some m => m.get current
      | none => .needsRowFilter
    let batch := { batch with size := rows, status }
    let cursor :=
      if rows = s.rowsPerBlock then { r.cursor with current := current + 1 }
      else { r.cursor with needsSeek := true }
    let r := { r with readers? := some t, cursor }
    (.ok rows, r.advance (r.cursor.next + 1), batch)

/-- Loads the next block into a batch. At the end of the scan nothing changes. A column that has no more
data ends the scan as well. -/
def getBlock (r : SegmentReader) (batch : RowBatch) (group : SegmentGroup)
    (stats : ScanStatistics) :
    Except StorageError ScanPosition × SegmentReader × RowBatch × ScanStatistics :=
  if r.cursor.eof then (.ok r.cursor.position, r, batch, stats)
  else
    match r.segment?, r.readers? with
    | none, _ => (.error (.argument .notInitialized), r, batch, stats)
    | some _, none => (.error (.argument .notSeeked), r, batch, stats)
    | some s, some t =>
      let file : SegmentFile := ⟨r.context.options.backend, group.files.content s.file⟩
      match r.positionColumns file s t batch with
      | (.error e, r) =>
        let stats := stats.addTraffic (trafficSince t (r.readers?.getD []))
        if e = .dataEof then
          let r := { r with cursor := { r.cursor with eof := true } }
          (.ok r.cursor.position, r, batch, stats)
        else (.error e, r, batch, stats)
      | (.ok (), r) =>
        let (result, r, batch) := r.loadBlock file s (r.readers?.getD []) batch
        let stats := stats.addTraffic (trafficSince t (r.readers?.getD []))
        match result with
        | .error e => (.error e, r, batch, stats)
        | .ok rows => (.ok r.cursor.position, r, batch, stats.addBlock rows)

/-! ### Looking at a reader -/

/-- The number of blocks of the open segment. -/
def blockCount? (r : SegmentReader) : Option Nat := r.segment?.map (·.indexes.blockCount)

end SegmentReader

end SegmentStore
