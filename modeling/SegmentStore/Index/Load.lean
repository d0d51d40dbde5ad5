import SegmentStore.Index.Bloom
import SegmentStore.Index.Cache
import SegmentStore.Index.ZoneMap
import SegmentStore.Schema.Mapping
import SegmentStore.Segment.Group
import SegmentStore.Stream.Reader

/-!
# Loading indexes

* `IndexSet` holds the zone maps and bloom filters that a scan needs, each with its buffer.
* `IndexRequest.load` reads them, through a cache where there is one. Every index must have one entry
  for each block of the segment; a failure gives all buffers back.
-/

namespace SegmentStore

/-- A decoded index and the buffer it came from. -/
structure Loaded (α : Type) where
  entries : Array α
  buffer : IndexBuffer

/-- The indexes of an open segment. -/
structure IndexSet where
  zoneMaps : List (UniqueId × Loaded ZoneMapEntry)
  blooms : List (UniqueId × Loaded BloomFilter)
  blockCount : Nat

namespace IndexSet

def zoneMap? (s : IndexSet) (uid : UniqueId) : Option (Loaded ZoneMapEntry) := s.zoneMaps.lookup uid

def bloom? (s : IndexSet) (uid : UniqueId) : Option (Loaded BloomFilter) := s.blooms.lookup uid

/-- All buffers that the indexes hold. -/
def buffers (s : IndexSet) : List IndexBuffer :=
  s.zoneMaps.map (·.2.buffer) ++ s.blooms.map (·.2.buffer)

/-- Puts an index into a list, in place of an earlier one of the same column. -/
def put {α : Type} (uid : UniqueId) (x : α) (xs : List (UniqueId × α)) : List (UniqueId × α) :=
  (uid, x) :: xs.filter fun e => e.1 ≠ uid

end IndexSet

/-- What is needed to load the indexes of a segment. -/
structure IndexRequest where
  file : SegmentFile
  /-- The name of the file, by which the cache knows it. -/
  fileName : String
  info : SegmentMeta
  mapping : ColumnMapping
  schema : TabletSchema
  decompress? : Option Decompressor
  /-- A cache is at hand. -/
  cached : Bool
  /-- Streams read from the file are put into the cache. -/
  fillCache : Bool
  rowsPerBlock : Nat

namespace IndexRequest

/-- The number of blocks that hold all rows. -/
def expectedBlocks (q : IndexRequest) : Nat :=
  (q.info.header.rowCount.toNat + q.rowsPerBlock - 1) / q.rowsPerBlock

/-- Faults of the stored bytes stand for themselves, other failures become one. A sum that overflows is
no failure to read. -/
def streamFailure (uid : UniqueId) : StorageError → StorageError
  | .format f => .format f
  | .overflow => .overflow
  | _ => .format (.indexStream uid)

/-- The buffer of an index stream, from the cache or from the file. -/
def buffer (q : IndexRequest) (s : LocatedStream) (cache : IndexCache) (traffic : Traffic) :
    Except StorageError IndexBuffer × IndexCache × Traffic :=
  let key : CacheKey := ⟨q.fileName, s.info.uniqueId, s.info.kind⟩
  match if q.cached then cache.lookup key else (none, cache) with
  | (some b, cache) => (.ok b, cache, traffic)
  | (none, cache) =>
    let stream := StreamReader.make s.offset s.info.length q.decompress?
      q.info.header.bufferSize.toNat
    let (result, stream) := stream.readAll q.file
    let traffic := traffic.add stream.traffic
    match result with
    | .error e => (.error (streamFailure s.info.uniqueId e), cache, traffic)
    | .ok bs =>
      if q.cached && q.fillCache then
        let (b, cache) := cache.insert key bs
        (.ok b, cache, traffic)
      else (.ok (.owned bs), cache, traffic)

/-- The type of a stored column in the table. -/
def typeOf (q : IndexRequest) (uid : UniqueId) : Except StorageError FieldType :=
  match (q.mapping.tableColumn? uid).bind q.schema.column? with
  | some c => .ok c.type
  | none => .error (.format (.unknownColumn uid))

/-- Decodes the index in a buffer and adds it to the set. -/
def decode (q : IndexRequest) (s : LocatedStream) (b : IndexBuffer) (set : IndexSet) :
    Except StorageError (Nat × IndexSet) := do
  let uid := s.info.uniqueId
  match s.info.kind with
  | .rowIndex =>
    let type ← q.typeOf uid
    let entries ← liftFault (ZoneMap.decode type b.bytes)
    return (entries.length, { set with zoneMaps := IndexSet.put uid ⟨entries.toArray, b⟩ set.zoneMaps })
  | _ =>
    let header := q.info.header
    let entries ← liftFault
      (BloomFilter.decode header.bloomBits.toNat header.bloomHashes.toNat b.bytes)
    return (entries.length, { set with blooms := IndexSet.put uid ⟨entries.toArray, b⟩ set.blooms })

/-- Decodes the index in a buffer and checks that it has an entry for each block. -/
def add (q : IndexRequest) (s : LocatedStream) (b : IndexBuffer) (set : IndexSet) :
    Except StorageError IndexSet := do
  let (count, set) ← q.decode s b set
  if count = q.expectedBlocks then
    return { set with blockCount := count % UInt32.size }
  else throw (.format (.indexEntries q.expectedBlocks count))

/-- The buffer of an earlier index that a new one of the same stream takes the place of. -/
def replaced (s : LocatedStream) (set : IndexSet) : List IndexBuffer :=
  match s.info.kind with
  | .rowIndex => ((set.zoneMap? s.info.uniqueId).map (·.buffer)).toList
  | _ => ((set.bloom? s.info.uniqueId).map (·.buffer)).toList

/-- Loads index streams one after the other. -/
def loadStreams (q : IndexRequest) :
    List LocatedStream → IndexSet → IndexCache → Traffic →
      Except StorageError IndexSet × IndexCache × Traffic
  | [], set, cache, traffic => (.ok set, cache, traffic)
  | s :: ss, set, cache, traffic =>
    match q.buffer s cache traffic with
    | (.error e, cache, traffic) => (.error e, cache.releaseAll set.buffers, traffic)
    | (.ok b, cache, traffic) =>
      match q.add s b set with
      | .error e => (.error e, cache.releaseAll (b :: set.buffers), traffic)
      | .ok set' => loadStreams q ss set' (cache.releaseAll (replaced s set)) traffic

/-- Loads the indexes of a segment. Where none is needed, the number of blocks follows from the number
of rows. -/
def load (q : IndexRequest) (cache : IndexCache) :
    Except StorageError IndexSet × IndexCache × Traffic :=
  match StreamInfo.locate q.info.header.streams q.info.headerLength q.mapping.needsIndexStream with
  | .error e => (.error e, cache, .zero)
  | .ok streams => q.loadStreams streams ⟨[], [], q.expectedBlocks % UInt32.size⟩ cache .zero

end IndexRequest

end SegmentStore
