import Mathlib.Logic.Function.Basic
import SegmentStore.Proofs.Backends
import SegmentStore.Proofs.Confinement
import SegmentStore.Proofs.Numbering

/-!
# Readers that share a cache

Readers of segments that do not change may share their index streams through a cache. No reader can tell whether it
does so.

* `Disk` is what files there are, by the names of their paths. `Disk.Holds` says what a key of the cache stands for, and
  `IndexCache.Honest` that a cache holds nothing else.
* `IndexSet.unshared` forgets from where the bytes of an index came. `IndexRequest.load_alone` says that loading gives
  the same indexes with an honest cache and without one, and that the cache stays honest.
* `ReaderPool` is any number of readers, of any number of groups, with one cache. `ReaderPool.mirrors_after` is the
  step for one `init`, and `ReaderPool.outcomes_unshared` the run: every `init` comes to the same as if no reader had
  a cache.
-/

namespace SegmentStore

/-! ### Files that do not change -/

/-- Files by the names of their paths. None is so long that its positions could not be moved to, and each lists at most
one stream of each kind for a column. -/
structure Disk where
  content? : String → Option ByteArray
  bounded : ∀ path bytes, content? path = some bytes → bytes.size < 2 ^ 63
  listedOnce : ∀ path (file : SegmentFile) header length, content? path = some file.content →
    SegmentHeader.readFrom file = .ok (header, length) →
      (header.streams.map fun i => (i.uniqueId, i.kind)).Nodup
  /-- What all readers unpack chunks with. -/
  codecs : Codecs

namespace Disk

variable {d : Disk} {path : String} {m m' : SegmentMeta}

/-- The file under a path starts with the header. -/
def Starts (d : Disk) (path : String) (m : SegmentMeta) : Prop :=
  ∃ file : SegmentFile, d.content? path = some file.content
    ∧ SegmentHeader.readFrom file = .ok (m.header, m.headerLength)

theorem sameContent {f f' : SegmentFile} (h : d.content? path = some f.content)
    (h' : d.content? path = some f'.content) : f.SameContent f' :=
  ⟨Option.some.inj (h.symm.trans h'), d.bounded path f.content h⟩

theorem Starts.unique (h : d.Starts path m) (h' : d.Starts path m') : m = m' := by
  obtain ⟨f, hf, hm⟩ := h
  obtain ⟨f', hf', hm'⟩ := h'
  have hsame := SegmentHeader.readFrom_backend (sameContent hf hf')
  rw [hm, hm'] at hsame
  obtain ⟨header, length⟩ := m
  obtain ⟨header', length'⟩ := m'
  obtain ⟨rfl, rfl⟩ := Prod.mk.inj (Option.some.inj hsame)
  rfl

end Disk

/-- The files of a group are on the disk, and the headers that it has parsed are theirs. -/
structure SegmentGroup.On (g : SegmentGroup) (d : Disk) : Prop where
  files : ∀ id file, g.files.file? id = some file → d.content? (g.segmentPath id) = some (g.files.content file)
  metas : ∀ id file m, g.files.file? id = some file → g.metas.lookup id = some m → d.Starts (g.segmentPath id) m
  codecs : g.codecs = d.codecs

/-- A disk with the file of one written segment. -/
def Disk.single (s : WrittenSegment) (hfits : s.Fits) : Disk where
  content? path := if path = (SegmentGroup.single s).segmentPath 0 then some ⟨s.bytes.toArray⟩ else none
  bounded path bytes h := by
    obtain ⟨-, hcontent⟩ := Option.ite_none_right_eq_some.mp h
    rw [← Option.some.inj hcontent]
    exact hfits.bytes
  listedOnce path file header length h hread := by
    obtain ⟨-, hcontent⟩ := Option.ite_none_right_eq_some.mp h
    have hlist : file.toList = s.bytes := by
      rw [SegmentFile.toList, ← Option.some.inj hcontent]
    rw [SegmentHeader.readFrom_encode (hlist.trans s.bytes_eq) hfits.header] at hread
    obtain ⟨rfl, -⟩ := Prod.mk.inj (Except.ok.inj hread)
    exact s.nodup_streams
  codecs := s.options.codecs

namespace IndexRequest

/-- A request for the indexes of a file on the disk. -/
structure On (q : IndexRequest) (d : Disk) : Prop where
  content : d.content? q.fileName = some q.file.content
  starts : d.Starts q.fileName q.info
  decompress : d.codecs.decompressorFor q.info.header.compression = .ok q.decompress?

/-- The streams that the header lists. -/
def listed (q : IndexRequest) : List LocatedStream :=
  StreamInfo.placeAll q.info.headerLength q.info.header.streams

/-- What is read of a stream. -/
def stored (q : IndexRequest) (l : LocatedStream) : Except StorageError Bytes :=
  ((StreamReader.make l.offset l.info.length q.decompress? q.info.header.bufferSize.toNat).readAll q.file).1

variable {d : Disk} {q q' : IndexRequest} {l l' : LocatedStream}

/-- Streams of one name in one header are one stream. -/
theorem eq_of_listed (hq : q.On d) (hl : l ∈ q.listed) (hl' : l' ∈ q.listed)
    (huid : l'.info.uniqueId = l.info.uniqueId) (hkind : l'.info.kind = l.info.kind) : l' = l := by
  obtain ⟨file, hfile, hread⟩ := hq.starts
  have hnodup := d.listedOnce _ file _ _ hfile hread
  exact StreamInfo.eq_of_mem_placeAll hnodup hl hl' huid hkind

/-- What is read of a stream does not depend on the request, only on the name of the file and the stream. -/
theorem stored_unique (hq : q.On d) (hq' : q'.On d) (hname : q'.fileName = q.fileName) (hl : l ∈ q.listed)
    (hl' : l' ∈ q'.listed) (huid : l'.info.uniqueId = l.info.uniqueId) (hkind : l'.info.kind = l.info.kind) :
    (q'.stored l').toOption = (q.stored l).toOption := by
  have hinfo : q'.info = q.info := (hname ▸ hq'.starts).unique hq.starts
  have hdecompress : q'.decompress? = q.decompress? :=
    Except.ok.inj (hq'.decompress.symm.trans
      ((congrArg (fun m => d.codecs.decompressorFor m.header.compression) hinfo).trans hq.decompress))
  rw [listed, hinfo] at hl'
  obtain rfl := eq_of_listed hq hl hl' huid hkind
  rw [stored, stored, hinfo, hdecompress]
  exact StreamReader.readAll_backend (Disk.sameContent (hname ▸ hq'.content) hq.content) _

end IndexRequest

/-! ### What a cache holds -/

/-- The bytes are those of the stream that the key names. -/
def Disk.Holds (d : Disk) (key : CacheKey) (bs : Bytes) : Prop :=
  ∃ (q : IndexRequest) (l : LocatedStream), q.On d ∧ l ∈ q.listed
    ∧ key = ⟨q.fileName, l.info.uniqueId, l.info.kind⟩ ∧ q.stored l = .ok bs

/-- What is held under the key of a stream is what is read of the stream. -/
theorem Disk.Holds.stored_eq {d : Disk} {q : IndexRequest} {l : LocatedStream} {bs : Bytes}
    (h : d.Holds ⟨q.fileName, l.info.uniqueId, l.info.kind⟩ bs) (hq : q.On d) (hl : l ∈ q.listed) :
    q.stored l = .ok bs := by
  obtain ⟨q', l', hq', hl', hkey, hstored⟩ := h
  obtain ⟨hname, huid, hkind⟩ := CacheKey.mk.inj hkey
  have hsame := IndexRequest.stored_unique hq hq' hname.symm hl hl' huid.symm hkind.symm
  rw [hstored] at hsame
  exact toOption_eq_some.mp hsame.symm

namespace IndexCache

variable {d : Disk} {c c' : IndexCache}

/-- The cache holds nothing but what its keys name. -/
def Honest (c : IndexCache) (d : Disk) : Prop :=
  ∀ key bs, c.entries.lookup key = some bs → d.Holds key bs

theorem Honest.of_entries (h : c.Honest d) (hsame : c'.entries = c.entries) : c'.Honest d := by
  rw [Honest, hsame]
  exact h

theorem Honest.insert (h : c.Honest d) {key : CacheKey} {bs : Bytes} (hbs : d.Holds key bs) :
    (c.insert key bs).2.Honest d := by
  intro key' bs' hlookup
  rw [IndexCache.insert, lookup_put] at hlookup
  by_cases hkey : key' = key
  · rw [if_pos hkey] at hlookup
    rw [hkey, ← Option.some.inj hlookup]
    exact hbs
  · rw [if_neg hkey] at hlookup
    exact h key' bs' hlookup

theorem Honest.releaseAll (h : c.Honest d) (bs : List IndexBuffer) : (c.releaseAll bs).Honest d :=
  h.of_entries (entries_releaseAll c bs)

end IndexCache

/-! ### Indexes, wherever their bytes came from -/

/-- The same bytes, held alone. -/
def IndexBuffer.unshared (b : IndexBuffer) : IndexBuffer := .owned b.bytes

def Loaded.unshared {α : Type} (x : Loaded α) : Loaded α := { x with buffer := x.buffer.unshared }

namespace IndexSet

/-- The same indexes, their bytes held alone. -/
def unshared (set : IndexSet) : IndexSet :=
  { set with
    zoneMaps := set.zoneMaps.map fun e => (e.1, e.2.unshared)
    blooms := set.blooms.map fun e => (e.1, e.2.unshared) }

theorem map_put {α : Type} (f : α → α) (uid : UniqueId) (x : α) (xs : List (UniqueId × α)) :
    (put uid x xs).map (fun e => (e.1, f e.2)) = put uid (f x) (xs.map fun e => (e.1, f e.2)) := by
  rw [put, put, List.map_cons, List.filter_map]
  rfl

theorem unshared_putZoneMap (set : IndexSet) (uid : UniqueId) (z : Loaded ZoneMapEntry) :
    unshared { set with zoneMaps := put uid z set.zoneMaps }
      = { set.unshared with zoneMaps := put uid z.unshared set.unshared.zoneMaps } := by
  simp only [unshared, map_put]

theorem unshared_putBloom (set : IndexSet) (uid : UniqueId) (b : Loaded BloomFilter) :
    unshared { set with blooms := put uid b set.blooms }
      = { set.unshared with blooms := put uid b.unshared set.unshared.blooms } := by
  simp only [unshared, map_put]

theorem unshared_unshared (set : IndexSet) : set.unshared.unshared = set.unshared := by
  simp only [unshared, List.map_map]
  rfl

end IndexSet

namespace IndexRequest

variable {d : Disk} {q : IndexRequest} {l : LocatedStream} {ls : List LocatedStream} {set : IndexSet}
variable {cache cache' : IndexCache} {traffic traffic' : Traffic}

/-- The request without a cache. -/
def alone (q : IndexRequest) : IndexRequest := { q with cached := false }

theorem decode_alone (q : IndexRequest) (l : LocatedStream) (b : IndexBuffer) (set : IndexSet) :
    q.alone.decode l b.unshared set.unshared
      = (q.decode l b set).map fun r => (r.1, r.2.unshared) := by
  rw [decode, decode]
  split
  · show (q.typeOf l.info.uniqueId >>= _) = (q.typeOf l.info.uniqueId >>= _).map _
    cases q.typeOf l.info.uniqueId with
    | error e => rfl
    | ok type =>
      show (liftFault (ZoneMap.decode type b.bytes) >>= _) = (liftFault (ZoneMap.decode type b.bytes) >>= _).map _
      cases liftFault (ZoneMap.decode type b.bytes) with
      | error e => rfl
      | ok entries =>
        exact congrArg (fun s => Except.ok (entries.length, s))
          (set.unshared_putZoneMap l.info.uniqueId ⟨entries.toArray, b⟩).symm
  · dsimp only
    show (liftFault (BloomFilter.decode q.info.header.bloomBits.toNat q.info.header.bloomHashes.toNat b.bytes) >>= _)
      = _
    generalize liftFault (BloomFilter.decode _ _ b.bytes) = decoded
    cases decoded with
    | error e => rfl
    | ok entries =>
      exact congrArg (fun s => Except.ok (entries.length, s))
        (set.unshared_putBloom l.info.uniqueId ⟨entries.toArray, b⟩).symm

/-- An index is added in the same way, wherever its bytes came from. -/
theorem add_alone (q : IndexRequest) (l : LocatedStream) (b : IndexBuffer) (set : IndexSet) :
    q.alone.add l b.unshared set.unshared = (q.add l b set).map IndexSet.unshared := by
  rw [add, add, decode_alone]
  cases q.decode l b set with
  | error e => rfl
  | ok r =>
    show (if r.1 = q.expectedBlocks then _ else _) = (if r.1 = q.expectedBlocks then _ else _ : Except _ _).map _
    split <;> rfl

/-- What is read where there is no cache. -/
theorem buffer_of_uncached (hcached : q.cached = false) (l : LocatedStream) (cache : IndexCache) (traffic : Traffic) :
    (q.buffer l cache traffic).1
      = ((q.stored l).mapError (streamFailure l.info.uniqueId)).map IndexBuffer.owned := by
  simp only [buffer, hcached, Bool.false_eq_true, if_false, Bool.false_and, stored]
  rcases (StreamReader.make l.offset l.info.length q.decompress? q.info.header.bufferSize.toNat).readAll q.file with
    ⟨e | bs, stream⟩ <;> rfl

/-- A buffer has the bytes that are read of its stream, also if an honest cache had them. -/
theorem buffer_alone (hq : q.On d) (hl : l ∈ q.listed) (hcache : cache.Honest d) (traffic : Traffic)
    (cache' : IndexCache) (traffic' : Traffic) :
    (q.alone.buffer l cache' traffic').1 = (q.buffer l cache traffic).1.map IndexBuffer.unshared
      ∧ (q.buffer l cache traffic).2.1.Honest d := by
  have halone : (q.alone.buffer l cache' traffic').1
      = ((q.stored l).mapError (streamFailure l.info.uniqueId)).map IndexBuffer.owned :=
    buffer_of_uncached rfl l cache' traffic'
  rw [halone]
  by_cases hcached : q.cached = true
  · cases hlookup : cache.entries.lookup ⟨q.fileName, l.info.uniqueId, l.info.kind⟩ with
    | some bs =>
      simp only [buffer, hcached, if_true, IndexCache.lookup, hlookup,
        (hcache _ _ hlookup).stored_eq hq hl]
      exact ⟨rfl, hcache⟩
    | none =>
      simp only [buffer, hcached, if_true, IndexCache.lookup, hlookup, Bool.true_and]
      rcases hread : (StreamReader.make l.offset l.info.length q.decompress?
        q.info.header.bufferSize.toNat).readAll q.file with ⟨e | bs, stream⟩
      · rw [stored, hread]
        exact ⟨rfl, hcache⟩
      · have hstored : q.stored l = .ok bs := by rw [stored, hread]
        rw [hstored]
        dsimp only
        split
        · exact ⟨rfl, hcache.insert ⟨q, l, hq, hl, rfl, hstored⟩⟩
        · exact ⟨rfl, hcache⟩
  · have hnot : q.cached = false := Bool.not_eq_true _ ▸ hcached
    refine ⟨?_, ?_⟩
    · rw [buffer_of_uncached hnot]
      cases (q.stored l).mapError (streamFailure l.info.uniqueId) <;> rfl
    · simp only [buffer, hnot, Bool.false_eq_true, if_false, Bool.false_and]
      split <;> exact hcache

/-- Index streams are loaded to the same end, and the cache stays honest. -/
theorem loadStreams_alone (hq : q.On d) (hls : ∀ l ∈ ls, l ∈ q.listed) (hcache : cache.Honest d)
    (set : IndexSet) (traffic : Traffic) (cache' : IndexCache) (traffic' : Traffic) :
    (q.alone.loadStreams ls set.unshared cache' traffic').1
        = (q.loadStreams ls set cache traffic).1.map IndexSet.unshared
      ∧ (q.loadStreams ls set cache traffic).2.1.Honest d := by
  induction ls generalizing set cache traffic cache' traffic' with
  | nil => exact ⟨rfl, hcache⟩
  | cons l ls ih =>
    obtain ⟨hsame, hkept⟩ := buffer_alone hq (hls l List.mem_cons_self) hcache traffic cache' traffic'
    rw [loadStreams, loadStreams]
    generalize q.buffer l cache traffic = x at hsame hkept ⊢
    generalize q.alone.buffer l cache' traffic' = y at hsame ⊢
    obtain ⟨e | b, cache₁, traffic₁⟩ := x <;> obtain ⟨r, cache₁', traffic₁'⟩ := y
    · obtain rfl : r = .error e := hsame
      exact ⟨rfl, hkept.releaseAll _⟩
    · obtain rfl : r = .ok b.unshared := hsame
      have hadd := q.add_alone l b set
      dsimp only
      rw [hadd]
      cases q.add l b set with
      | error e => exact ⟨rfl, hkept.releaseAll _⟩
      | ok set₁ => exact ih (fun l hl => hls l (List.mem_cons_of_mem _ hl)) (hkept.releaseAll _) set₁ traffic₁ _ _

/-- The indexes of a file are the same with an honest cache and without one. -/
theorem load_alone (hq : q.On d) (hcache : cache.Honest d) (cache' : IndexCache) :
    (q.alone.load cache').1 = (q.load cache).1.map IndexSet.unshared ∧ (q.load cache).2.1.Honest d := by
  by_cases h : q.info.Addressable
  · have halone : q.alone.info.Addressable := h
    rw [load_addressable h, load_addressable halone]
    exact loadStreams_alone hq (fun _ hl => StreamInfo.place_subset _ _ _ hl) hcache q.emptySet .zero cache' .zero
  · have halone : ¬q.alone.info.Addressable := h
    rw [load_eq, load_eq, if_neg h, if_neg halone]
    exact ⟨rfl, hcache⟩

end IndexRequest

/-! ### Readers -/

def OpenSegment.unshared (o : OpenSegment) : OpenSegment := { o with indexes := o.indexes.unshared }

namespace SegmentReader

/-- The reader without a cache, what it has loaded held alone. -/
def unshared (r : SegmentReader) : SegmentReader :=
  { r with
    context := { r.context with cached := false }
    segment? := r.segment?.map OpenSegment.unshared }

end SegmentReader

variable {d : Disk} {g g' : SegmentGroup}

/-- A header that a group parses is that of the file. -/
theorem SegmentGroup.On.segmentMeta (hg : g.On d) {id : UInt32} {file : FileId} {backend : Backend} {m : SegmentMeta}
    (hfile : g.files.file? id = some file)
    (h : g.segmentMeta id ⟨backend, g.files.content file⟩ = .ok (m, g')) :
    g'.On d ∧ d.Starts (g.segmentPath id) m ∧ g'.segmentPath id = g.segmentPath id := by
  rw [SegmentGroup.segmentMeta] at h
  split at h
  · rename_i hlookup
    obtain ⟨rfl, rfl⟩ := Prod.mk.inj (Except.ok.inj h)
    exact ⟨hg, hg.metas id file _ hfile hlookup, rfl⟩
  · obtain ⟨⟨header, length⟩, hread, h⟩ := bind_eq_ok.mp h
    obtain ⟨rfl, rfl⟩ := Prod.mk.inj (Except.ok.inj h)
    have hstarts : d.Starts (g.segmentPath id) ⟨header, length⟩ := ⟨_, hg.files id file hfile, hread⟩
    refine ⟨⟨hg.files, fun id' file' m hfile' hlookup => ?_, hg.codecs⟩, hstarts, rfl⟩
    rw [List.lookup_cons] at hlookup
    split at hlookup
    · rename_i hsame
      obtain rfl := beq_iff_eq.mp hsame
      rw [← Option.some.inj hlookup]
      exact hstarts
    · exact hg.metas id' file' m hfile' hlookup

namespace SegmentReader

variable {r : SegmentReader} {cache : IndexCache}

theorem decompress_of_openSegment {id : FileId} {info : SegmentMeta} {o : OpenSegment}
    (h : r.openSegment id info g = .ok o) : g.codecs.decompressorFor info.header.compression = .ok o.decompress? := by
  obtain ⟨-, -, h⟩ := bind_eq_ok.mp h
  obtain ⟨rows, -, h⟩ := bind_eq_ok.mp h
  obtain ⟨decompress?, hdecompress, h⟩ := bind_eq_ok.mp h
  obtain ⟨mapping, -, h⟩ := bind_eq_ok.mp h
  obtain rfl := Except.ok.inj h
  exact hdecompress

/-- Two `init`s come to the same, but for the cache. The second is that of the reader without one. -/
structure InitResult.Mirrors (d : Disk) (x y : InitResult) : Prop where
  result : y.result = x.result
  reader : y.reader = x.reader.unshared
  group : y.group = x.group
  on : x.group.On d
  honest : x.cache.Honest d

/-- A reader with an honest cache is initialised as it is without one, and the cache stays honest. -/
theorem init_unshared (hg : g.On d) (hcache : cache.Honest d) (r : SegmentReader)
    (fillCache : Bool) (stats : ScanStatistics) (cache' : IndexCache) (stats' : ScanStatistics) :
    InitResult.Mirrors d (r.init fillCache g cache stats) (r.unshared.init fillCache g cache' stats') := by
  have hopen : r.unshared.openFile g = r.openFile g := rfl
  rw [init, init, hopen]
  cases hfile : r.openFile g with
  | error e => exact ⟨rfl, rfl, rfl, hg, hcache⟩
  | ok opened =>
    obtain ⟨id, file⟩ := opened
    obtain ⟨hnamed, rfl⟩ := openFile_ok hfile
    have hparse : g.segmentMeta r.unshared.segmentId ⟨r.context.options.backend, g.files.content id⟩
        = g.segmentMeta r.segmentId ⟨r.context.options.backend, g.files.content id⟩ := rfl
    dsimp only
    rw [hparse]
    cases hmeta : g.segmentMeta r.segmentId ⟨r.context.options.backend, g.files.content id⟩ with
    | error e => exact ⟨rfl, rfl, rfl, hg, hcache⟩
    | ok parsed =>
      obtain ⟨info, g'⟩ := parsed
      obtain ⟨hg', hstarts, hpath⟩ := hg.segmentMeta hnamed hmeta
      have hsegment : r.unshared.openSegment id info g' = r.openSegment id info g' := rfl
      dsimp only
      rw [hsegment]
      cases ho : r.openSegment id info g' with
      | error e => exact ⟨rfl, rfl, rfl, hg', hcache⟩
      | ok o =>
        let q : IndexRequest :=
          { file := ⟨r.context.options.backend, g.files.content id⟩, fileName := g'.segmentPath r.segmentId, info
            mapping := o.mapping, schema := g'.schema, decompress? := o.decompress?, cached := r.context.cached
            fillCache, rowsPerBlock := o.rowsPerBlock }
        have hq : q.On d := by
          refine ⟨?_, ?_, hg'.codecs ▸ decompress_of_openSegment ho⟩
          · show d.content? (g'.segmentPath r.segmentId) = _
            rw [hpath]
            exact hg.files r.segmentId id hnamed
          · show d.Starts (g'.segmentPath r.segmentId) info
            rw [hpath]
            exact hstarts
        obtain ⟨hload, hkept⟩ := IndexRequest.load_alone hq hcache cache'
        show InitResult.Mirrors d (initialised r o g' (q.load cache) stats)
          (initialised r.unshared o g' (q.alone.load cache') stats')
        generalize q.load cache = x at hload hkept ⊢
        generalize q.alone.load cache' = y at hload ⊢
        obtain ⟨e | set, cache₁, traffic⟩ := x <;> obtain ⟨result, cache₁', traffic'⟩ := y
        · obtain rfl : result = .error e := hload
          exact ⟨rfl, rfl, rfl, hg', hkept⟩
        · obtain rfl : result = .ok set.unshared := hload
          exact ⟨rfl, rfl, rfl, hg', hkept.releaseAll _⟩

end SegmentReader

/-! ### Pools of readers -/

/-- Groups and readers by their numbers, and the cache that the readers share. -/
structure ReaderPool where
  groups : Nat → SegmentGroup
  readers : Nat → SegmentReader
  /-- The group of each reader. -/
  home : Nat → Nat
  cache : IndexCache

namespace ReaderPool

/-- A call that initialises a reader of a pool. -/
structure Call where
  reader : Nat
  fillCache : Bool
  stats : ScanStatistics

/-- What comes of a call. -/
def initResult (w : ReaderPool) (c : Call) : SegmentReader.InitResult :=
  (w.readers c.reader).init c.fillCache (w.groups (w.home c.reader)) w.cache c.stats

/-- The pool after a call. -/
def after (w : ReaderPool) (c : Call) : ReaderPool :=
  { w with
    groups := Function.update w.groups (w.home c.reader) (w.initResult c).group
    readers := Function.update w.readers c.reader (w.initResult c).reader
    cache := (w.initResult c).cache }

/-- What a call comes to: success or failure, and the indexes that the reader has then. -/
def outcome (w : ReaderPool) (c : Call) : Except StorageError Unit × Option IndexSet :=
  ((w.initResult c).result, (w.initResult c).reader.segment?.map fun o => o.indexes.unshared)

/-- What calls come to, one after the other. -/
def outcomes (w : ReaderPool) : List Call → List (Except StorageError Unit × Option IndexSet)
  | [] => []
  | c :: cs => w.outcome c :: (w.after c).outcomes cs

/-- The pool where no reader has a cache. -/
def unshared (w : ReaderPool) : ReaderPool := { w with readers := fun i => (w.readers i).unshared }

/-- Two pools are alike but for the cache, which is honest. No reader of the second one has a cache. -/
structure Mirrors (d : Disk) (w w' : ReaderPool) : Prop where
  groups : w'.groups = w.groups
  readers : ∀ i, w'.readers i = (w.readers i).unshared
  home : w'.home = w.home
  on : ∀ i, (w.groups i).On d
  honest : w.cache.Honest d

variable {w w' : ReaderPool}

/-- A call comes to the same in pools that are alike, and they stay alike. -/
theorem mirrors_after (h : Mirrors d w w') (c : Call) :
    w.outcome c = w'.outcome c ∧ Mirrors d (w.after c) (w'.after c) := by
  have hinit := SegmentReader.init_unshared (h.on (w.home c.reader)) h.honest (w.readers c.reader) c.fillCache
    c.stats w'.cache c.stats
  rw [← h.readers, ← h.groups, ← h.home] at hinit
  have hmirrors : SegmentReader.InitResult.Mirrors d (w.initResult c) (w'.initResult c) := by
    rw [initResult, ← h.groups, ← h.home]
    exact hinit
  refine ⟨?_, ?_, fun i => ?_, h.home, fun i => ?_, hmirrors.honest⟩
  · rw [outcome, outcome, hmirrors.result, hmirrors.reader, SegmentReader.unshared, Option.map_map]
    refine congrArg _ (congrArg (Option.map · _) (funext fun o => ?_))
    exact o.indexes.unshared_unshared.symm
  · show Function.update w'.groups (w'.home c.reader) _ = Function.update w.groups (w.home c.reader) _
    rw [h.groups, h.home, hmirrors.group]
  · show Function.update w'.readers c.reader _ i = (Function.update w.readers c.reader _ i).unshared
    by_cases hi : i = c.reader
    · subst hi
      rw [Function.update_self, Function.update_self, hmirrors.reader]
    · rw [Function.update_of_ne hi, Function.update_of_ne hi, h.readers]
  · show (Function.update w.groups (w.home c.reader) _ i).On d
    by_cases hi : i = w.home c.reader
    · rw [hi, Function.update_self]
      exact hmirrors.on
    · rw [Function.update_of_ne hi]
      exact h.on i

theorem Mirrors.outcomes (h : Mirrors d w w') (calls : List Call) : w.outcomes calls = w'.outcomes calls := by
  induction calls generalizing w w' with
  | nil => rfl
  | cons c calls ih =>
    obtain ⟨hsame, hafter⟩ := mirrors_after h c
    rw [ReaderPool.outcomes, ReaderPool.outcomes, hsame, ih hafter]

end ReaderPool

end SegmentStore
