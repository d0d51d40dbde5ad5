import SegmentStore.Proofs.Framing
import SegmentStore.Proofs.Loading
import SegmentStore.Scan.Reader

/-!
# What is known of an open segment

Any file may be opened, whoever wrote its bytes. What is known of a segment then is what was checked on the way:
each index that was loaded has an entry for each block, and each zone map that is needed was loaded.

* `IndexSet.Numbered` says that the indexes of a set agree on the number of blocks. `IndexRequest.add_numbered`
  is the step of the loader and `IndexRequest.load_numbered` the run.
* `IndexRequest.load_zoneMap?` says which zone maps are there after it.
* `SegmentReader.init_ok` is what a reader has done when it is initialised, `SegmentReader.numbered_of_init` how many
  blocks its indexes agree on, and `SegmentReader.blockCount_of_init` the number of blocks it finds.
-/

namespace SegmentStore

/-! ### Indexes that agree on the number of blocks -/

namespace IndexSet

/-- Each index has an entry for each of `n` blocks, and so many blocks there are, as far as a word can say. -/
structure Numbered (set : IndexSet) (n : Nat) : Prop where
  zoneMaps : ∀ e ∈ set.zoneMaps, e.2.entries.size = n ∧ n < 2 ^ 32
  blooms : ∀ e ∈ set.blooms, e.2.entries.size = n
  blockCount : set.blockCount = n % UInt32.size

/-- Some index was loaded that has no more entries than a word can count. A zone map never has more, since it notes
its length in a word. Bloom filters of so many blocks take four gigabytes and more. -/
def Counted (set : IndexSet) : Prop :=
  set.zoneMaps ≠ [] ∨ ∃ e ∈ set.blooms, e.2.entries.size < 2 ^ 32

variable {set : IndexSet} {n : Nat}

theorem Numbered.blockCount_eq (h : set.Numbered n) (hcounted : set.Counted) : set.blockCount = n := by
  have hn : n < 2 ^ 32 := by
    rcases hcounted with hzones | ⟨e, he, hlt⟩
    · obtain ⟨e, he⟩ := List.exists_mem_of_ne_nil _ hzones
      exact (h.zoneMaps e he).2
    · rwa [h.blooms e he] at hlt
  rw [h.blockCount]
  exact Nat.mod_eq_of_lt hn

/-- What an index is put into holds it and others that were there before. -/
theorem forall_mem_put {α : Type} {P : UniqueId × α → Prop} {uid : UniqueId} {x : α}
    {xs : List (UniqueId × α)} (hx : P (uid, x)) (hxs : ∀ e ∈ xs, P e) : ∀ e ∈ put uid x xs, P e :=
  List.forall_mem_cons.mpr ⟨hx, fun e he => hxs e (List.mem_filter.mp he).1⟩

theorem mem_of_zoneMap? {uid : UniqueId} {z : Loaded ZoneMapEntry} (h : set.zoneMap? uid = some z) :
    (uid, z) ∈ set.zoneMaps := mem_of_lookup_eq_some h

theorem mem_of_bloom? {uid : UniqueId} {b : Loaded BloomFilter} (h : set.bloom? uid = some b) :
    (uid, b) ∈ set.blooms := mem_of_lookup_eq_some h

end IndexSet

namespace IndexRequest

variable {q : IndexRequest} {l : LocatedStream} {ls : List LocatedStream} {set set' : IndexSet}
variable {b : IndexBuffer} {cache cache' : IndexCache} {traffic traffic' : Traffic} {uid : UniqueId}

/-- An index that is added was decoded from its buffer, has an entry for each block, and is put among the zone maps or
the bloom filters. -/
theorem add_eq_ok (h : q.add l b set = .ok set') :
    (l.info.kind = .rowIndex ∧ ∃ type entries, q.typeOf l.info.uniqueId = .ok type
        ∧ ZoneMap.decode type b.bytes = .ok entries ∧ entries.length = q.expectedBlocks
        ∧ set' = ⟨IndexSet.put l.info.uniqueId ⟨entries.toArray, b⟩ set.zoneMaps, set.blooms,
            q.expectedBlocks % UInt32.size⟩)
      ∨ l.info.kind ≠ .rowIndex ∧ ∃ entries : List BloomFilter, entries.length = q.expectedBlocks
        ∧ set' = ⟨set.zoneMaps, IndexSet.put l.info.uniqueId ⟨entries.toArray, b⟩ set.blooms,
            q.expectedBlocks % UInt32.size⟩ := by
  obtain ⟨⟨count, decoded⟩, hdecode, h⟩ := bind_eq_ok.mp h
  dsimp only at h
  split at h
  · rename_i hcount
    obtain rfl := Except.ok.inj h
    rw [decode] at hdecode
    split at hdecode
    · rename_i hkind
      obtain ⟨type, htype, hdecode⟩ := bind_eq_ok.mp hdecode
      obtain ⟨entries, hentries, hdecode⟩ := bind_eq_ok.mp hdecode
      obtain ⟨rfl, rfl⟩ := Prod.mk.inj (Except.ok.inj hdecode)
      exact .inl ⟨hkind, type, entries, htype, ok_of_liftFault hentries, hcount, by rw [hcount]⟩
    · rename_i hkind
      obtain ⟨entries, -, hdecode⟩ := bind_eq_ok.mp hdecode
      obtain ⟨rfl, rfl⟩ := Prod.mk.inj (Except.ok.inj hdecode)
      exact .inr ⟨hkind, entries, hcount, by rw [hcount]⟩
  · cases h

/-- An index that is added has an entry for each block, and is put among the zone maps or the bloom filters. -/
theorem add_ok (h : q.add l b set = .ok set') :
    (l.info.kind = .rowIndex ∧ ∃ z : Loaded ZoneMapEntry, z.entries.size = q.expectedBlocks
        ∧ q.expectedBlocks < 2 ^ 32
        ∧ set' = ⟨IndexSet.put l.info.uniqueId z set.zoneMaps, set.blooms,
            q.expectedBlocks % UInt32.size⟩)
      ∨ l.info.kind ≠ .rowIndex ∧ ∃ f : Loaded BloomFilter, f.entries.size = q.expectedBlocks
        ∧ set' = ⟨set.zoneMaps, IndexSet.put l.info.uniqueId f set.blooms,
            q.expectedBlocks % UInt32.size⟩ := by
  rcases add_eq_ok h with ⟨hkind, type, entries, -, hentries, hcount, hset⟩ | ⟨hkind, entries, hcount, hset⟩
  · exact .inl ⟨hkind, ⟨entries.toArray, b⟩, hcount, hcount ▸ (ZoneMap.writable_of_decode hentries).1, hset⟩
  · exact .inr ⟨hkind, ⟨entries.toArray, b⟩, hcount, hset⟩

theorem add_numbered (hset : set.Numbered q.expectedBlocks) (h : q.add l b set = .ok set') :
    set'.Numbered q.expectedBlocks := by
  rcases add_ok h with ⟨-, z, hsize, hlt, rfl⟩ | ⟨-, f, hsize, rfl⟩
  · exact ⟨IndexSet.forall_mem_put ⟨hsize, hlt⟩ hset.zoneMaps, hset.blooms, rfl⟩
  · exact ⟨hset.zoneMaps, IndexSet.forall_mem_put hsize hset.blooms, rfl⟩

/-- A zone map that is added is there afterwards, and so are those that were there before. -/
theorem add_zoneMap? (h : q.add l b set = .ok set')
    (huid : set.zoneMap? uid ≠ none ∨ l.info.kind = .rowIndex ∧ l.info.uniqueId = uid) :
    set'.zoneMap? uid ≠ none := by
  rcases add_ok h with ⟨-, z, -, -, rfl⟩ | ⟨hkind, f, -, rfl⟩
  · show (IndexSet.put l.info.uniqueId z set.zoneMaps).lookup uid ≠ none
    rw [IndexSet.lookup_put]
    split
    · exact Option.some_ne_none z
    · rename_i hother
      exact huid.resolve_right fun hsame => hother hsame.2.symm
  · exact huid.resolve_right fun hsame => hkind hsame.1

/-- What adding an index keeps is kept when all streams are loaded. -/
theorem loadStreams_keeps {P : IndexSet → Prop}
    (hadd : ∀ {l : LocatedStream} {b : IndexBuffer} {set set' : IndexSet}, P set → q.add l b set = .ok set' → P set')
    (hset : P set) (h : q.loadStreams ls set cache traffic = (.ok set', cache', traffic')) : P set' := by
  induction ls generalizing set cache traffic with
  | nil =>
    obtain rfl := Except.ok.inj (congrArg Prod.fst h)
    exact hset
  | cons l ls ih =>
    rw [loadStreams] at h
    split at h
    · cases congrArg Prod.fst h
    · split at h
      · cases congrArg Prod.fst h
      · rename_i hnext
        exact ih (hadd hset hnext) h

theorem loadStreams_zoneMap? (h : q.loadStreams ls set cache traffic = (.ok set', cache', traffic'))
    (huid : set.zoneMap? uid ≠ none ∨ ∃ l ∈ ls, l.info.kind = .rowIndex ∧ l.info.uniqueId = uid) :
    set'.zoneMap? uid ≠ none := by
  induction ls generalizing set cache traffic with
  | nil =>
    obtain rfl := Except.ok.inj (congrArg Prod.fst h)
    exact huid.resolve_right fun hmem => by simp at hmem
  | cons l ls ih =>
    rw [loadStreams] at h
    split at h
    · cases congrArg Prod.fst h
    · split at h
      · cases congrArg Prod.fst h
      · rename_i hadd
        refine ih h ?_
        rcases huid with hold | ⟨l', hmem, hl'⟩
        · exact .inl (add_zoneMap? hadd (.inl hold))
        · rcases List.mem_cons.mp hmem with rfl | hmem
          · exact .inl (add_zoneMap? hadd (.inr hl'))
          · exact .inr ⟨l', hmem, hl'⟩

/-- What adding an index keeps holds of the indexes of a segment, if it holds of none. -/
theorem load_keeps {P : IndexSet → Prop}
    (hadd : ∀ {l : LocatedStream} {b : IndexBuffer} {set set' : IndexSet}, P set → q.add l b set = .ok set' → P set')
    (hempty : P q.emptySet) (h : (q.load cache).1 = .ok set) : P set := by
  obtain ⟨-, hloaded⟩ := loaded_of_load h
  rcases hload : q.loadStreams q.placed q.emptySet cache .zero with ⟨result, cache', traffic⟩
  rw [hload] at hloaded
  obtain rfl : result = .ok set := hloaded
  exact loadStreams_keeps hadd hempty hload

/-- The indexes of a segment agree. -/
theorem load_numbered (h : (q.load cache).1 = .ok set) : set.Numbered q.expectedBlocks :=
  load_keeps add_numbered
    ⟨fun _ he => absurd he List.not_mem_nil, fun _ he => absurd he List.not_mem_nil, rfl⟩ h

/-- The zone map of a stored and projected column is there, if the segment has it. -/
theorem load_zoneMap? (h : (q.load cache).1 = .ok set) {info : StreamInfo}
    (hinfo : info ∈ q.info.header.streams) (hkind : info.kind = .rowIndex)
    (hstored : q.mapping.isStored info.uniqueId = true) (hprojected : info.uniqueId ∈ q.mapping.projected) :
    set.zoneMap? info.uniqueId ≠ none := by
  obtain ⟨-, hloaded⟩ := loaded_of_load h
  rcases hload : q.loadStreams q.placed q.emptySet cache .zero with ⟨result, cache', traffic⟩
  rw [hload] at hloaded
  obtain rfl : result = .ok set := hloaded
  refine loadStreams_zoneMap? hload (.inr ?_)
  rw [← StreamInfo.map_info_placeAll q.info.headerLength q.info.header.streams] at hinfo
  obtain ⟨l, hl, rfl⟩ := List.mem_map.mp hinfo
  refine ⟨l, List.mem_filter.mpr ⟨hl, ?_⟩, hkind, rfl⟩
  rw [ColumnMapping.needsIndexStream, hstored, hkind, Bool.true_and]
  exact List.contains_iff_mem.mpr hprojected

end IndexRequest

/-! ### Opening -/

/-- The columns that are projected are those that the scan uses. -/
theorem ColumnMapping.mem_projected {schema : TabletSchema} {used bloom : List ColumnId}
    {header : SegmentHeader} {m : ColumnMapping} (h : build schema used bloom header = .ok m)
    {cid : ColumnId} {uid : UniqueId} (hcid : cid ∈ used) (huid : m.uniqueId? cid = some uid) :
    uid ∈ m.projected := by
  rw [build] at h
  obtain ⟨projected, hprojected, h⟩ := bind_eq_ok.mp h
  obtain ⟨bloomed, -, h⟩ := bind_eq_ok.mp h
  obtain rfl := Except.ok.inj h
  rw [uniqueId?] at huid
  have hmem : (.ok uid : Except StorageError UniqueId) ∈ projected.map .ok := by
    rw [← mapM_eq_ok.mp hprojected, List.mem_map]
    exact ⟨cid, hcid, by rw [huid]⟩
  obtain ⟨uid', huid', heq⟩ := List.mem_map.mp hmem
  rwa [← Except.ok.inj heq]

theorem ColumnMapping.tableIds_of_build {schema : TabletSchema} {used bloom : List ColumnId}
    {header : SegmentHeader} {m : ColumnMapping} (h : build schema used bloom header = .ok m) :
    m.tableIds = schema.columns.map (·.uniqueId) := by
  rw [build] at h
  obtain ⟨projected, -, h⟩ := bind_eq_ok.mp h
  obtain ⟨bloomed, -, h⟩ := bind_eq_ok.mp h
  obtain rfl := Except.ok.inj h
  rfl

/-- The mapping knows the columns of the table by their positions. -/
theorem ColumnMapping.uniqueId?_of_build {schema : TabletSchema} {used bloom : List ColumnId}
    {header : SegmentHeader} {m : ColumnMapping} (h : build schema used bloom header = .ok m)
    (cid : ColumnId) : m.uniqueId? cid = (schema.column? cid).map (·.uniqueId) := by
  rw [uniqueId?, tableIds_of_build h, getElem?_tableIds]

namespace SegmentReader

variable {r : SegmentReader} {fillCache : Bool} {g g' : SegmentGroup} {cache : IndexCache}
variable {stats : ScanStatistics} {o : OpenSegment}

/-- What has led to an open segment: the conditions fit the table, the blocks have rows, the columns are mapped, the
indexes loaded. -/
structure OpenedBy (o : OpenSegment) (q : IndexRequest) (cache : IndexCache) (schema : TabletSchema)
    (context : ReadContext) : Prop where
  checked : checkContext context schema = .ok ()
  table : q.schema = schema
  info : q.info = o.info
  mapping : q.mapping = o.mapping
  rowsPerBlock : q.rowsPerBlock = o.rowsPerBlock
  rowsPerBlock_pos : 0 < o.rowsPerBlock
  mapped : ColumnMapping.build schema context.used context.bloomColumns o.info.header = .ok o.mapping
  loaded : (q.load cache).1 = .ok o.indexes

/-- A segment that is opened has its columns mapped, and rows in each block. -/
theorem openSegment_ok {id : FileId} {info : SegmentMeta} (h : r.openSegment id info g = .ok o) :
    o.info = info ∧ 0 < o.rowsPerBlock
      ∧ ColumnMapping.build g.schema r.context.used r.context.bloomColumns info.header = .ok o.mapping := by
  rw [openSegment] at h
  obtain ⟨-, -, h⟩ := bind_eq_ok.mp h
  obtain ⟨rows, hrows, h⟩ := bind_eq_ok.mp h
  obtain ⟨decompress?, -, h⟩ := bind_eq_ok.mp h
  obtain ⟨mapping, hmapping, h⟩ := bind_eq_ok.mp h
  obtain rfl := Except.ok.inj h
  refine ⟨rfl, ?_, hmapping⟩
  rw [rowsPerBlock] at hrows
  generalize (if info.header.rowsPerBlock = 0 then g.rowsPerBlock else info.header.rowsPerBlock) = n at hrows
  by_cases hzero : n = 0
  · rw [if_pos hzero] at hrows
    cases hrows
  · rw [if_neg hzero] at hrows
    obtain rfl := Except.ok.inj hrows
    rw [Nat.pos_iff_ne_zero]
    intro hn
    exact hzero (UInt32.toNat_inj.mp hn)

theorem segmentMeta_schema {id : UInt32} {file : SegmentFile} {info : SegmentMeta} {g' : SegmentGroup}
    (h : g.segmentMeta id file = .ok (info, g')) : g'.schema = g.schema := by
  rw [SegmentGroup.segmentMeta] at h
  split at h
  · obtain ⟨-, rfl⟩ := Prod.mk.inj (Except.ok.inj h)
    rfl
  · obtain ⟨x, -, h⟩ := bind_eq_ok.mp h
    obtain ⟨-, rfl⟩ := Prod.mk.inj (Except.ok.inj h)
    rfl

theorem openFile_ok {id : FileId} {file : SegmentFile} (h : r.openFile g = .ok (id, file)) :
    g.files.file? r.segmentId = some id ∧ file = ⟨r.context.options.backend, g.files.content id⟩ := by
  obtain ⟨-, -, h⟩ := bind_eq_ok.mp h
  split at h
  · cases h
  · rename_i hfile
    obtain ⟨rfl, rfl⟩ := Prod.mk.inj (Except.ok.inj h)
    exact ⟨hfile, rfl⟩

/-- What `init` leaves behind once the indexes are loaded or not. -/
def initialised (r : SegmentReader) (o : OpenSegment) (g : SegmentGroup)
    (loaded : Except StorageError IndexSet × IndexCache × Traffic) (stats : ScanStatistics) : InitResult :=
  match loaded with
  | (.error e, cache, traffic) => ⟨.error e, r, g, cache, stats.addTraffic traffic⟩
  | (.ok indexes, cache, traffic) =>
    ⟨.ok (), { r with segment? := some { o with indexes }, readers? := none, blocks? := none, cursor := .start }, g,
      cache.releaseAll r.buffers, stats.addTraffic traffic⟩

theorem initialised_ok {loaded : Except StorageError IndexSet × IndexCache × Traffic}
    (h : (initialised r o g loaded stats).result = .ok ()) :
    ∃ indexes, loaded.1 = .ok indexes
      ∧ (initialised r o g loaded stats).reader
        = { r with segment? := some { o with indexes }, readers? := none, blocks? := none, cursor := .start }
      ∧ (initialised r o g loaded stats).group = g := by
  obtain ⟨e | indexes, cache, traffic⟩ := loaded
  · cases h
  · exact ⟨indexes, rfl, rfl, rfl⟩

/-- A reader that is initialised has opened its segment. -/
theorem opened_of_init (h : (r.init fillCache g cache stats).result = .ok ()) :
    ∃ id f info g' o, r.openFile g = .ok (id, f) ∧ g.segmentMeta r.segmentId f = .ok (info, g')
      ∧ r.openSegment id info g' = .ok o := by
  rw [init] at h
  split at h
  · cases h
  rename_i id f hopen
  split at h
  · cases h
  rename_i info g' hmeta
  split at h
  · cases h
  rename_i o hsegment
  exact ⟨id, f, info, g', o, hopen, hmeta, hsegment⟩

/-- Once the segment is opened, the indexes are loaded. -/
theorem init_of_opened {id : FileId} {f : SegmentFile} {info : SegmentMeta} {o : OpenSegment}
    (hopen : r.openFile g = .ok (id, f)) (hmeta : g.segmentMeta r.segmentId f = .ok (info, g'))
    (hsegment : r.openSegment id info g' = .ok o) (fillCache : Bool) (cache : IndexCache) (stats : ScanStatistics) :
    r.init fillCache g cache stats = initialised r o g'
      (IndexRequest.load
        { file := f, fileName := g'.segmentPath r.segmentId, info, mapping := o.mapping, schema := g'.schema
          decompress? := o.decompress?, cached := r.context.cached, fillCache, rowsPerBlock := o.rowsPerBlock } cache)
      stats := by
  rw [init, hopen]
  dsimp only
  rw [hmeta]
  dsimp only
  rw [hsegment]
  rfl

/-- A reader that is initialised has a segment, and nothing of an earlier scan. -/
theorem init_ok (h : (r.init fillCache g cache stats).result = .ok ()) :
    ∃ o q, OpenedBy o q cache g.schema r.context
      ∧ (r.init fillCache g cache stats).reader
        = { r with segment? := some o, readers? := none, blocks? := none, cursor := .start }
      ∧ (r.init fillCache g cache stats).group.schema = g.schema := by
  obtain ⟨id, file, info, g', s, hfile, hmeta, hsegment⟩ := opened_of_init h
  obtain ⟨⟨⟩, hchecked, -⟩ := bind_eq_ok.mp hfile
  obtain ⟨rfl, hpos, hmapped⟩ := openSegment_ok hsegment
  have hschema := segmentMeta_schema hmeta
  rw [hschema] at hmapped
  rw [init_of_opened hfile hmeta hsegment] at h ⊢
  obtain ⟨indexes, hload, hreader, hgroup⟩ := initialised_ok h
  refine ⟨{ s with indexes }, _, ⟨hchecked, hschema, rfl, rfl, rfl, hpos, hmapped, hload⟩, hreader, ?_⟩
  rw [hgroup]
  exact hschema

/-- A segment that is opened has as many blocks as its rows fill, as far as a word can say. -/
theorem numbered_of_init (h : (r.init fillCache g cache stats).result = .ok ())
    (ho : (r.init fillCache g cache stats).reader.segment? = some o) :
    0 < o.rowsPerBlock
      ∧ o.indexes.Numbered ((o.info.header.rowCount.toNat + o.rowsPerBlock - 1) / o.rowsPerBlock) := by
  obtain ⟨o', q, hopened, hreader, -⟩ := init_ok h
  rw [hreader] at ho
  obtain rfl : o' = o := Option.some.inj ho
  have hnumbered := IndexRequest.load_numbered hopened.loaded
  rw [IndexRequest.expectedBlocks, hopened.info, hopened.rowsPerBlock] at hnumbered
  exact ⟨hopened.rowsPerBlock_pos, hnumbered⟩

/-- The number of blocks of a segment that is opened with an index is enough for its rows. -/
theorem blockCount_of_init (h : (r.init fillCache g cache stats).result = .ok ())
    (ho : (r.init fillCache g cache stats).reader.segment? = some o) (hcounted : o.indexes.Counted) :
    0 < o.rowsPerBlock
      ∧ o.indexes.blockCount = (o.info.header.rowCount.toNat + o.rowsPerBlock - 1) / o.rowsPerBlock :=
  (numbered_of_init h ho).imp_right fun hnumbered => hnumbered.blockCount_eq hcounted

/-- The zone map of a projected column that the segment stores was loaded, if there is one. -/
theorem zoneMap?_of_init (h : (r.init fillCache g cache stats).result = .ok ())
    (ho : (r.init fillCache g cache stats).reader.segment? = some o) {cid : ColumnId} {uid : UniqueId}
    (hcid : cid ∈ r.context.used) (huid : o.mapping.storedId? cid = some uid) {info : StreamInfo}
    (hinfo : info ∈ o.info.header.streams) (hkind : info.kind = .rowIndex) (hname : info.uniqueId = uid) :
    o.indexes.zoneMap? uid ≠ none := by
  obtain ⟨o', q, hopened, hreader, -⟩ := init_ok h
  rw [hreader] at ho
  obtain rfl : o' = o := Option.some.inj ho
  obtain ⟨huid, hstored⟩ := Option.filter_eq_some_iff.mp huid
  subst hname
  rw [← hopened.info] at hinfo
  refine IndexRequest.load_zoneMap? hopened.loaded hinfo hkind (hopened.mapping ▸ hstored) ?_
  rw [hopened.mapping]
  exact ColumnMapping.mem_projected hopened.mapped hcid huid

end SegmentReader

end SegmentStore
