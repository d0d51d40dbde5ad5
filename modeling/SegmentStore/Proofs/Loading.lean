import SegmentStore.Index.Load
import SegmentStore.Proofs.Indexes
import SegmentStore.Proofs.Mapping

/-!
# Loading the indexes of a written segment

* `IndexSet.Of` says that a set holds indexes of a written segment and nothing else.
* `IndexCache.Agrees` says that a cache has only true contents of its streams.
* `IndexRequest.buffer_of` and `IndexRequest.add_of` are the two steps for one stream, and
  `IndexRequest.load_of` is the whole: it succeeds, and the zone maps of all projected stored columns are
  there.
-/

namespace SegmentStore

/-! ### Lists of pairs as tables -/

section Tables

variable {α β : Type} [BEq α] [LawfulBEq α] [DecidableEq α]

theorem lookup_filter_ne (key a : α) (xs : List (α × β)) :
    (xs.filter fun e => e.1 ≠ key).lookup a = if a = key then none else xs.lookup a := by
  induction xs with
  | nil => simp
  | cons e xs ih =>
    obtain ⟨b, y⟩ := e
    by_cases hb : b = key
    · rw [List.filter_cons_of_neg (by simpa using hb), ih, List.lookup_cons]
      by_cases ha : a = key
      · rw [if_pos ha, if_pos ha]
      · have hne : (a == b) = false := beq_eq_false_iff_ne.mpr (hb ▸ ha)
        rw [if_neg ha, if_neg ha, hne]
    · rw [List.filter_cons_of_pos (by simpa using hb), List.lookup_cons, List.lookup_cons, ih]
      by_cases ha : a = key
      · have hne : (a == b) = false := beq_eq_false_iff_ne.mpr fun h => hb (h.symm.trans ha)
        rw [if_pos ha, if_pos ha, hne]
      · rw [if_neg ha, if_neg ha]

omit [DecidableEq α] in
/-- What a table gives for a key is one of its entries. -/
theorem mem_of_lookup_eq_some {key : α} {x : β} {xs : List (α × β)} (h : xs.lookup key = some x) : (key, x) ∈ xs := by
  obtain ⟨before, after, hsplit, -⟩ := List.lookup_eq_some_iff.mp h
  rw [hsplit]
  exact List.mem_append_right before List.mem_cons_self

/-- A table with one entry put in place of earlier ones of its key. -/
theorem lookup_put (key a : α) (x : β) (xs : List (α × β)) :
    ((key, x) :: xs.filter fun e => e.1 ≠ key).lookup a
      = if a = key then some x else xs.lookup a := by
  rw [List.lookup_cons, lookup_filter_ne]
  by_cases ha : a = key
  · rw [if_pos ha, if_pos ha, beq_iff_eq.mpr ha]
  · rw [beq_eq_false_iff_ne.mpr ha, if_neg ha, if_neg ha]

end Tables

/-! ### Sets and caches -/

/-- The indexes are those of the segment. -/
structure IndexSet.Of (set : IndexSet) (s : WrittenSegment) : Prop where
  zoneMaps : ∀ uid z, set.zoneMap? uid = some z → ∃ (j : Nat) (c : Column), s.cols[j]? = some c
    ∧ c.uniqueId = uid ∧ z.entries.toList = c.zoneEntries s.options [] (s.columnBlocks j)
  blooms : ∀ uid b, set.bloom? uid = some b → ∃ (j : Nat) (c : Column), s.cols[j]? = some c
    ∧ c.uniqueId = uid ∧ c.hasBloom s.options = true
    ∧ b.entries.toList = (s.columnBlocks j).map (Column.blockBloom s.options)
  blockCount : set.blockCount = s.blocks.length

theorem IndexSet.lookup_put {α : Type} (uid : UniqueId) (x : α) (xs : List (UniqueId × α))
    (uid' : UniqueId) :
    (IndexSet.put uid x xs).lookup uid' = if uid' = uid then some x else xs.lookup uid' :=
  SegmentStore.lookup_put uid uid' x xs

namespace IndexCache

variable {c : IndexCache} {name : String} {s : WrittenSegment}

/-- What the cache has of the file is what the segment contains. -/
def Agrees (c : IndexCache) (name : String) (s : WrittenSegment) : Prop :=
  ∀ uid kind content bs, s.Contains uid kind content →
    c.entries.lookup ⟨name, uid, kind⟩ = some bs → bs = content

theorem agrees_insert {uid : UniqueId} {kind : StreamKind} {content : Bytes} (h : c.Agrees name s)
    (hcontent : s.Contains uid kind content) :
    (c.insert ⟨name, uid, kind⟩ content).2.Agrees name s := by
  intro uid' kind' content' bs hcontent' hlookup
  rw [insert, lookup_put] at hlookup
  by_cases hkey : (⟨name, uid', kind'⟩ : CacheKey) = ⟨name, uid, kind⟩
  · rw [if_pos hkey, Option.some.injEq] at hlookup
    simp only [CacheKey.mk.injEq, true_and] at hkey
    obtain ⟨rfl, rfl⟩ := hkey
    rw [← hlookup, hcontent.unique hcontent']
  · rw [if_neg hkey] at hlookup
    exact h uid' kind' content' bs hcontent' hlookup

/-- Pins come and go without a change to what is cached. -/
theorem entries_releaseAll (c : IndexCache) (bs : List IndexBuffer) :
    (c.releaseAll bs).entries = c.entries := by
  induction bs generalizing c with
  | nil => rfl
  | cons b bs ih => exact ih (c.release b)

theorem agrees_releaseAll (h : c.Agrees name s) (bs : List IndexBuffer) :
    (c.releaseAll bs).Agrees name s := by
  rw [Agrees, entries_releaseAll]
  exact h

end IndexCache

/-! ### The size of a segment -/

namespace WrittenSegment

variable {s : WrittenSegment}

theorem length_blocks (s : WrittenSegment) :
    s.blocks.length
      = (s.rows.length + s.options.rowsPerBlock.toNat - 1) / s.options.rowsPerBlock.toNat :=
  length_pieces s.rowsPerBlock_pos s.rows

@[simp]
theorem length_columnBlocks (j : Nat) : (s.columnBlocks j).length = s.blocks.length := by
  rw [columnBlocks, SegmentStore.columnBlocks, List.length_map]

/-- The number of rows fits its word, since the number of blocks does. -/
theorem length_rows_lt (hfits : s.Fits) : s.rows.length < 2 ^ 64 := by
  have hblocks := hfits.blocks
  have hpos := s.rowsPerBlock_pos
  have hlt := s.options.rowsPerBlock.toNat_lt
  rw [length_blocks, Nat.div_lt_iff_lt_mul hpos] at hblocks
  have hmul : 2 ^ 32 * s.options.rowsPerBlock.toNat ≤ 2 ^ 32 * 2 ^ 32 :=
    Nat.mul_le_mul_left _ (by omega)
  omega

theorem rowCount_toNat (hfits : s.Fits) : s.header.rowCount.toNat = s.rows.length := by
  rw [s.header_eq, segmentHeader, blocks, pieces_flatten]
  exact Decoder.toNat_ofNat_u64 (length_rows_lt hfits)

theorem flatten_columnBlocks (j : Nat) :
    (s.columnBlocks j).flatten = s.rows.map (rowCell j) := by
  rw [columnBlocks, SegmentStore.flatten_columnBlocks, blocks, pieces_flatten]

/-- The values of a stored column are of its type and fit the format. -/
theorem mem_columnBlocks {j : Nat} {c : Column} (hc : s.cols[j]? = some c) (hfits : s.Fits)
    {v : Value} (hv : v ∈ (s.columnBlocks j).flatten) :
    c.type.accepts v = true ∧ v.Fits ∧ (c.recordsNulls s.options = false → v.isNull = false) := by
  rw [flatten_columnBlocks] at hv
  obtain ⟨row, hrow, rfl⟩ := List.mem_map.mp hv
  obtain ⟨haccepts, hnulls⟩ := accepts_cell hrow hc
  have hj : j < row.length := by
    rw [length_row hrow, ← length_cols]
    exact (List.getElem?_eq_some_iff.mp hc).1
  refine ⟨haccepts, hfits.texts row hrow _ ?_, hnulls⟩
  rw [rowCell, List.getElem?_eq_getElem hj]
  exact List.getElem_mem hj

theorem block_eq {b : Nat} (hb : b < s.blocks.length) : s.block b = s.blocks[b] := by
  rw [block, List.getElem?_eq_getElem hb, Option.getD_some]

theorem block_eq_nil {b : Nat} (hb : s.blocks.length ≤ b) : s.block b = [] := by
  rw [block, List.getElem?_eq_none hb, Option.getD_none]

/-- The rows of a block are rows of the segment. -/
theorem mem_rows {b : Nat} {row : List Value} (hrow : row ∈ s.block b) : row ∈ s.rows := by
  by_cases hb : b < s.blocks.length
  · rw [block_eq hb] at hrow
    rw [← pieces_flatten s.options.rowsPerBlock.toNat s.rows]
    exact List.mem_flatten_of_mem (List.getElem_mem hb) hrow
  · rw [block_eq_nil (by omega)] at hrow
    exact absurd hrow List.not_mem_nil

/-- The values of a stored column in a block are those of its rows. -/
theorem getElem?_columnBlocks {j : Nat} {cid : ColumnId} (hcid : s.cids[j]? = some cid) {b : Nat}
    (hb : b < s.blocks.length) :
    (s.columnBlocks j)[b]? = some ((s.block b).map fun row => s.cell row cid) := by
  rw [columnBlocks, SegmentStore.columnBlocks, List.getElem?_map, List.getElem?_eq_getElem hb,
    Option.map_some, ← block_eq hb]
  congr 1
  exact List.map_congr_left fun row hrow => (cell_stored (mem_rows hrow) hcid).symm

end WrittenSegment

/-- The statistic that a zone map has of a block describes the values of its rows. -/
theorem IndexSet.Of.describes {set : IndexSet} {s : WrittenSegment} (h : set.Of s) {j : Nat}
    {cid : ColumnId} {c : Column} (hcid : s.cids[j]? = some cid) (hc : s.cols[j]? = some c)
    {z : Loaded ZoneMapEntry} (hz : set.zoneMap? c.uniqueId = some z) {b : Nat}
    (hb : b < s.blocks.length) :
    (z.entries[b]?.getD default).statistic.Describes ((s.block b).map fun row => s.cell row cid) := by
  obtain ⟨i, d, hd, huid, hentries⟩ := h.zoneMaps _ z hz
  obtain rfl := WrittenSegment.eq_of_uniqueId hd hc huid
  obtain rfl : d = c := Option.some.inj (hd.symm.trans hc)
  have hlt : b < (s.columnBlocks i).length := by rwa [WrittenSegment.length_columnBlocks]
  have hvalues := WrittenSegment.getElem?_columnBlocks hcid hb
  rw [List.getElem?_eq_getElem hlt, Option.some.injEq] at hvalues
  have hentry := Column.getElem_zoneEntries (c := d) (o := s.options) (s.columnBlocks i) hlt
  rw [← hentries, Array.getElem?_toList, hvalues] at hentry
  rw [hentry]
  exact Statistic.describes_ofValues _

namespace IndexRequest

/-- The request is for the indexes of the segment. -/
structure Of (q : IndexRequest) (s : WrittenSegment) (used : List ColumnId) : Prop where
  file : q.file.toList = s.bytes
  info : q.info = s.info
  mapping : q.mapping.Of s used
  schema : q.schema = s.schema
  decompress : q.decompress? = s.options.decompressor?
  rowsPerBlock : q.rowsPerBlock = s.options.rowsPerBlock.toNat

variable {q : IndexRequest} {s : WrittenSegment} {used : List ColumnId}

theorem expectedBlocks_of (hq : q.Of s used) (hfits : s.Fits) : q.expectedBlocks = s.blocks.length := by
  rw [expectedBlocks, hq.info, hq.rowsPerBlock, s.length_blocks]
  show (s.header.rowCount.toNat + _ - 1) / _ = _
  rw [WrittenSegment.rowCount_toNat hfits]

/-- A stream is read, or was cached. -/
theorem buffer_of {l : LocatedStream} {content : Bytes} {cache : IndexCache} (hq : q.Of s used)
    (hlossless : s.Lossless) (hl : s.Located q.file l content)
    (hcache : q.cached = true → cache.Agrees q.fileName s) (traffic : Traffic) :
    ∃ b cache' traffic', q.buffer l cache traffic = (.ok b, cache', traffic') ∧ b.bytes = content
      ∧ (q.cached = true → cache'.Agrees q.fileName s) := by
  have hread := WrittenSegment.readAll_located hl hlossless
  have hsize : q.info.header.bufferSize = s.options.bufferSize := by
    rw [hq.info]
    show s.header.bufferSize = _
    rw [s.header_eq, segmentHeader]
  rw [← hq.decompress, ← hsize] at hread
  rcases hall : (StreamReader.make l.offset l.info.length q.decompress?
    q.info.header.bufferSize.toNat).readAll q.file with ⟨result, stream⟩
  obtain rfl : result = .ok content := by simpa [hall] using hread
  -- what is not cached comes from the file
  have hmiss : (if q.cached then cache.lookup ⟨q.fileName, l.info.uniqueId, l.info.kind⟩
      else (none, cache)) = (none, cache) →
      ∃ b cache' traffic', q.buffer l cache traffic = (.ok b, cache', traffic') ∧ b.bytes = content
        ∧ (q.cached = true → cache'.Agrees q.fileName s) := by
    intro hnone
    by_cases hfill : (q.cached && q.fillCache) = true
    · refine ⟨.pinned content, (cache.insert ⟨q.fileName, l.info.uniqueId, l.info.kind⟩ content).2,
        traffic.add stream.traffic, ?_, rfl, fun h => IndexCache.agrees_insert (hcache h) hl.contains⟩
      simp only [buffer, hnone, hall, hfill, if_true]
      rfl
    · refine ⟨.owned content, cache, traffic.add stream.traffic, ?_, rfl, hcache⟩
      simp only [buffer, hnone, hall, hfill, Bool.false_eq_true, if_false]
  by_cases hcached : q.cached = true
  · cases hlookup : cache.entries.lookup ⟨q.fileName, l.info.uniqueId, l.info.kind⟩ with
    | none => exact hmiss (by simp only [hcached, if_true, IndexCache.lookup, hlookup])
    | some bs =>
      refine ⟨.pinned bs, { cache with pinned := cache.pinned + 1 }, traffic, ?_,
        hcache hcached _ _ _ _ hl.contains hlookup, hcache⟩
      simp only [buffer, hcached, if_true, IndexCache.lookup, hlookup]
  · exact hmiss (by simp only [hcached, Bool.false_eq_true, if_false])

/-- The type of a stored column is found in the table. -/
theorem typeOf_of {j : Nat} {c : Column} (hq : q.Of s used) (hc : s.cols[j]? = some c) :
    q.typeOf c.uniqueId = .ok c.type := by
  obtain ⟨cid, -, hcid⟩ := WrittenSegment.getElem?_cols.mp hc
  rw [typeOf, hq.mapping.tableColumn?_eq hcid, Option.bind_some, hq.schema, hcid]

/-- A zone map of the segment has an entry for each block, and joins the set. -/
theorem add_rowIndex {l : LocatedStream} {b : IndexBuffer} {set : IndexSet} {j : Nat} {c : Column}
    (hq : q.Of s used) (hfits : s.Fits) (hset : set.Of s) (hkind : l.info.kind = .rowIndex)
    (hc : s.cols[j]? = some c) (huid : c.uniqueId = l.info.uniqueId)
    (hbytes : b.bytes = ZoneMap.encode (c.zoneEntries s.options [] (s.columnBlocks j))) :
    ∃ set', q.add l b set = .ok set' ∧ set'.Of s
      ∧ ∀ uid, set'.zoneMap? uid = none → set.zoneMap? uid = none ∧ uid ≠ l.info.uniqueId := by
  have hdecode := Column.decode_zoneEntries (c := c) (o := s.options)
    (fun v hv => (WrittenSegment.mem_columnBlocks hc hfits hv).1)
    (fun v hv => (WrittenSegment.mem_columnBlocks hc hfits hv).2.1)
    (by rw [WrittenSegment.length_columnBlocks]; exact hfits.blocks)
  have hcount : s.blocks.length % UInt32.size = s.blocks.length := Nat.mod_eq_of_lt hfits.blocks
  have hput := IndexSet.lookup_put c.uniqueId
    (⟨(c.zoneEntries s.options [] (s.columnBlocks j)).toArray, b⟩ : Loaded ZoneMapEntry) set.zoneMaps
  refine ⟨⟨IndexSet.put c.uniqueId ⟨(c.zoneEntries s.options [] (s.columnBlocks j)).toArray, b⟩
    set.zoneMaps, set.blooms, s.blocks.length⟩, ?_, ⟨?_, hset.blooms, rfl⟩, ?_⟩
  · simp only [add, decode, hkind, ← huid, typeOf_of hq hc, hbytes, hdecode, liftFault, bind,
      Except.bind, pure, Except.pure, Column.length_zoneEntries, WrittenSegment.length_columnBlocks,
      expectedBlocks_of hq hfits, if_true, hcount]
  · intro uid z hz
    rw [IndexSet.zoneMap?, hput] at hz
    by_cases hsame : uid = c.uniqueId
    · rw [if_pos hsame, Option.some.injEq] at hz
      exact ⟨j, c, hc, hsame.symm, by rw [← hz]⟩
    · rw [if_neg hsame] at hz
      exact hset.zoneMaps uid z hz
  · intro uid hnone
    rw [IndexSet.zoneMap?, hput] at hnone
    by_cases hsame : uid = c.uniqueId
    · rw [if_pos hsame] at hnone
      cases hnone
    · rw [if_neg hsame] at hnone
      exact ⟨hnone, fun h => hsame (h.trans huid.symm)⟩

/-- The bloom filters of a column are one for each block, and join the set. -/
theorem add_bloomFilter {l : LocatedStream} {b : IndexBuffer} {set : IndexSet} {j : Nat} {c : Column}
    (hq : q.Of s used) (hfits : s.Fits) (hset : set.Of s) (hkind : l.info.kind = .bloomFilter)
    (hc : s.cols[j]? = some c) (huid : c.uniqueId = l.info.uniqueId)
    (hbloom : c.hasBloom s.options = true)
    (hbytes : b.bytes = Column.bloomBytes s.options (s.columnBlocks j)) :
    ∃ set', q.add l b set = .ok set' ∧ set'.Of s ∧ set'.zoneMaps = set.zoneMaps := by
  have hparameters := WrittenSegment.validParameters (s := s) (by
    intro hnil
    rw [Column.hasBloom, hnil] at hbloom
    simp at hbloom)
  have hdecode := Column.decode_bloomBytes (s.columnBlocks j) hparameters
  have hcount : s.blocks.length % UInt32.size = s.blocks.length := Nat.mod_eq_of_lt hfits.blocks
  have hput := IndexSet.lookup_put c.uniqueId
    (⟨((s.columnBlocks j).map (Column.blockBloom s.options)).toArray, b⟩ : Loaded BloomFilter) set.blooms
  have hbits : q.info.header.bloomBits = s.options.bloomBits := by
    rw [hq.info, WrittenSegment.info, s.header_eq, segmentHeader]
  have hhashes : q.info.header.bloomHashes = s.options.bloomHashes := by
    rw [hq.info, WrittenSegment.info, s.header_eq, segmentHeader]
  refine ⟨⟨set.zoneMaps, IndexSet.put c.uniqueId
    ⟨((s.columnBlocks j).map (Column.blockBloom s.options)).toArray, b⟩ set.blooms, s.blocks.length⟩, ?_,
    ⟨hset.zoneMaps, ?_, rfl⟩, rfl⟩
  · simp only [add, decode, hkind, hbits, hhashes, hbytes, hdecode, ← huid, liftFault, bind,
      Except.bind, pure, Except.pure, List.length_map, WrittenSegment.length_columnBlocks,
      expectedBlocks_of hq hfits, if_true, hcount]
  · intro uid z hz
    rw [IndexSet.bloom?, hput] at hz
    by_cases hsame : uid = c.uniqueId
    · rw [if_pos hsame, Option.some.injEq] at hz
      exact ⟨j, c, hc, hsame.symm, hbloom, by rw [← hz]⟩
    · rw [if_neg hsame] at hz
      exact hset.blooms uid z hz

/-- An index of the segment joins the set. -/
theorem add_of {l : LocatedStream} {b : IndexBuffer} {set : IndexSet} (hq : q.Of s used)
    (hfits : s.Fits) (hl : s.Contains l.info.uniqueId l.info.kind b.bytes)
    (hkind : l.info.kind.isIndex = true) (hset : set.Of s) :
    ∃ set', q.add l b set = .ok set' ∧ set'.Of s
      ∧ ∀ uid, set'.zoneMap? uid = none → set.zoneMap? uid = none
          ∧ (l.info.kind = .rowIndex → uid ≠ l.info.uniqueId) := by
  obtain ⟨j, c, hc, huid, hcontent⟩ := hl
  cases hk : l.info.kind with
  | present => simp [hk, StreamKind.isIndex] at hkind
  | data => simp [hk, StreamKind.isIndex] at hkind
  | rowIndex =>
    rw [hk] at hcontent
    obtain ⟨set', hadd, hset', hnone⟩ :=
      add_rowIndex hq hfits hset hk hc huid (Option.some.inj hcontent).symm
    exact ⟨set', hadd, hset', fun uid h => ⟨(hnone uid h).1, fun _ => (hnone uid h).2⟩⟩
  | bloomFilter =>
    rw [hk, Column.content?] at hcontent
    by_cases hbloom : c.hasBloom s.options = true
    · rw [if_pos hbloom] at hcontent
      obtain ⟨set', hadd, hset', hsame⟩ :=
        add_bloomFilter hq hfits hset hk hc huid hbloom (Option.some.inj hcontent).symm
      refine ⟨set', hadd, hset', fun uid h => ⟨?_, fun hne => by cases hne⟩⟩
      rwa [IndexSet.zoneMap?, hsame] at h
    · rw [if_neg hbloom] at hcontent
      cases hcontent

/-- Index streams of the segment are loaded one after the other. -/
theorem loadStreams_of {ls : List LocatedStream} {set : IndexSet} {cache : IndexCache}
    (hq : q.Of s used) (hfits : s.Fits) (hlossless : s.Lossless)
    (hls : ∀ l ∈ ls, l.info.kind.isIndex = true ∧ ∃ content, s.Located q.file l content)
    (hset : set.Of s) (hcache : q.cached = true → cache.Agrees q.fileName s) (traffic : Traffic) :
    ∃ set' cache' traffic', q.loadStreams ls set cache traffic = (.ok set', cache', traffic')
      ∧ set'.Of s ∧ ∀ uid, set'.zoneMap? uid = none → set.zoneMap? uid = none
          ∧ ∀ l ∈ ls, l.info.kind = .rowIndex → uid ≠ l.info.uniqueId := by
  induction ls generalizing set cache traffic with
  | nil => exact ⟨set, cache, traffic, rfl, hset, fun uid h => ⟨h, by simp⟩⟩
  | cons l ls ih =>
    obtain ⟨hkind, content, hl⟩ := hls l List.mem_cons_self
    obtain ⟨b, cache', traffic', hbuffer, hbytes, hcache'⟩ := buffer_of hq hlossless hl hcache traffic
    obtain ⟨set', hadd, hset', hkept⟩ := add_of hq hfits (hbytes ▸ hl.contains) hkind hset
    obtain ⟨set'', cache'', traffic'', hrest, hset'', hkept'⟩ :=
      ih (fun l' hl' => hls l' (List.mem_cons_of_mem l hl')) hset'
        (fun h => IndexCache.agrees_releaseAll (hcache' h) (replaced l set)) traffic'
    refine ⟨set'', cache'', traffic'', ?_, hset'', fun uid hnone => ?_⟩
    · simp only [loadStreams, hbuffer, hadd, hrest]
    · obtain ⟨hnone', hlater⟩ := hkept' uid hnone
      obtain ⟨hnone'', hthis⟩ := hkept uid hnone'
      refine ⟨hnone'', fun l' hl' => ?_⟩
      rcases List.mem_cons.mp hl' with rfl | hl'
      · exact hthis
      · exact hlater l' hl'

/-- The indexes of a segment are loaded, among them the zone maps of the projected columns. -/
theorem load_of (cache : IndexCache) (hq : q.Of s used) (hfits : s.Fits) (hlossless : s.Lossless)
    (hcache : q.cached = true → cache.Agrees q.fileName s) :
    ∃ set cache' traffic, q.load cache = (.ok set, cache', traffic) ∧ set.Of s
      ∧ ∀ cid ∈ used, ∀ (j : Nat) (c : Column), s.cids[j]? = some cid → s.cols[j]? = some c →
          (set.zoneMap? c.uniqueId).isSome := by
  have hcount : s.blocks.length % UInt32.size = s.blocks.length := Nat.mod_eq_of_lt hfits.blocks
  have hempty : q.emptySet.Of s := by
    refine ⟨fun uid z hz => ?_, fun uid b hb => ?_, ?_⟩
    · cases hz
    · cases hb
    · rw [emptySet, expectedBlocks_of hq hfits, hcount]
  have hstreams : q.placed
      = (StreamInfo.placeAll (UInt64.ofNat s.header.encode.length) s.header.streams).filter
          fun l => q.mapping.needsIndexStream l.info := by
    rw [placed, hq.info]
    rfl
  have hlocated : ∀ l ∈ q.placed, l.info.kind.isIndex = true ∧ ∃ content, s.Located q.file l content := by
    intro l hl
    rw [hstreams, List.mem_filter] at hl
    refine ⟨?_, WrittenSegment.located hq.file hfits hl.1⟩
    have hneeded := hl.2
    rw [ColumnMapping.needsIndexStream] at hneeded
    cases hk : l.info.kind <;> simp [hk, StreamKind.isIndex] at hneeded ⊢
  obtain ⟨set, cache', traffic, hload, hset, hkept⟩ :=
    loadStreams_of hq hfits hlossless hlocated hempty hcache .zero
  rw [load_addressable (hq.info ▸ s.addressable hfits)]
  refine ⟨set, cache', traffic, hload, hset, fun cid hcid j c hj hc => ?_⟩
  rw [Option.isSome_iff_ne_none]
  intro hnone
  have hcontains : s.Contains c.uniqueId .rowIndex
      (ZoneMap.encode (c.zoneEntries s.options [] (s.columnBlocks j))) := ⟨j, c, hc, rfl, rfl⟩
  obtain ⟨l, hl, huid, hkind⟩ :=
    WrittenSegment.exists_located hcontains (UInt64.ofNat s.header.encode.length)
  refine (hkept c.uniqueId hnone).2 l ?_ hkind huid.symm
  obtain ⟨cid', hcid', hcolumn⟩ := WrittenSegment.getElem?_cols.mp hc
  obtain rfl : cid = cid' := Option.some.inj (hj.symm.trans hcid')
  have hstored := hq.mapping.isStored_iff.mpr ⟨j, c, hc, rfl⟩
  have hprojected := hq.mapping.projected cid hcid c hcolumn
  rw [hstreams, List.mem_filter]
  refine ⟨hl, ?_⟩
  simp only [ColumnMapping.needsIndexStream, huid, hkind, hstored, Bool.true_and]
  simpa using hprojected

end IndexRequest

end SegmentStore
