import SegmentStore.Proofs.Cells
import SegmentStore.Proofs.Opening

/-!
# The column readers of a written segment

* `ColumnReader.Of` says that a reader belongs to a column of the table: it reads the streams of a stored
  column, or repeats the default of another.
* `ColumnReader.At` says moreover which rows lie ahead.
* `WrittenSegment.serves_valueStreams` says that the streams of every projected stored column are at hand.
* `ReaderTable.of_make` gives the readers that a seek makes, `SegmentReader.makeReaders_of` that making
  them succeeds on an opened segment.
-/

namespace SegmentStore

namespace ColumnReader

/-- The reader of a table column over a written segment. -/
inductive Of (s : WrittenSegment) (f : SegmentFile) (cid : ColumnId) : ColumnReader → Prop
  | stored {j : Nat} {c : Column} {p : PlainReader} (hcid : s.cids[j]? = some cid)
      (hc : s.cols[j]? = some c) (type : p.type = c.type)
      (present : p.present?.isSome = c.recordsNulls s.options)
      (stores : p.Stores f s.options.compressor? s.options.bufferSize.toNat
        (s.rows.map (rowCell j))) : Of s f cid (.plain p)
  | absent {c : Column} (hcid : cid ∉ s.cids) (hc : s.schema.column? cid = some c) :
      Of s f cid (.constant c.uniqueId c.default)

/-- The reader of a table column, with some rows ahead of it. -/
inductive At (s : WrittenSegment) (f : SegmentFile) (cid : ColumnId) (rows : List (List Value)) :
    ColumnReader → Prop
  | stored {j : Nat} {c : Column} {p : PlainReader} (hcid : s.cids[j]? = some cid)
      (hc : s.cols[j]? = some c) (type : p.type = c.type)
      (present : p.present?.isSome = c.recordsNulls s.options)
      (ahead : p.Ahead f s.options.compressor? s.options.bufferSize.toNat
        (s.rows.map (rowCell j)) (rows.map (rowCell j))) : At s f cid rows (.plain p)
  | absent {c : Column} (hcid : cid ∉ s.cids) (hc : s.schema.column? cid = some c) :
      At s f cid rows (.constant c.uniqueId c.default)

theorem At.of {s : WrittenSegment} {f : SegmentFile} {cid : ColumnId} {rows : List (List Value)}
    {r : ColumnReader} (h : At s f cid rows r) : Of s f cid r := by
  cases h with
  | stored hcid hc htype hpresent hahead => exact .stored hcid hc htype hpresent hahead.stores
  | absent hcid hc => exact .absent hcid hc

end ColumnReader

/-! ### The streams at hand -/

namespace StreamTable

/-- The last stream of a name is found. -/
theorem lookup_ofList_concat (xs : List ((UniqueId × StreamKind) × StreamReader))
    (e : (UniqueId × StreamKind) × StreamReader) (name : UniqueId × StreamKind) :
    (ofList (xs ++ [e])).lookup name = if name = e.1 then some e.2 else (ofList xs).lookup name := by
  rw [ofList, List.foldl_concat]
  exact lookup_put e.1 name e.2 (ofList xs)

theorem mem_of_lookup {xs : List ((UniqueId × StreamKind) × StreamReader)}
    {name : UniqueId × StreamKind} {r : StreamReader} (h : (ofList xs).lookup name = some r) :
    (name, r) ∈ xs := by
  induction xs using List.reverseRecOn with
  | nil => simp [ofList] at h
  | append_singleton xs e ih =>
    rw [lookup_ofList_concat] at h
    by_cases hname : name = e.1
    · rw [if_pos hname, Option.some.injEq] at h
      rw [← h, hname]
      exact List.mem_append_right xs List.mem_cons_self
    · rw [if_neg hname] at h
      exact List.mem_append_left [e] (ih h)

/-- Every stream of the list is found under its name, or a later one of that name. -/
theorem isSome_lookup {xs : List ((UniqueId × StreamKind) × StreamReader)}
    {e : (UniqueId × StreamKind) × StreamReader} (h : e ∈ xs) :
    ((ofList xs).lookup e.1).isSome := by
  induction xs using List.reverseRecOn with
  | nil => simp at h
  | append_singleton xs d ih =>
    rw [lookup_ofList_concat]
    by_cases hname : e.1 = d.1
    · rw [if_pos hname]
      rfl
    · rw [if_neg hname]
      rcases List.mem_append.mp h with h | h
      · exact ih h
      · exact absurd (congrArg Prod.fst (List.mem_singleton.mp h)) hname

/-- The table has the streams of a stored column. -/
structure Serves (t : StreamTable) (s : WrittenSegment) (f : SegmentFile) (j : Nat) (c : Column) :
    Prop where
  data : ∃ d, t.lookup (c.uniqueId, .data) = some d
    ∧ d.Stores f s.options.compressor?
        (pieces (max s.options.bufferSize.toNat 1)
          ((s.rows.map (rowCell j)).flatMap (Value.stored c.type)))
  present : (t.lookup (c.uniqueId, .present)).isSome = c.recordsNulls s.options
  stores : ∀ p, t.lookup (c.uniqueId, .present) = some p →
    p.Stores f s.options.compressor?
      (pieces (max s.options.bufferSize.toNat 1) ((s.rows.map (rowCell j)).map Value.nullByte))

/-- Taking the streams of one column leaves those of the others. -/
theorem Serves.take {t : StreamTable} {s : WrittenSegment} {f : SegmentFile} {j : Nat} {c : Column}
    (h : t.Serves s f j c) {uid : UniqueId} (hne : c.uniqueId ≠ uid) :
    ((t.take (uid, .data)).2.take (uid, .present)).2.Serves s f j c := by
  have hlookup : ∀ kind, ((t.take (uid, .data)).2.take (uid, .present)).2.lookup (c.uniqueId, kind)
      = t.lookup (c.uniqueId, kind) := by
    intro kind
    have hdata : (c.uniqueId, kind) ≠ (uid, StreamKind.data) := fun h => hne (Prod.mk.inj h).1
    have hpresent : (c.uniqueId, kind) ≠ (uid, StreamKind.present) := fun h => hne (Prod.mk.inj h).1
    simp only [StreamTable.take]
    rw [lookup_filter_ne, if_neg hpresent, lookup_filter_ne, if_neg hdata]
  refine ⟨?_, ?_, ?_⟩
  · rw [hlookup]
    exact h.data
  · rw [hlookup]
    exact h.present
  · rw [hlookup]
    exact h.stores

end StreamTable

/-! ### The value streams of a segment -/

namespace WrittenSegment

variable {s : WrittenSegment} {f : SegmentFile} {m : ColumnMapping} {used : List ColumnId}
variable {j : Nat} {c : Column}

/-- The readers of the value streams that a scan needs. -/
def valueStreams (s : WrittenSegment) (m : ColumnMapping) : StreamTable :=
  .ofList ((StreamInfo.place s.info.header.streams s.info.headerLength m.needsDataStream).map fun l =>
    ((l.info.uniqueId, l.info.kind), StreamReader.make l.offset l.info.length
      s.options.decompressor? s.options.bufferSize.toNat))

/-- A stream that is found has the content of its name. -/
theorem stores_of_lookup (hfile : f.toList = s.bytes) (hfits : s.Fits) (hlossless : s.Lossless)
    {uid : UniqueId} {kind : StreamKind} {d : StreamReader}
    (hd : (s.valueStreams m).lookup (uid, kind) = some d) :
    ∃ content, s.Contains uid kind content
      ∧ d.Stores f s.options.compressor?
          (pieces (max s.options.bufferSize.toNat 1) content) := by
  obtain ⟨l, hl, hentry⟩ := List.mem_map.mp (StreamTable.mem_of_lookup hd)
  obtain ⟨content, hlocated⟩ := located hfile hfits (List.mem_filter.mp hl).1
  obtain ⟨hname, rfl⟩ := Prod.mk.inj hentry
  obtain ⟨huid, hkind⟩ := Prod.mk.inj hname
  refine ⟨content, ?_, stores_located hlocated hlossless⟩
  have hcontains := hlocated.contains
  rwa [huid, hkind] at hcontains

/-- A value stream of a projected column is found. -/
theorem isSome_lookup_valueStreams (hm : m.Of s used) {cid : ColumnId} (hused : cid ∈ used)
    (hcid : s.cids[j]? = some cid) (hc : s.cols[j]? = some c) {kind : StreamKind}
    (hkind : kind.isIndex = false) {content : Bytes} (hcontains : s.Contains c.uniqueId kind content) :
    ((s.valueStreams m).lookup (c.uniqueId, kind)).isSome := by
  obtain ⟨l, hl, huid, hlkind⟩ := exists_located hcontains s.info.headerLength
  obtain ⟨a, ha, hcolumn⟩ := getElem?_cols.mp hc
  obtain rfl : cid = a := Option.some.inj (hcid.symm.trans ha)
  have hneeded : m.needsDataStream l.info = true := by
    have hprojected := hm.projected cid hused c hcolumn
    have hstored := hm.isStored_iff.mpr ⟨j, c, hc, rfl⟩
    simp [ColumnMapping.needsDataStream, huid, hlkind, hkind, hstored, hprojected]
  have hmem : l ∈ StreamInfo.place s.info.header.streams s.info.headerLength m.needsDataStream :=
    List.mem_filter.mpr ⟨hl, hneeded⟩
  have hentry := List.mem_map_of_mem (f := fun l : LocatedStream => ((l.info.uniqueId, l.info.kind),
    StreamReader.make l.offset l.info.length s.options.decompressor?
      s.options.bufferSize.toNat)) hmem
  rw [← huid, ← hlkind]
  exact StreamTable.isSome_lookup hentry

/-- The value streams serve every projected stored column. -/
theorem serves_valueStreams (hfile : f.toList = s.bytes) (hfits : s.Fits) (hlossless : s.Lossless)
    (hm : m.Of s used) {cid : ColumnId} (hused : cid ∈ used) (hcid : s.cids[j]? = some cid)
    (hc : s.cols[j]? = some c) : (s.valueStreams m).Serves s f j c := by
  refine ⟨?_, ?_, ?_⟩
  · have hdata : s.Contains c.uniqueId .data
        ((s.columnBlocks j).flatten.flatMap (Value.stored c.type)) := ⟨j, c, hc, rfl, rfl⟩
    obtain ⟨d, hd⟩ :=
      Option.isSome_iff_exists.mp (isSome_lookup_valueStreams hm hused hcid hc rfl hdata)
    obtain ⟨content, hcontent, hstores⟩ := stores_of_lookup hfile hfits hlossless hd
    rw [hcontent.unique hdata, flatten_columnBlocks] at hstores
    exact ⟨d, hd, hstores⟩
  · cases hrecords : c.recordsNulls s.options with
    | true =>
      exact isSome_lookup_valueStreams hm hused hcid hc rfl ((contains_present hc).mpr ⟨hrecords, rfl⟩)
    | false =>
      rw [Option.isSome_eq_false_iff, Option.isNone_iff_eq_none]
      cases hp : (s.valueStreams m).lookup (c.uniqueId, .present) with
      | none => rfl
      | some p =>
        obtain ⟨content, hcontains, -⟩ := stores_of_lookup hfile hfits hlossless hp
        rw [((contains_present hc).mp hcontains).1] at hrecords
        cases hrecords
  · intro p hp
    obtain ⟨content, hcontains, hstores⟩ := stores_of_lookup hfile hfits hlossless hp
    obtain ⟨-, rfl⟩ := (contains_present hc).mp hcontains
    rwa [flatten_columnBlocks] at hstores

end WrittenSegment

/-! ### Making the readers -/

namespace ReaderTable

variable {s : WrittenSegment} {f : SegmentFile} {m : ColumnMapping} {used : List ColumnId}

/-- The table has a reader for each of some columns. -/
def Of (t : ReaderTable) (s : WrittenSegment) (f : SegmentFile) (cids : List ColumnId) : Prop :=
  ∀ cid ∈ cids, ∃ r, t.lookup cid = some r ∧ ColumnReader.Of s f cid r

/-- The reader of a column is made, and the streams of other columns are left. -/
theorem makeReader_of (hm : m.Of s used) (hfits : s.Fits) {cid : ColumnId} {streams : StreamTable}
    (hcid : (s.schema.column? cid).isSome)
    (hserves : ∀ (j : Nat) (c : Column), s.cids[j]? = some cid → s.cols[j]? = some c →
      streams.Serves s f j c) :
    ∃ r streams', makeReader s.schema m streams cid = .ok (r, streams') ∧ ColumnReader.Of s f cid r
      ∧ ∀ (i : Nat) (d : Column) (a : ColumnId), a ≠ cid → s.cids[i]? = some a →
          s.cols[i]? = some d → streams.Serves s f i d → streams'.Serves s f i d := by
  obtain ⟨c, hc⟩ := Option.isSome_iff_exists.mp hcid
  by_cases hstored : m.isStored c.uniqueId = true
  · obtain ⟨j, d, hd, huid⟩ := hm.isStored_iff.mp hstored
    obtain ⟨a, ha, hacol⟩ := WrittenSegment.getElem?_cols.mp hd
    obtain rfl : a = cid := TabletSchema.column?_inj s.distinctIds hacol hc huid
    obtain rfl : d = c := Option.some.inj (hacol.symm.trans hc)
    have hserve := hserves j d ha hd
    obtain ⟨data, hdata, hdataStores⟩ := hserve.data
    have hpresentName : (d.uniqueId, StreamKind.present) ≠ (d.uniqueId, StreamKind.data) := by
      simp
    have hpresent : ((streams.take (d.uniqueId, .data)).2.take (d.uniqueId, .present)).1
        = streams.lookup (d.uniqueId, .present) := by
      simp only [StreamTable.take]
      rw [lookup_filter_ne, if_neg hpresentName]
    let p : PlainReader := ⟨d.uniqueId, d.type, streams.lookup (d.uniqueId, .present), data⟩
    have hp : p.Stores f s.options.compressor? s.options.bufferSize.toNat
        (s.rows.map (rowCell j)) := by
      have hmem : ∀ v ∈ s.rows.map (rowCell j), d.type.accepts v = true ∧ v.Fits
          ∧ (d.recordsNulls s.options = false → v.isNull = false) := by
        intro v hv
        rw [← WrittenSegment.flatten_columnBlocks] at hv
        exact WrittenSegment.mem_columnBlocks hd hfits hv
      refine ⟨hdataStores, hserve.stores, fun hnone v hv => ?_, fun v hv => (hmem v hv).1,
        fun v hv => (hmem v hv).2.1⟩
      have hrecords := hserve.present
      rw [show streams.lookup (d.uniqueId, .present) = none from hnone] at hrecords
      exact (hmem v hv).2.2 hrecords.symm
    refine ⟨.plain p, ((streams.take (d.uniqueId, .data)).2.take (d.uniqueId, .present)).2, ?_,
      .stored ha hd rfl hserve.present hp, ?_⟩
    · have htake : streams.take (d.uniqueId, .data)
          = (some data, (streams.take (d.uniqueId, .data)).2) := by
        rw [← hdata]
        rfl
      simp only [makeReader, hc, hstored, if_true, ColumnMapping.encoding?_eq hstored]
      rw [htake]
      show Except.ok (ColumnReader.plain ⟨d.uniqueId, d.type,
        ((streams.take (d.uniqueId, .data)).2.take (d.uniqueId, .present)).1, data⟩, _) = _
      rw [hpresent]
    · intro i e b hb hib hie hserveE
      refine hserveE.take fun hsame => hb ?_
      obtain ⟨b', hib', hbcol⟩ := WrittenSegment.getElem?_cols.mp hie
      obtain rfl : b = b' := Option.some.inj (hib.symm.trans hib')
      exact TabletSchema.column?_inj s.distinctIds hbcol hc hsame
  · refine ⟨.constant c.uniqueId c.default, streams, ?_, .absent ?_ hc, fun i d a _ _ _ h => h⟩
    · simp only [makeReader, hc, hstored, Bool.false_eq_true, if_false]
    · intro hmem
      obtain ⟨j, hj⟩ := List.mem_iff_getElem?.mp hmem
      exact hstored (hm.isStored_iff.mpr ⟨j, c, WrittenSegment.getElem?_cols.mpr ⟨cid, hj, hc⟩, rfl⟩)

theorem lookup_concat {t : ReaderTable} {cid a : ColumnId} {r : ColumnReader}
    (hcid : t.lookup cid = none) :
    List.lookup a (t ++ [(cid, r)]) = if a = cid then some r else t.lookup a := by
  rw [List.lookup_append]
  by_cases ha : a = cid
  · subst ha
    rw [hcid, if_pos rfl]
    simp
  · have hne : (a == cid) = false := beq_eq_false_iff_ne.mpr ha
    rw [if_neg ha, List.lookup_cons, hne]
    cases t.lookup a <;> rfl

/-- A reader is made for each column that has none yet. -/
theorem of_make (hm : m.Of s used) (hfits : s.Fits) {cids : List ColumnId} {streams : StreamTable}
    {t : ReaderTable} (hcids : ∀ cid ∈ cids, (s.schema.column? cid).isSome)
    (hserves : ∀ (j : Nat) (c : Column) (cid : ColumnId), cid ∈ cids → t.lookup cid = none →
      s.cids[j]? = some cid → s.cols[j]? = some c → streams.Serves s f j c)
    (ht : ∀ a r, t.lookup a = some r → ColumnReader.Of s f a r) :
    ∃ t', make s.schema m cids streams t = .ok t'
      ∧ (∀ a r, t'.lookup a = some r → ColumnReader.Of s f a r)
      ∧ ∀ a, a ∈ cids ∨ (t.lookup a).isSome → (t'.lookup a).isSome := by
  induction cids generalizing streams t with
  | nil => exact ⟨t, rfl, ht, fun a ha => by simpa using ha⟩
  | cons cid cids ih =>
    have hrest := fun a ha => hcids a (List.mem_cons_of_mem cid ha)
    rw [make]
    by_cases hknown : (t.lookup cid).isSome = true
    · rw [if_pos hknown]
      obtain ⟨t', hmake, hof, hsome⟩ := ih hrest
        (fun j c a ha hnone => hserves j c a (List.mem_cons_of_mem cid ha) hnone) ht
      refine ⟨t', hmake, hof, fun a ha => ?_⟩
      rcases ha with ha | ha
      · rcases List.mem_cons.mp ha with rfl | ha
        · exact hsome a (.inr hknown)
        · exact hsome a (.inl ha)
      · exact hsome a (.inr ha)
    · have hnone : t.lookup cid = none := Option.not_isSome_iff_eq_none.mp hknown
      obtain ⟨r, streams', hreader, hr, hkept⟩ := makeReader_of hm hfits
        (hcids cid List.mem_cons_self) (fun j c => hserves j c cid List.mem_cons_self hnone)
      have hlookup := fun a => lookup_concat (t := t) (r := r) (a := a) hnone
      have hserves' : ∀ (j : Nat) (c : Column) (a : ColumnId), a ∈ cids →
          List.lookup a (t ++ [(cid, r)]) = none → s.cids[j]? = some a → s.cols[j]? = some c →
          streams'.Serves s f j c := by
        intro j c a ha hnone' hj hc
        rw [hlookup] at hnone'
        by_cases hsame : a = cid
        · rw [if_pos hsame] at hnone'
          cases hnone'
        · rw [if_neg hsame] at hnone'
          exact hkept j c a hsame hj hc (hserves j c a (List.mem_cons_of_mem cid ha) hnone' hj hc)
      have ht' : ∀ a r', List.lookup a (t ++ [(cid, r)]) = some r' → ColumnReader.Of s f a r' := by
        intro a r' hr'
        rw [hlookup] at hr'
        by_cases hsame : a = cid
        · rw [if_pos hsame, Option.some.injEq] at hr'
          rwa [hsame, ← hr']
        · rw [if_neg hsame] at hr'
          exact ht a r' hr'
      obtain ⟨t', hmake, hof, hsome⟩ := ih hrest hserves' ht'
      refine ⟨t', ?_, hof, fun a ha => hsome a ?_⟩
      · rw [if_neg hknown]
        simp only [hreader, hmake]
      · by_cases hsame : a = cid
        · rw [hlookup, if_pos hsame]
          exact .inr rfl
        · rw [hlookup, if_neg hsame]
          rcases ha with ha | ha
          · exact .inl (List.mem_of_ne_of_mem hsame ha)
          · exact .inr ha

end ReaderTable

namespace SegmentReader

variable {s : WrittenSegment} {r : SegmentReader} {g : SegmentGroup} {file : FileId} {o : OpenSegment}

/-- The file of the reader. -/
def scanFile (r : SegmentReader) (g : SegmentGroup) (file : FileId) : SegmentFile :=
  ⟨r.context.options.backend, g.files.content file⟩

/-- The readers of the value streams are made. -/
theorem serves_streams (hr : r.Opened g s file o) (hfits : s.Fits) (hlossless : s.Lossless)
    {cid : ColumnId} (hused : cid ∈ r.context.used) {j : Nat} {c : Column}
    (hcid : s.cids[j]? = some cid) (hc : s.cols[j]? = some c) :
    o.valueStreams.Serves s (r.scanFile g file) j c := by
  have hbuffer : o.info.header.bufferSize = s.options.bufferSize := by
    rw [hr.written.info, WrittenSegment.info, s.header_eq, segmentHeader]
  rw [OpenSegment.valueStreams, hbuffer, hr.written.decompress, hr.written.info]
  exact WrittenSegment.serves_valueStreams hr.hosts.bytes hfits hlossless hr.written.mapping hused hcid hc

/-- The readers of the projected columns are made. -/
theorem makeReaders_of (hr : r.Opened g s file o) (hfits : s.Fits) (hlossless : s.Lossless) :
    ∃ t, r.makeReaders o g.schema = .ok t ∧ t.Of s (r.scanFile g file) r.context.used := by
  have hserves := fun (j : Nat) (c : Column) (cid : ColumnId) (hcid : cid ∈ r.context.used)
      (_ : List.lookup cid ([] : ReaderTable) = none) (hj : s.cids[j]? = some cid)
      (hc : s.cols[j]? = some c) => serves_streams hr hfits hlossless hcid hj hc
  obtain ⟨t, hmake, hof, hsome⟩ := ReaderTable.of_make hr.written.mapping hfits hr.used hserves
    (by simp)
  refine ⟨t, ?_, fun cid hcid => ?_⟩
  · rw [makeReaders_addressable (hr.written.info ▸ s.addressable hfits), hr.hosts.schema]
    exact hmake
  · obtain ⟨reader, hreader⟩ := Option.isSome_iff_exists.mp (hsome cid (.inl hcid))
    exact ⟨reader, hreader, hof cid reader hreader⟩

end SegmentReader

end SegmentStore
