import SegmentStore.Proofs.Addresses
import SegmentStore.Proofs.Unused

/-!
# Which columns are placed

Before a block is loaded, the columns are led to its start, but for those without a zone map. These are taken to be
columns that the segment lacks, and have nowhere to go then. Which columns a segment stores is one list of its header,
which zone maps it has is another.

* `ColumnReader.LedTo` says that the streams of a column have gone to some positions. `SegmentReader.seekColumns_led`
  says which columns are led, and `SegmentReader.skips_iff` which are left where they stand.
* `SegmentReader.HasReaders` is the table of readers that a first seek makes: one for each column of the scan, with
  streams if the segment stores the column.
* `SegmentReader.seek_places_iff` says of every segment when only columns that it lacks are left where they stand.
-/

namespace SegmentStore

/-- The zone map of a table column, if one was loaded. -/
def OpenSegment.zoneMapOf? (o : OpenSegment) (cid : ColumnId) : Option (Loaded ZoneMapEntry) :=
  (o.mapping.uniqueId? cid).bind o.indexes.zoneMap?

/-- The streams of a column, wherever they stood, have gone to some positions. -/
def ColumnReader.LedTo (f : SegmentFile) (positions : List UInt64) (r : ColumnReader) : Prop :=
  ∃ r₀ : ColumnReader, r₀.home = r.home ∧ r₀.seek f positions = (.ok (), r)

/-! ### Zone maps that are listed -/

/-- A zone map that is loaded is a stream of the segment. -/
theorem IndexRequest.listed_of_zoneMap? {q : IndexRequest} {cache : IndexCache} {set : IndexSet} {uid : UniqueId}
    (h : (q.load cache).1 = .ok set) (huid : set.zoneMap? uid ≠ none) :
    ∃ info ∈ q.info.header.streams, info.kind = .rowIndex ∧ info.uniqueId = uid := by
  have hall : ∀ e ∈ set.zoneMaps, ∃ info ∈ q.info.header.streams, info.kind = .rowIndex ∧ info.uniqueId = e.1 := by
    refine load_zoneMaps (P := fun uid => ∃ info ∈ q.info.header.streams, info.kind = .rowIndex ∧ info.uniqueId = uid)
      (fun l hl hkind => ?_) h
    have hinfo := List.mem_map_of_mem (f := LocatedStream.info) (StreamInfo.place_subset _ _ _ hl)
    rw [StreamInfo.map_info_placeAll] at hinfo
    exact ⟨l.info, hinfo, hkind, rfl⟩
  obtain ⟨z, hz⟩ := Option.ne_none_iff_exists'.mp huid
  exact hall (uid, z) (IndexSet.mem_of_zoneMap? hz)

/-! ### The readers that are made -/

namespace ReaderTable

variable {schema : TabletSchema} {m : ColumnMapping} {streams : StreamTable} {cids : List ColumnId}
variable {t t' : ReaderTable} {cid : ColumnId} {r : ColumnReader}

/-- Each reader was made for its column. -/
def MadeFor (t : ReaderTable) (schema : TabletSchema) (m : ColumnMapping) : Prop :=
  ∀ cid r, t.lookup cid = some r → ∃ streams streams', makeReader schema m streams cid = .ok (r, streams')

theorem madeFor_make (ht : t.MadeFor schema m) (h : make schema m cids streams t = .ok t') :
    t'.MadeFor schema m := by
  induction cids generalizing streams t with
  | nil =>
    obtain rfl := Except.ok.inj h
    exact ht
  | cons cid cids ih =>
    rw [make] at h
    split at h
    · exact ih ht h
    · rename_i hnew
      split at h
      · cases h
      · rename_i r streams' hmake
        refine ih (fun a x hx => ?_) h
        rw [lookup_concat (Option.not_isSome_iff_eq_none.mp hnew)] at hx
        split at hx
        · rename_i hsame
          subst hsame
          obtain rfl := Option.some.inj hx
          exact ⟨streams, streams', hmake⟩
        · exact ht a x hx

/-- A reader that is there stays there. -/
theorem lookup_make_of_some (h : make schema m cids streams t = .ok t') (hr : t.lookup cid = some r) :
    t'.lookup cid = some r := by
  induction cids generalizing streams t with
  | nil => rwa [← Except.ok.inj h]
  | cons a cids ih =>
    rw [make] at h
    split at h
    · exact ih h hr
    · rename_i hnew
      split at h
      · cases h
      · refine ih h ?_
        rw [lookup_concat (Option.not_isSome_iff_eq_none.mp hnew), if_neg, hr]
        rintro rfl
        rw [hr] at hnew
        exact hnew rfl

theorem exists_lookup_make (h : make schema m cids streams t = .ok t') (hcid : cid ∈ cids) :
    ∃ r, t'.lookup cid = some r := by
  induction cids generalizing streams t with
  | nil => cases hcid
  | cons a cids ih =>
    rw [make] at h
    split at h
    · rename_i hold
      rcases List.mem_cons.mp hcid with rfl | hcid
      · obtain ⟨r, hr⟩ := Option.isSome_iff_exists.mp hold
        exact ⟨r, lookup_make_of_some h hr⟩
      · exact ih h hcid
    · rename_i hnew
      split at h
      · cases h
      · rename_i r streams' hmake
        rcases List.mem_cons.mp hcid with rfl | hcid
        · refine ⟨r, lookup_make_of_some h ?_⟩
          rw [lookup_concat (Option.not_isSome_iff_eq_none.mp hnew), if_pos rfl]
        · exact ih h hcid

/-- A reader has streams exactly if the segment stores the column. -/
theorem isPlain_iff_of_makeReader {streams' : StreamTable} (h : makeReader schema m streams cid = .ok (r, streams')) :
    ∃ column, schema.column? cid = some column ∧ ((∃ p, r = .plain p) ↔ m.isStored column.uniqueId = true) := by
  rw [makeReader] at h
  split at h
  · cases h
  rename_i column hcolumn
  refine ⟨column, hcolumn, ?_⟩
  dsimp only at h
  split at h
  · rename_i hstored
    refine iff_of_true ?_ hstored
    split at h
    · cases h
    · split at h
      · cases h
      · exact ⟨_, (Prod.mk.inj (Except.ok.inj h)).1.symm⟩
  · rename_i habsent
    obtain ⟨rfl, -⟩ := Prod.mk.inj (Except.ok.inj h)
    refine iff_of_false ?_ habsent
    rintro ⟨p, hp⟩
    cases hp

end ReaderTable

namespace SegmentReader

open ReaderTable

variable {f : SegmentFile} {o : OpenSegment} {t t' : ReaderTable} {ids : List ColumnId} {cid : ColumnId}
variable {block : Nat} {r : SegmentReader} {g g' : SegmentGroup} {stats stats' : ScanStatistics}

/-! ### Columns that are led to a block -/

/-- Columns with a zone map are led to the start of a block. The induction is on the columns that are left to be led:
the one in question is among them, or has been led. -/
theorem seekColumns_led {z : Loaded ZoneMapEntry} (hzone : o.zoneMapOf? cid = some z)
    (hcid : cid ∈ ids ∨ ∃ r, t.lookup cid = some r ∧ r.LedTo f (z.entries[block]?.getD default).positions)
    (h : seekColumns f o block ids t = (.ok (), t')) :
    ∃ r, t'.lookup cid = some r ∧ r.LedTo f (z.entries[block]?.getD default).positions := by
  induction ids generalizing t with
  | nil =>
    obtain ⟨-, rfl⟩ := Prod.mk.inj h
    exact hcid.resolve_left List.not_mem_nil
  | cons a ids ih =>
    rw [seekColumns] at h
    split at h
    · rename_i hnone
      refine ih (hcid.imp_left fun hmem => (List.mem_cons.mp hmem).resolve_left ?_) h
      rintro rfl
      cases hzone.symm.trans hnone
    · rename_i y hy
      split at h
      · cases congrArg Prod.fst h
      · rename_i r hr
        have hhome := r.seek_home f (y.entries[block]?.getD default).positions
        dsimp only at h
        split at h
        · rename_i r' hseek
          rw [hseek] at hhome
          refine ih ?_ h
          rw [lookup_set]
          by_cases hsame : cid = a
          · subst hsame
            obtain rfl := Option.some.inj (hzone.symm.trans hy)
            rw [if_pos rfl, hr]
            exact .inr ⟨r', rfl, r, hhome.symm, hseek⟩
          · rw [if_neg hsame]
            exact hcid.imp_left fun hmem => (List.mem_cons.mp hmem).resolve_left hsame
        · cases congrArg Prod.fst h

/-- Whenever a column is to be led to the start of a block, it is left where it stands. -/
def Skips (o : OpenSegment) (cid : ColumnId) : Prop :=
  ∀ f block t, seekColumns f o block [cid] t = (.ok (), t)

theorem skips_iff : Skips o cid ↔ o.zoneMapOf? cid = none := by
  constructor
  · intro hskips
    by_contra hzone
    obtain ⟨z, hz⟩ := Option.ne_none_iff_exists'.mp hzone
    have hmissing : seekColumns ⟨.positioned, .empty⟩ o 0 [cid] [] = (.error (.invalidColumn cid), []) := by
      rw [OpenSegment.zoneMapOf?] at hz
      rw [seekColumns, hz]
      rfl
    cases (hskips _ _ _).symm.trans hmissing
  · intro hzone f block t
    rw [OpenSegment.zoneMapOf?] at hzone
    rw [seekColumns, hzone]
    rfl

/-- Columns that are led to the start of a block stand there if they have streams: at the positions that the zone map of
the column has for the block. Some of the readers of a table may have moved since it was made. -/
def Places (o : OpenSegment) (t : ReaderTable) : Prop :=
  ∀ f block ids t₁ t₂, block < o.indexes.blockCount → t₁.SameStreams t →
    seekColumns f o block ids t₁ = (.ok (), t₂) → ∀ cid ∈ ids, ∀ p, t₂.lookup cid = some (.plain p) →
      ∃ z e, o.zoneMapOf? cid = some z ∧ z.entries[block]? = some e ∧ (ColumnReader.plain p).LedTo f e.positions

/-- A column that is led to the first block has a zone map. -/
theorem Places.zoneMapOf?_ne_none (h : Places o t) (hblocks : 0 < o.indexes.blockCount) {p : PlainReader}
    (hp : t.lookup cid = some (.plain p)) : o.zoneMapOf? cid ≠ none := by
  intro hzone
  obtain ⟨z, e, hz, -⟩ := h ⟨.positioned, .empty⟩ 0 [cid] t t hblocks (.refl t) (skips_iff.mpr hzone _ _ _) cid
    List.mem_cons_self p hp
  cases hzone.symm.trans hz

/-! ### The readers of a scan -/

/-- There is a reader for each column of the scan, and it has streams exactly if the segment stores the column. -/
structure HasReaders (o : OpenSegment) (used : List ColumnId) (t : ReaderTable) : Prop where
  used : ∀ cid, cid ∈ used ↔ ∃ x, t.lookup cid = some x
  stored : ∀ cid x, t.lookup cid = some x → ((∃ p, x = .plain p) ↔ ∃ uid, o.mapping.storedId? cid = some uid)

variable {used : List ColumnId}

/-- A column that the segment stores is read from its streams. -/
theorem HasReaders.plain (h : HasReaders o used t) (hcid : cid ∈ used) {uid : UniqueId}
    (hstored : o.mapping.storedId? cid = some uid) : ∃ p, t.lookup cid = some (.plain p) := by
  obtain ⟨x, hx⟩ := (h.used cid).mp hcid
  obtain ⟨p, rfl⟩ := (h.stored cid x hx).mpr ⟨uid, hstored⟩
  exact ⟨p, hx⟩

variable {fillCache : Bool} {cache : IndexCache}

/-- The readers that are made for a segment that was opened. -/
theorem hasReaders_of_init (hinit : (r.init fillCache g cache stats).result = .ok ())
    (ho : (r.init fillCache g cache stats).reader.segment? = some o)
    (hmake : (r.init fillCache g cache stats).reader.makeReaders o g.schema = .ok t) :
    HasReaders o r.context.used t := by
  obtain ⟨o', q, hopened, hreader, -⟩ := init_ok hinit
  rw [hreader] at ho hmake
  obtain rfl : o' = o := Option.some.inj ho
  obtain ⟨-, hmake⟩ := made_of_makeReaders hmake
  refine ⟨fun cid => ⟨exists_lookup_make hmake, fun ⟨x, hx⟩ => ?_⟩, fun cid x hx => ?_⟩
  · by_contra hunused
    have hnone : t.lookup cid = none := (lookup_make hmake hunused).trans rfl
    cases hx.symm.trans hnone
  · have hmade : t.MadeFor g.schema o'.mapping := madeFor_make (t := []) (fun _ _ h => nomatch h) hmake
    obtain ⟨streams, streams', hreader⟩ := hmade cid x hx
    obtain ⟨column, hcolumn, hplain⟩ := isPlain_iff_of_makeReader hreader
    have hid : o'.mapping.uniqueId? cid = some column.uniqueId := by
      rw [ColumnMapping.uniqueId?_of_build hopened.mapped, hcolumn]
      rfl
    rw [hplain, ColumnMapping.storedId?, hid]
    simp only [Option.filter_eq_some_iff, Option.some.injEq]
    constructor
    · intro hstored
      exact ⟨_, rfl, hstored⟩
    · rintro ⟨uid, rfl, hstored⟩
      exact hstored

/-- A zone map that was loaded has an entry for each block, and blocks are counted in a word. -/
theorem entries_of_init (hinit : (r.init fillCache g cache stats).result = .ok ())
    (ho : (r.init fillCache g cache stats).reader.segment? = some o) {z : Loaded ZoneMapEntry}
    (hz : o.zoneMapOf? cid = some z) : z.entries.size = o.indexes.blockCount := by
  obtain ⟨-, hnumbered⟩ := numbered_of_init hinit ho
  obtain ⟨uid, -, hz⟩ := Option.bind_eq_some_iff.mp hz
  obtain ⟨hsize, hcount⟩ := hnumbered.zoneMaps _ (IndexSet.mem_of_zoneMap? hz)
  rw [hnumbered.blockCount, hsize]
  exact (Nat.mod_eq_of_lt hcount).symm

/-- Exactly the columns of the scan of which the segment has a row index have a zone map. -/
theorem zoneMapOf?_of_init (hinit : (r.init fillCache g cache stats).result = .ok ())
    (ho : (r.init fillCache g cache stats).reader.segment? = some o) (hcid : cid ∈ r.context.used) {uid : UniqueId}
    (huid : o.mapping.storedId? cid = some uid) :
    o.zoneMapOf? cid ≠ none ↔ ∃ info ∈ o.info.header.streams, info.kind = .rowIndex ∧ info.uniqueId = uid := by
  have hid := (Option.filter_eq_some_iff.mp huid).1
  rw [OpenSegment.zoneMapOf?, hid]
  constructor
  · obtain ⟨o', q, hopened, hreader, -⟩ := init_ok hinit
    rw [hreader] at ho
    obtain rfl : o' = o := Option.some.inj ho
    rw [← hopened.info]
    exact IndexRequest.listed_of_zoneMap? hopened.loaded
  · rintro ⟨info, hinfo, hkind, hname⟩
    exact zoneMap?_of_init hinit ho hcid huid hinfo hkind hname

/-- The segment has a row index of each stored column exactly if no reader with streams lacks a zone map. -/
theorem rowIndexed_iff_zoneMapOf? (hinit : (r.init fillCache g cache stats).result = .ok ())
    (ho : (r.init fillCache g cache stats).reader.segment? = some o) (ht : HasReaders o r.context.used t) :
    o.RowIndexed r.context.used ↔ ∀ cid p, t.lookup cid = some (.plain p) → o.zoneMapOf? cid ≠ none := by
  constructor
  · intro hindexed cid p hp
    have hcid := (ht.used cid).mpr ⟨_, hp⟩
    obtain ⟨uid, huid⟩ := (ht.stored cid _ hp).mp ⟨p, rfl⟩
    exact (zoneMapOf?_of_init hinit ho hcid huid).mpr (hindexed cid hcid uid huid)
  · intro hzones cid hcid uid huid
    obtain ⟨p, hp⟩ := ht.plain hcid huid
    exact (zoneMapOf?_of_init hinit ho hcid huid).mp (hzones cid p hp)

/-- Readers of streams are led to each block if all of them have zone maps. -/
theorem places_of_zoneMapOf? (hinit : (r.init fillCache g cache stats).result = .ok ())
    (ho : (r.init fillCache g cache stats).reader.segment? = some o)
    (hzones : ∀ cid p, t.lookup cid = some (.plain p) → o.zoneMapOf? cid ≠ none) : Places o t := by
  intro f block ids t₁ t₂ hblock hsame hseek cid hcid p hp
  have hkept := (seekColumns_same f o block ids t₁).trans hsame
  rw [hseek] at hkept
  obtain ⟨x, hx, hhome⟩ : ∃ x, t.lookup cid = some x ∧ (ColumnReader.plain p).home = x.home := by
    rcases hkept.lookup cid with ⟨hnone, -⟩ | ⟨y, x, hy, hx, hhome⟩
    · cases hp.symm.trans hnone
    · obtain rfl := Option.some.inj (hp.symm.trans hy)
      exact ⟨x, hx, hhome⟩
  rcases ColumnReader.cases_of_home hhome with ⟨_, p', -, rfl, -⟩ | ⟨uid, v, hconstant, -⟩
  · obtain ⟨z, hz⟩ := Option.ne_none_iff_exists'.mp (hzones cid p' hx)
    have hsize := entries_of_init hinit ho hz
    have hentry : z.entries[block]? = some z.entries[block] := Array.getElem?_eq_getElem (by omega)
    obtain ⟨y, hy, hled⟩ := seekColumns_led hz (.inl hcid) hseek
    obtain rfl := Option.some.inj (hp.symm.trans hy)
    rw [hentry] at hled
    exact ⟨z, _, hz, hentry, hled⟩
  · cases hconstant

/-- A first seek that succeeds has made the readers of the columns. -/
theorem hasReaders_of_seek (hinit : (r.init fillCache g cache stats).result = .ok ())
    (ho : (r.init fillCache g cache stats).reader.segment? = some o) (hschema : g'.schema = g.schema)
    {first last : Nat} {unfiltered : Bool} {position : ScanPosition}
    (hseek : ((r.init fillCache g cache stats).reader.seekToBlock first last unfiltered g' stats').1 = .ok position) :
    ((r.init fillCache g cache stats).reader.seekToBlock first last unfiltered g' stats').2.1.segment? = some o
      ∧ ∃ t,
        ((r.init fillCache g cache stats).reader.seekToBlock first last unfiltered g' stats').2.1.readers? = some t
        ∧ HasReaders o r.context.used t := by
  have hmade : ∀ t, (r.init fillCache g cache stats).reader.makeReaders o g'.schema = .ok t →
      HasReaders o r.context.used t := fun t hmake => hasReaders_of_init hinit ho (hschema ▸ hmake)
  have hnone : (r.init fillCache g cache stats).reader.readers? = none := by
    obtain ⟨o', -, -, hreader, -⟩ := init_ok hinit
    rw [hreader]
  generalize (r.init fillCache g cache stats).reader = x at ho hnone hmade hseek ⊢
  cases hmake : x.makeReaders o g'.schema with
  | error e =>
    rw [seekToBlock_of_unmade ho hnone hmake] at hseek
    cases hseek
  | ok t =>
    have hsought : x.seekToBlock first last unfiltered g' stats'
        = { x with readers? := some t }.seekRange o first last unfiltered g' stats' := by
      rw [seekToBlock, ho, hnone]
      dsimp only
      rw [hmake, ← ho]
    obtain ⟨answer, stats'', blocks?, cursor, hranged, -⟩ :=
      seekRange_keeps { x with readers? := some t } o first last unfiltered g' stats'
    rw [hsought, hranged]
    exact ⟨ho, t, rfl, hmade t hmake⟩

/-- Whatever a file holds, once its segment is opened and sent to a range: each reader that has streams has a zone map
with an entry for each block, and only columns that the segment lacks are left where they stand, exactly if the header
lists a row index of each column of the scan that it stores. All readers with streams are led to the block that is
loaded then, and only then if there are blocks at all. -/
theorem seek_places_iff (hinit : (r.init fillCache g cache stats).result = .ok ()) (hschema : g'.schema = g.schema)
    {first last : Nat} {unfiltered : Bool} {position : ScanPosition}
    (hseek : ((r.init fillCache g cache stats).reader.seekToBlock first last unfiltered g' stats').1 = .ok position) :
    ∃ o t,
      ((r.init fillCache g cache stats).reader.seekToBlock first last unfiltered g' stats').2.1.segment? = some o
      ∧ ((r.init fillCache g cache stats).reader.seekToBlock first last unfiltered g' stats').2.1.readers? = some t
      ∧ HasReaders o r.context.used t
      ∧ (o.RowIndexed r.context.used ↔ ∀ cid p, t.lookup cid = some (.plain p) →
          ∃ z, o.zoneMapOf? cid = some z ∧ z.entries.size = o.indexes.blockCount)
      ∧ (o.RowIndexed r.context.used ↔ ∀ cid ∈ r.context.used, Skips o cid →
          ∃ uid v, t.lookup cid = some (.constant uid v))
      ∧ (o.RowIndexed r.context.used → Places o t)
      ∧ (0 < o.indexes.blockCount → Places o t → o.RowIndexed r.context.used) := by
  obtain ⟨o, -, -, hreader, -⟩ := init_ok hinit
  have ho : (r.init fillCache g cache stats).reader.segment? = some o := by rw [hreader]
  obtain ⟨hsegment, t, hreaders, ht⟩ := hasReaders_of_seek hinit ho hschema hseek
  have hiff := rowIndexed_iff_zoneMapOf? hinit ho ht
  refine ⟨o, t, hsegment, hreaders, ht, hiff.trans ?_, hiff.trans ?_,
    fun hindexed => places_of_zoneMapOf? hinit ho (hiff.mp hindexed), fun hblocks hplaces => hiff.mpr ?_⟩
  · refine forall₃_congr fun cid p hp => ⟨fun hzone => ?_, fun ⟨z, hz, _⟩ => ?_⟩
    · obtain ⟨z, hz⟩ := Option.ne_none_iff_exists'.mp hzone
      exact ⟨z, hz, entries_of_init hinit ho hz⟩
    · rw [hz]
      exact Option.some_ne_none z
  · constructor
    · intro hzones cid hcid hskips
      obtain ⟨x, hx⟩ := (ht.used cid).mp hcid
      cases x with
      | constant uid v => exact ⟨uid, v, hx⟩
      | plain p => exact absurd (skips_iff.mp hskips) (hzones cid p hx)
    · intro hskipped cid p hp hzone
      obtain ⟨uid, v, hconstant⟩ := hskipped cid ((ht.used cid).mpr ⟨_, hp⟩) (skips_iff.mpr hzone)
      cases hp.symm.trans hconstant
  · exact fun cid p hp => hplaces.zoneMapOf?_ne_none hblocks hp

/-- The keys and values of the small segment are led to each block that is loaded. -/
theorem seek_places_iff_sample :
    let opened := (make 0 sampleContext).init true (.single .sample) .empty .zero
    ∃ p r₀ stats₀ o t, opened.result = .ok ()
      ∧ opened.reader.seekToBlock 0 7 false opened.group .zero = (.ok p, r₀, stats₀)
      ∧ r₀.segment? = some o ∧ r₀.readers? = some t ∧ Places o t
      ∧ ∀ cid p, t.lookup cid = some (.plain p) →
          ∃ z, o.zoneMapOf? cid = some z ∧ z.entries.size = o.indexes.blockCount := by
  obtain ⟨o, r₀, stats₀, hopened, hof, hseek⟩ := sought_sample .zero
  obtain ⟨-, -, -, -, hschema⟩ := init_ok Session.init_sample
  obtain ⟨o₁, t, hsegment, hreaders, -, hzones, -, hplaces, -⟩ :=
    seek_places_iff Session.init_sample hschema (congrArg Prod.fst hseek)
  rw [hseek] at hsegment hreaders
  obtain ⟨hkept, -⟩ := hasReaders_of_seek Session.init_sample hopened hschema (congrArg Prod.fst hseek)
  rw [hseek] at hkept
  obtain rfl : o = o₁ := Option.some.inj (hkept.symm.trans hsegment)
  exact ⟨_, r₀, stats₀, o, t, Session.init_sample, hseek, hsegment, hreaders, hplaces hof.rowIndexed,
    hzones.mp hof.rowIndexed⟩

/-! ### A column without a row index -/

/-- A header of four rows of one column, of which only the values are stored. -/
def unindexedHeader : SegmentHeader :=
  { magic := SegmentHeader.segmentMagic, version := SegmentHeader.currentVersion, rowCount := 4, rowsPerBlock := 2
    compression := 0, bufferSize := 64, bloomHashes := 4, bloomBits := 4096, nullSupported := true
    columns := [⟨10, .int32, false, .plain⟩], streams := [⟨10, .data, 25⟩] }

/-- The values 1 to 4. -/
def unindexedValues : Bytes := [1, 2, 3, 4].flatMap u32Bytes

/-- A group with a segment of that header, the values in one chunk behind it. -/
def unindexedGroup : SegmentGroup :=
  ⟨"group", ⟨[⟨10, "key", .int32, true, false, .none, none⟩]⟩, 0, 1,
    ⟨[(0, 0)], #[⟨(unindexedHeader.encode ++ StreamWriter.chunkOf none unindexedValues).toArray⟩]⟩, [], .standard⟩

/-- A scan of that column. -/
def unindexedContext : ReadContext := ⟨[0], [], none, none, .unknown, false, .default⟩

/-- The segment is opened, with a column that it stores and no zone map. -/
theorem init_unindexed :
    let opened := (make 0 unindexedContext).init true unindexedGroup .empty .zero
    opened.result = .ok () ∧ opened.group.schema = unindexedGroup.schema
      ∧ ∃ o, opened.reader.segment? = some o ∧ o.mapping.storedId? 0 = some 10 ∧ o.zoneMapOf? 0 = none
        ∧ o.indexes.blockCount = 2 := by
  have hinit : ((make 0 unindexedContext).init true unindexedGroup .empty .zero).result = .ok () := by decide +kernel
  obtain ⟨o, -, -, hreader, hschema⟩ := init_ok hinit
  have ho : ((make 0 unindexedContext).init true unindexedGroup .empty .zero).reader.segment? = some o := by
    rw [hreader]
  have hmapped : (((make 0 unindexedContext).init true unindexedGroup .empty .zero).reader.segment?.map fun o =>
      (o.mapping.storedId? 0, (o.zoneMapOf? 0).isNone, o.indexes.blockCount)) = some (some 10, true, 2) := by
    decide +kernel
  rw [ho, Option.map_some, Option.some.injEq, Prod.mk.injEq, Prod.mk.injEq] at hmapped
  obtain ⟨hstored, hzone, hblocks⟩ := hmapped
  exact ⟨hinit, hschema, o, ho, hstored, Option.isNone_iff_eq_none.mp hzone, hblocks⟩

/-- The segment is sent to its second block. The column has streams, but is left where it stands, and the values of the
first block are loaded for those of the second. -/
theorem seek_leaves_unindexed :
    let opened := (make 0 unindexedContext).init true unindexedGroup .empty .zero
    let batch : RowBatch := ⟨[⟨0, .int32, .empty .int32⟩], 2, 0, .needsRowFilter⟩
    opened.result = .ok () ∧ ∃ r₀ stats₀ o t p,
      opened.reader.seekToBlock 1 1 false opened.group .zero = (.ok ⟨1, false⟩, r₀, stats₀)
      ∧ r₀.segment? = some o ∧ r₀.readers? = some t ∧ t.lookup 0 = some (.plain p)
      ∧ o.zoneMapOf? 0 = none ∧ Skips o 0 ∧ ¬Places o t
      ∧ (r₀.getBlock batch opened.group stats₀).1 = .ok ⟨2, true⟩
      ∧ (r₀.getBlock batch opened.group stats₀).2.2.1.columns.map (fun c => [c.vector.get 0, c.vector.get 1])
        = [[.int32 1, .int32 2]] := by
  obtain ⟨hinit, hschema, o, ho, hstored, hzone, hblocks⟩ := init_unindexed
  have hsought : (((make 0 unindexedContext).init true unindexedGroup .empty .zero).reader.seekToBlock 1 1 false
      ((make 0 unindexedContext).init true unindexedGroup .empty .zero).group .zero).1 = .ok ⟨1, false⟩ := by
    decide +kernel
  obtain ⟨hsegment, t, hreaders, ht⟩ := hasReaders_of_seek hinit ho hschema hsought
  have hused : 0 ∈ (make 0 unindexedContext).context.used := List.mem_singleton.mpr rfl
  obtain ⟨p, hp⟩ := ht.plain hused hstored
  have hpair : ∀ {α β γ : Type} {x : α × β × γ} {a : α}, x.1 = a → x = (a, x.2.1, x.2.2) := fun h => Prod.ext h rfl
  exact ⟨hinit, _, _, o, t, p, hpair hsought, hsegment, hreaders, hp, hzone, skips_iff.mpr hzone,
    fun hplaces => hplaces.zoneMapOf?_ne_none (by omega) hp hzone, by decide +kernel, by decide +kernel⟩

end SegmentReader

end SegmentStore
