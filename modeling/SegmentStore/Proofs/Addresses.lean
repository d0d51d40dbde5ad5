import SegmentStore.Proofs.Confinement
import SegmentStore.Proofs.Sums

/-!
# Opening segments whose streams fit

A header lists streams of any length, and their starts are found by adding up the lengths. A segment is opened without a
sum that overflows exactly if all its streams fit behind its header, whatever else the file holds.

* `SegmentGroup.Readable` is what files and the headers parsed from them are.
* `SegmentReader.located?` is the header of the segment that is opened. `SegmentReader.init_overflows_iff` says that
  initialising a reader overflows exactly if there is such a header and it is not addressable.
-/

namespace SegmentStore

/-! ### Headers -/

/-- The length of a header is small, whatever the file says. -/
theorem SegmentHeader.readFrom_inWords (file : SegmentFile) : InWords (readFrom file) := by
  rw [readFrom]
  split
  · exact .error StorageError.noConfusion
  refine .bind (file.readAt_inWords (by decide)) fun start _ => .bind (InWords.lift _) fun front _ => ?_
  have hnarrow := front.1.bodyLength.toNat_lt
  dsimp only
  split
  · exact .error StorageError.noConfusion
  have hfits : prefixSize + front.1.bodyLength.toNat < 2 ^ 64 := by
    rw [prefixSize]
    omega
  refine .bind (file.readAt_inWords hfits) fun body _ => .bind (InWords.lift _) fun _ _ => ?_
  exact .bind (InWords.lift _) fun _ _ => .ok _

namespace SegmentGroup

/-- The headers that were parsed before are headers of files, and no file has more bytes than can be addressed. -/
structure Readable (g : SegmentGroup) : Prop where
  parsed : ∀ e ∈ g.metas, ∃ file, SegmentHeader.readFrom file = .ok (e.2.header, e.2.headerLength)
  bounded : ∀ id, (g.files.content id).size < 2 ^ 63

variable {g : SegmentGroup} {segment : UInt32} {file : SegmentFile}

theorem segmentMeta_inWords (g : SegmentGroup) (segment : UInt32) (file : SegmentFile) :
    InWords (g.segmentMeta segment file) := by
  rw [segmentMeta]
  split
  · exact .ok _
  · exact .bind (SegmentHeader.readFrom_inWords file) fun _ _ => .ok _

/-- A header takes at least the part before its body. -/
theorem Readable.prefix_le (h : g.Readable) {info : SegmentMeta} {g' : SegmentGroup}
    (hmeta : g.segmentMeta segment file = .ok (info, g')) :
    SegmentHeader.prefixSize ≤ info.headerLength.toNat := by
  rw [segmentMeta] at hmeta
  cases hlookup : g.metas.lookup segment with
  | some m =>
    rw [hlookup] at hmeta
    obtain ⟨rfl, -⟩ := Prod.mk.inj (Except.ok.inj hmeta)
    obtain ⟨file, hread⟩ := h.parsed _ (mem_of_lookup_eq_some hlookup)
    exact (SegmentHeader.length_of_readFrom hread).1
  | none =>
    rw [hlookup] at hmeta
    obtain ⟨⟨header, headerLength⟩, hread, hmeta⟩ := bind_eq_ok.mp hmeta
    obtain ⟨rfl, -⟩ := Prod.mk.inj (Except.ok.inj hmeta)
    exact (SegmentHeader.length_of_readFrom hread).1

theorem readable_single {s : WrittenSegment} (hfits : s.Fits) : (single s).Readable := by
  refine ⟨List.forall_mem_nil _, fun id => ?_⟩
  cases id with
  | zero => exact hfits.bytes
  | succ id => exact Nat.two_pow_pos 63

end SegmentGroup

/-! ### Streams that a header lists -/

/-- The header of the segment is no shorter than headers are, and its streams fit behind it. -/
structure SegmentMeta.Placed (info : SegmentMeta) : Prop where
  prefix_le : SegmentHeader.prefixSize ≤ info.headerLength.toNat
  addressable : info.Addressable

/-- Streams that fit behind a header are found there. -/
theorem SegmentMeta.Placed.stream {info : SegmentMeta} (h : info.Placed) {l : LocatedStream}
    (hl : l ∈ StreamInfo.placeAll info.headerLength info.header.streams) (decompress? : Option Decompressor)
    (bufferSize : Nat) : (StreamReader.make l.offset l.info.length decompress? bufferSize).Placed := by
  obtain ⟨hstart, hend⟩ := StreamInfo.within_of_mem_placeAll h.addressable hl
  exact ⟨h.prefix_le.trans hstart, hend⟩

namespace IndexRequest

variable {q : IndexRequest} {l : LocatedStream} {ls : List LocatedStream}

theorem streamFailure_ne_overflow (uid : UniqueId) {e : StorageError} (he : e ≠ .overflow) :
    streamFailure uid e ≠ .overflow := by
  cases e with
  | overflow => exact absurd rfl he
  | _ => exact StorageError.noConfusion

theorem buffer_inWords (hinfo : q.info.Placed) (hbounded : q.file.size < 2 ^ 63)
    (hl : l ∈ StreamInfo.placeAll q.info.headerLength q.info.header.streams) (cache : IndexCache) (traffic : Traffic) :
    InWords (q.buffer l cache traffic).1 := by
  have hstream := hinfo.stream hl q.decompress? q.info.header.bufferSize.toNat
  have hread := StreamReader.readAll_inWords hstream hbounded
  rw [buffer]
  split
  · exact .ok _
  dsimp only
  split
  · rename_i h
    exact .error (streamFailure_ne_overflow _ (hread _ h))
  · split
    · exact .ok _
    · exact .ok _

theorem add_inWords (q : IndexRequest) (l : LocatedStream) (b : IndexBuffer) (set : IndexSet) :
    InWords (q.add l b set) := by
  have htype : InWords (q.typeOf l.info.uniqueId) := by
    rw [typeOf]
    split
    · exact .ok _
    · exact .error StorageError.noConfusion
  have hdecode : InWords (q.decode l b set) := by
    rw [decode]
    split
    · exact .bind htype fun _ _ => .bind (InWords.lift _) fun _ _ => .ok _
    · exact .bind (InWords.lift _) fun _ _ => .ok _
  refine .bind hdecode fun x _ => ?_
  dsimp only
  split
  · exact .ok _
  · exact .error StorageError.noConfusion

theorem loadStreams_inWords (hinfo : q.info.Placed) (hbounded : q.file.size < 2 ^ 63)
    (hls : ls ⊆ StreamInfo.placeAll q.info.headerLength q.info.header.streams) (set : IndexSet)
    (cache : IndexCache) (traffic : Traffic) : InWords (q.loadStreams ls set cache traffic).1 := by
  induction ls generalizing set cache traffic with
  | nil => exact .ok set
  | cons l ls ih =>
    obtain ⟨hl, hrest⟩ := List.cons_subset.mp hls
    have hbuffer := buffer_inWords hinfo hbounded hl cache traffic
    rw [loadStreams]
    split
    · rename_i h
      exact hbuffer.of_eq (congrArg Prod.fst h)
    · split
      · rename_i h
        exact (q.add_inWords _ _ _).of_eq h
      · exact ih hrest _ _ _

/-- Loading indexes overflows exactly if not all streams of the segment fit behind its header. -/
theorem load_overflows_iff (hbehind : SegmentHeader.prefixSize ≤ q.info.headerLength.toNat)
    (hbounded : q.file.size < 2 ^ 63) (cache : IndexCache) :
    (q.load cache).1 = .error .overflow ↔ ¬q.info.Addressable := by
  by_cases h : q.info.Addressable
  · have hplaced : q.placed ⊆ StreamInfo.placeAll q.info.headerLength q.info.header.streams :=
      StreamInfo.place_subset _ _ _
    have hloaded := loadStreams_inWords ⟨hbehind, h⟩ hbounded hplaced q.emptySet cache .zero
    rw [load_addressable h]
    exact iff_of_false (fun hfails => hloaded _ hfails rfl) (not_not_intro h)
  · rw [load_eq, if_neg h]
    exact iff_of_true rfl h

/-- Where no index is needed, no stream is read. -/
theorem load_of_unneeded (haddressable : q.info.Addressable)
    (h : ∀ s ∈ q.info.header.streams, q.mapping.needsIndexStream s = false) (cache : IndexCache) :
    q.load cache = (.ok q.emptySet, cache, .zero) := by
  rw [load_addressable haddressable, placed, StreamInfo.place_eq_nil h]
  rfl

end IndexRequest

theorem Conditions.checkTypes_inWords (c : Conditions) (schema : TabletSchema) : InWords (c.checkTypes schema) := by
  rw [checkTypes]
  dsimp only
  split
  · exact .error StorageError.noConfusion
  · exact .ok ()

namespace SegmentReader

variable {r : SegmentReader} {o : OpenSegment} {g : SegmentGroup} {f : SegmentFile} {stats : ScanStatistics}

/-! ### Initialising -/

theorem openFile_inWords (r : SegmentReader) (g : SegmentGroup) : InWords (r.openFile g) := by
  have hcontext : InWords (checkContext r.context g.schema) := by
    have hdeletes : InWords ((r.context.deletes?.getD []).forM fun d => d.conditions.checkTypes g.schema) :=
      .forM fun d _ => d.conditions.checkTypes_inWords g.schema
    rw [checkContext]
    split
    · exact .bind (Conditions.checkTypes_inWords _ _) fun _ _ => hdeletes
    · exact hdeletes
  refine .bind hcontext fun _ _ => ?_
  split
  · exact .error StorageError.noConfusion
  · exact .ok _

theorem openSegment_inWords (r : SegmentReader) (file : FileId) (info : SegmentMeta) (g : SegmentGroup) :
    InWords (r.openSegment file info g) := by
  have hversion : InWords info.header.checkVersion := by
    rw [SegmentHeader.checkVersion]
    split
    · exact .ok ()
    · exact .error StorageError.noConfusion
  have hrows : InWords (rowsPerBlock info.header g) := by
    rw [rowsPerBlock]
    repeat' split
    all_goals first | exact .ok _ | exact .error StorageError.noConfusion
  have hdecompress : InWords (g.codecs.decompressorFor info.header.compression) := by
    rw [Codecs.decompressorFor]
    split
    · exact .ok _
    · exact .error StorageError.noConfusion
  have hresolve : ∀ tableIds cids, InWords (ColumnMapping.resolve tableIds cids) := fun tableIds cids => by
    refine .mapM fun cid _ => ?_
    split
    · exact .ok _
    · exact .error StorageError.noConfusion
  refine .bind hversion fun _ _ => .bind hrows fun _ _ => .bind hdecompress fun _ _ => .bind ?_ fun _ _ => .ok _
  exact .bind (hresolve _ _) fun _ _ => .bind (hresolve _ _) fun _ _ => .ok _

/-- The header of the segment that is opened, if it can be. Its streams are located next. -/
def located? (r : SegmentReader) (g : SegmentGroup) : Option SegmentMeta :=
  Except.toOption do
    let (id, file) ← r.openFile g
    let (info, g) ← g.segmentMeta r.segmentId file
    let _ ← r.openSegment id info g
    return info

theorem located?_eq_some {info : SegmentMeta} : r.located? g = some info
    ↔ ∃ id file g' o, r.openFile g = .ok (id, file) ∧ g.segmentMeta r.segmentId file = .ok (info, g')
      ∧ r.openSegment id info g' = .ok o := by
  rw [located?, toOption_eq_some]
  constructor
  · intro h
    obtain ⟨⟨id, file⟩, hfile, h⟩ := bind_eq_ok.mp h
    obtain ⟨⟨info', g'⟩, hmeta, h⟩ := bind_eq_ok.mp h
    obtain ⟨o, hopen, h⟩ := bind_eq_ok.mp h
    obtain rfl : info' = info := Except.ok.inj h
    exact ⟨id, file, g', o, hfile, hmeta, hopen⟩
  · rintro ⟨id, file, g', o, hfile, hmeta, hopen⟩
    refine bind_eq_ok.mpr ⟨(id, file), hfile, bind_eq_ok.mpr ⟨(info, g'), hmeta, bind_eq_ok.mpr ⟨o, hopen, rfl⟩⟩⟩

/-- Only the number of the segment and what is asked for count. -/
theorem located?_congr {r' : SegmentReader} (hsegment : r'.segmentId = r.segmentId)
    (hcontext : r'.context = r.context) (g : SegmentGroup) : r'.located? g = r.located? g := by
  have hopen : ∀ id info g, r'.openSegment id info g = r.openSegment id info g := fun id info g => by
    rw [openSegment, openSegment, hcontext]
  rw [located?, located?, openFile, openFile, hcontext, hsegment]
  simp only [hopen]

theorem prefix_le_of_located? (hg : g.Readable) {info : SegmentMeta} (hlocated : r.located? g = some info) :
    SegmentHeader.prefixSize ≤ info.headerLength.toNat := by
  obtain ⟨id, file, g', o, -, hmeta, -⟩ := located?_eq_some.mp hlocated
  exact hg.prefix_le hmeta

/-- A segment that was written, and is opened, is addressable. -/
theorem addressable_of_hosts {s : WrittenSegment} {file : FileId} (hg : g.Hosts r.segmentId s file) (hfits : s.Fits)
    {info : SegmentMeta} (hlocated : r.located? g = some info) : info.Addressable := by
  obtain ⟨id, f, g', o, hfile, hmeta, -⟩ := located?_eq_some.mp hlocated
  obtain ⟨-, -, hfile⟩ := bind_eq_ok.mp hfile
  rw [hg.named] at hfile
  obtain ⟨rfl, rfl⟩ := Prod.mk.inj (Except.ok.inj hfile)
  obtain ⟨metas, hmeta', -⟩ := SegmentGroup.segmentMeta_hosts hg hfits r.context.options.backend
  obtain ⟨rfl, -⟩ := Prod.mk.inj (Except.ok.inj (hmeta'.symm.trans hmeta))
  exact s.addressable hfits

theorem openFile_bounded (hg : g.Readable) {id : FileId} (hfile : r.openFile g = .ok (id, f)) : f.size < 2 ^ 63 := by
  obtain ⟨-, rfl⟩ := openFile_ok hfile
  exact hg.bounded _

/-- Where no segment is opened no stream is located, and nothing overflows. -/
theorem init_of_unlocated (h : r.located? g = none) (fillCache : Bool) (cache : IndexCache) (stats : ScanStatistics) :
    InWords (r.init fillCache g cache stats).result := by
  rw [init]
  cases hfile : r.openFile g with
  | error e => exact (r.openFile_inWords g).of_eq hfile
  | ok found =>
    obtain ⟨id, file⟩ := found
    dsimp only
    cases hmeta : g.segmentMeta r.segmentId file with
    | error e => exact (g.segmentMeta_inWords _ _).of_eq hmeta
    | ok parsed =>
      obtain ⟨info, g'⟩ := parsed
      dsimp only
      cases hopen : r.openSegment id info g' with
      | error e => exact (r.openSegment_inWords _ _ _).of_eq hopen
      | ok o =>
        have hlocated := located?_eq_some.mpr ⟨id, file, g', o, hfile, hmeta, hopen⟩
        exact absurd (h.symm.trans hlocated) (Option.some_ne_none info).symm

theorem initialised_result (r : SegmentReader) (o : OpenSegment) (g : SegmentGroup)
    (loaded : Except StorageError IndexSet × IndexCache × Traffic) (stats : ScanStatistics) :
    (initialised r o g loaded stats).result = loaded.1.map fun _ => () := by
  obtain ⟨e | indexes, cache, traffic⟩ := loaded <;> rfl

/-- A reader is initialised without a sum that overflows exactly if all streams of the segment that it opens fit behind
the header. -/
theorem init_overflows_iff (hg : g.Readable) (fillCache : Bool) (cache : IndexCache) (stats : ScanStatistics) :
    (r.init fillCache g cache stats).result = .error .overflow
      ↔ ∃ info, r.located? g = some info ∧ ¬info.Addressable := by
  cases hlocated : r.located? g with
  | none =>
    have hresult := init_of_unlocated hlocated fillCache cache stats
    refine iff_of_false (fun h => hresult _ h rfl) ?_
    rintro ⟨info, hinfo, -⟩
    exact Option.some_ne_none info hinfo.symm
  | some info =>
    have hbehind := prefix_le_of_located? hg hlocated
    obtain ⟨id, file, g', o, hfile, hmeta, hopen⟩ := located?_eq_some.mp hlocated
    have hbounded := openFile_bounded hg hfile
    rw [init_of_opened hfile hmeta hopen, initialised_result]
    generalize hrequest : ({ .. } : IndexRequest) = q
    have hinfo : q.info = info := by rw [← hrequest]
    have hsize : q.file.size < 2 ^ 63 := by
      rw [← hrequest]
      exact hbounded
    have hload := IndexRequest.load_overflows_iff (hinfo ▸ hbehind) hsize cache
    rw [hinfo] at hload
    constructor
    · intro hfails
      refine ⟨info, rfl, hload.mp ?_⟩
      cases hresult : (q.load cache).1 with
      | error e =>
        rw [hresult] at hfails
        rw [Except.error.inj hfails]
      | ok indexes =>
        rw [hresult] at hfails
        cases hfails
    · rintro ⟨info', hinfo', hnot⟩
      obtain rfl := Option.some.inj hinfo'
      rw [hload.mpr hnot]
      rfl

/-- A reader that is initialised has the segment open that was located. -/
theorem located?_of_init {fillCache : Bool} {cache : IndexCache}
    (h : (r.init fillCache g cache stats).result = .ok ()) :
    ∃ o, (r.init fillCache g cache stats).reader
        = { r with segment? := some o, readers? := none, blocks? := none, cursor := .start }
      ∧ r.located? g = some o.info := by
  obtain ⟨id, file, info, g', s, hfile, hmeta, hopen⟩ := opened_of_init h
  obtain ⟨rfl, -⟩ := openSegment_ok hopen
  rw [init_of_opened hfile hmeta hopen] at h ⊢
  obtain ⟨indexes, -, hreader, -⟩ := initialised_ok h
  exact ⟨{ s with indexes }, hreader, located?_eq_some.mpr ⟨id, file, g', s, hfile, hmeta, hopen⟩⟩

/-- A reader is initialised only if all streams of the segment that it opens fit behind the header. -/
theorem addressable_of_init {fillCache : Bool} {cache : IndexCache}
    (h : (r.init fillCache g cache stats).result = .ok ()) {info : SegmentMeta} (hlocated : r.located? g = some info) :
    info.Addressable := by
  obtain ⟨id, file, g', o, hfile, hmeta, hopen⟩ := located?_eq_some.mp hlocated
  rw [init_of_opened hfile hmeta hopen] at h
  obtain ⟨indexes, hload, -⟩ := initialised_ok h
  exact (IndexRequest.loaded_of_load hload).1

theorem init_keeps (r : SegmentReader) (fillCache : Bool) (g : SegmentGroup) (cache : IndexCache)
    (stats : ScanStatistics) : (r.init fillCache g cache stats).reader.segmentId = r.segmentId
      ∧ (r.init fillCache g cache stats).reader.context = r.context := by
  rcases init_cases r fillCache g cache stats with ⟨-, hsame⟩ | ⟨hresult, -⟩
  · rw [hsame]
    exact ⟨rfl, rfl⟩
  · obtain ⟨o, hreader, -⟩ := located?_of_init hresult
    rw [hreader]
    exact ⟨rfl, rfl⟩

end SegmentReader

end SegmentStore
