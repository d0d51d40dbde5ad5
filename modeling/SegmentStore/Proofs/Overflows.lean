import SegmentStore.Proofs.Addresses
import SegmentStore.Proofs.Guarded
import SegmentStore.Proofs.Unused

/-!
# Calls whose sums overflow

A call of a reader overflows only when it opens a segment whose streams do not fit behind its header. Once a reader is
initialised no call does, whatever zone maps and chunks the file holds and whatever is asked for.

* `SegmentReader.Placed` is what all calls keep: the open segment is addressable, and the streams that are read are found
  behind its header. `SegmentReader.Placed.seekToBlock_inWords` and `SegmentReader.Placed.getBlock_inWords` say that
  such a reader goes on without a sum that overflows.
* `Session.Overflows` says that a call overflows. `Session.placed_call` is the step, `Session.placed_run` the run, and
  `Session.overflows_iff` says which calls of a history do.
* `Session.overflows_wrapping` is a segment that cannot be opened: a column of it is sound, but streams are listed that
  have more bytes than there are words.
-/

namespace SegmentStore

/-- The streams of all readers are placed. -/
def ReaderTable.Placed (t : ReaderTable) : Prop := ∀ cid r, t.lookup cid = some r → r.Placed

theorem ReaderTable.Placed.of_same {t t' : ReaderTable} (h : t.Placed) (hsame : t'.SameStreams t) : t'.Placed := by
  intro cid r hr
  rcases hsame.lookup cid with ⟨hnone, -⟩ | ⟨r', r₀, hr', hr₀, hhome⟩
  · exact absurd (hr.symm.trans hnone) (Option.some_ne_none r)
  · obtain rfl : r = r' := Option.some.inj (hr.symm.trans hr')
    exact (h cid r₀ hr₀).of_home hhome

theorem ReaderTable.makeReader_inWords (schema : TabletSchema) (mapping : ColumnMapping) (streams : StreamTable)
    (cid : ColumnId) : InWords (makeReader schema mapping streams cid) := by
  rw [makeReader]
  split
  · exact .error StorageError.noConfusion
  dsimp only
  split
  · split
    · exact .error StorageError.noConfusion
    · split
      · exact .error StorageError.noConfusion
      · exact .ok _
  · exact .ok _

theorem ReaderTable.make_inWords (schema : TabletSchema) (mapping : ColumnMapping) (cids : List ColumnId)
    (streams : StreamTable) (t : ReaderTable) : InWords (make schema mapping cids streams t) := by
  induction cids generalizing streams t with
  | nil => exact .ok t
  | cons cid cids ih =>
    rw [make]
    split
    · exact ih _ _
    · split
      · rename_i h
        exact (makeReader_inWords schema mapping streams cid).of_eq h
      · exact ih _ _

theorem PruneRequest.prune_inWords (q : PruneRequest) (first last : Nat) : InWords (q.prune first last) := by
  rw [prune]
  dsimp only
  split
  · exact .error StorageError.noConfusion
  · split
    · exact .ok _
    · split
      · exact .ok _
      · exact .ok _

namespace SegmentReader

open ReaderTable

variable {r : SegmentReader} {o : OpenSegment} {g : SegmentGroup} {t : ReaderTable} {f : SegmentFile}
variable {stats : ScanStatistics}

/-! ### What calls keep -/

/-- The streams of the open segment fit behind its header, and those that are read are found there. -/
structure Placed (r : SegmentReader) : Prop where
  segment : ∀ o, r.segment? = some o → o.info.Placed
  readers : ∀ t, r.readers? = some t → t.Placed

theorem placed_make (segmentId : UInt32) (context : ReadContext) : (make segmentId context).Placed :=
  ⟨fun o ho => absurd ho.symm (Option.some_ne_none o), fun t ht => absurd ht.symm (Option.some_ne_none t)⟩

/-- A segment whose streams do not fit is not opened. -/
theorem Placed.init (h : r.Placed) (hg : g.Readable) (fillCache : Bool) (cache : IndexCache)
    (stats : ScanStatistics) : (r.init fillCache g cache stats).reader.Placed := by
  rcases init_cases r fillCache g cache stats with ⟨-, hsame⟩ | ⟨hresult, -⟩
  · rwa [hsame]
  · obtain ⟨o, hreader, hlocated⟩ := located?_of_init hresult
    rw [hreader]
    refine ⟨fun o' ho' => ?_, fun t ht => absurd ht.symm (Option.some_ne_none t)⟩
    obtain rfl := Option.some.inj ho'
    exact ⟨prefix_le_of_located? hg hlocated, addressable_of_init hresult hlocated⟩

/-- The readers that are made read streams that fit behind the header. -/
theorem makeReaders_placed (ho : o.info.Placed) {schema : TabletSchema} (hmake : r.makeReaders o schema = .ok t) :
    t.Placed := by
  intro cid x hx
  have hdrawn := makeReaders_listed hmake hx
  have hplaced : ∀ {name d}, Listed o name d → d.Placed := by
    rintro name d ⟨l, hl, -, rfl⟩
    exact ho.stream hl _ _
  cases x with
  | constant uid v => exact trivial
  | plain p =>
    obtain ⟨c, -, hdata, hpresent⟩ := hdrawn
    exact ⟨fun p hp => hplaced (hpresent p hp), hplaced hdata⟩

/-! ### Seeking -/

theorem Placed.seekRange (h : r.Placed) (o : OpenSegment) (first last : Nat) (unfiltered : Bool) (g : SegmentGroup)
    (stats : ScanStatistics) : (r.seekRange o first last unfiltered g stats).2.1.Placed := by
  obtain ⟨result, stats', blocks?, cursor, hseek, -⟩ := seekRange_keeps r o first last unfiltered g stats
  rw [hseek]
  exact ⟨h.segment, h.readers⟩

theorem seekRange_inWords (r : SegmentReader) (o : OpenSegment) (first last : Nat) (unfiltered : Bool)
    (g : SegmentGroup) (stats : ScanStatistics) : InWords (r.seekRange o first last unfiltered g stats).1 := by
  rw [seekRange]
  dsimp only
  split
  · exact .ok _
  split
  · exact .ok _
  split
  · rename_i h
    exact (PruneRequest.prune_inWords _ _ _).of_eq h
  · exact .ok _

/-- A seek overflows nowhere, and leaves streams where the header says. -/
theorem Placed.seekToBlock_inWords (h : r.Placed) (first last : Nat) (unfiltered : Bool) (g : SegmentGroup)
    (stats : ScanStatistics) :
    InWords (r.seekToBlock first last unfiltered g stats).1
      ∧ (r.seekToBlock first last unfiltered g stats).2.1.Placed := by
  rw [SegmentReader.seekToBlock]
  cases hsegment : r.segment? with
  | none => exact ⟨.error StorageError.noConfusion, h⟩
  | some o =>
    have ho := h.segment o hsegment
    dsimp only
    cases hreaders : r.readers? with
    | some t => exact ⟨seekRange_inWords _ _ _ _ _ _ _, h.seekRange o first last unfiltered g stats⟩
    | none =>
      dsimp only
      cases hmake : r.makeReaders o g.schema with
      | error e =>
        rw [makeReaders_addressable ho.addressable] at hmake
        exact ⟨(make_inWords _ _ _ _ _).of_eq hmake, h⟩
      | ok t =>
        have hmade : ({ r with segment? := some o, readers? := some t } : SegmentReader).Placed := by
          refine ⟨fun o' ho' => Option.some.inj ho' ▸ ho, fun t' ht' => ?_⟩
          obtain rfl := Option.some.inj ht'
          exact makeReaders_placed ho hmake
        exact ⟨seekRange_inWords _ _ _ _ _ _ _, hmade.seekRange o first last unfiltered g stats⟩

/-! ### Loading -/

theorem seekFailure_ne_overflow (uid : UniqueId) (block : Nat) {e : StorageError} (he : e ≠ .overflow) :
    seekFailure uid block e ≠ .overflow := by
  cases e with
  | overflow => exact absurd rfl he
  | _ => exact StorageError.noConfusion

theorem seekColumns_inWords (ht : t.Placed) (hbounded : f.size < 2 ^ 63) (o : OpenSegment) (block : Nat)
    (cids : List ColumnId) : InWords (seekColumns f o block cids t).1 := by
  induction cids generalizing t with
  | nil => exact .ok ()
  | cons cid cids ih =>
    rw [seekColumns]
    split
    · exact ih ht
    rename_i z _
    split
    · exact .error StorageError.noConfusion
    rename_i r hlookup
    have hseek := ColumnReader.seek_inWords (ht cid r hlookup) hbounded (z.entries[block]?.getD default).positions
    have hhome := r.seek_home f (z.entries[block]?.getD default).positions
    dsimp only
    rcases hsought : r.seek f (z.entries[block]?.getD default).positions with ⟨e | _, r'⟩ <;>
      rw [hsought] at hseek hhome
    · exact .error (seekFailure_ne_overflow _ block (hseek e rfl))
    · exact ih (ht.of_same (sameStreams_set hlookup hhome))

theorem readColumns_inWords (ht : t.Placed) (hbounded : f.size < 2 ^ 63) (rows : Nat) (cs : List BatchColumn)
    (i : Nat) (batch : RowBatch) : InWords (readColumns f rows cs i t batch).1 := by
  induction cs generalizing i t batch with
  | nil => exact .ok ()
  | cons c cs ih =>
    rw [readColumns]
    split
    · exact .error StorageError.noConfusion
    rename_i r hlookup
    have hvector := ColumnReader.nextVector_inWords (ht c.id r hlookup) hbounded c.type rows
    have hhome := r.nextVector_home f c.type rows
    rcases hread : r.nextVector f c.type rows with ⟨e | v, r'⟩ <;> rw [hread] at hvector hhome
    · exact hvector.of_eq rfl
    · exact ih (ht.of_same (sameStreams_set hlookup hhome)) (i + 1) _

theorem positionColumns_inWords (ht : t.Placed) (hbounded : f.size < 2 ^ 63) (r : SegmentReader) (o : OpenSegment)
    (batch : RowBatch) : InWords (r.positionColumns f o t batch).1 := by
  have hseek := seekColumns_inWords ht hbounded o r.cursor.next batch.columnIds
  rw [positionColumns]
  dsimp only
  split
  · rcases hsought : seekColumns f o r.cursor.next batch.columnIds t with ⟨e | _, t'⟩ <;> rw [hsought] at hseek
    · exact hseek.of_eq rfl
    · exact .ok ()
  · exact .ok ()

theorem loadBlock_inWords (ht : t.Placed) (hbounded : f.size < 2 ^ 63) (r : SegmentReader) (o : OpenSegment)
    (batch : RowBatch) : InWords (r.loadBlock f o t batch).1 := by
  have hread := readColumns_inWords ht hbounded (rowsToLoad o r.cursor.current batch.capacity) batch.columns 0 batch
  rw [loadBlock]
  dsimp only
  split
  · rename_i h
    exact hread.of_eq (congrArg Prod.fst h)
  · exact .ok _

/-- Loading a block overflows nowhere. -/
theorem Placed.getBlock_inWords (h : r.Placed) (hg : g.Readable) (batch : RowBatch) (stats : ScanStatistics) :
    InWords (r.getBlock batch g stats).1 := by
  rw [SegmentReader.getBlock]
  split
  · exact .ok _
  cases hsegment : r.segment? with
  | none => exact .error StorageError.noConfusion
  | some o =>
    cases hreaders : r.readers? with
    | none => exact .error StorageError.noConfusion
    | some t =>
      have ht := h.readers t hreaders
      have hbounded : (⟨r.context.options.backend, g.files.content o.file⟩ : SegmentFile).size < 2 ^ 63 :=
        hg.bounded o.file
      have hposition := positionColumns_inWords ht hbounded r o batch
      obtain ⟨result, t', cursor, hpositioned, hsame⟩ := positionColumns_same hreaders
        ⟨r.context.options.backend, g.files.content o.file⟩ o batch
      rw [hpositioned] at hposition
      dsimp only
      rw [hpositioned]
      cases result with
      | error e =>
        dsimp only
        split
        · exact .ok _
        · exact hposition.of_eq rfl
      | ok _ =>
        have hload := fun r : SegmentReader => loadBlock_inWords (ht.of_same hsame) hbounded r o batch
        dsimp only
        rw [Option.getD_some]
        split
        · rename_i hresult
          exact (hload _).of_eq hresult
        · exact .ok _

/-- A call that loads a block moves streams, but leaves them where they are. -/
theorem Placed.getBlock (h : r.Placed) (batch : RowBatch) (g : SegmentGroup) (stats : ScanStatistics) :
    (r.getBlock batch g stats).2.1.Placed := by
  obtain ⟨readers?, cursor, hget, hsame⟩ := getBlock_same r batch g stats
  rw [hget]
  refine ⟨h.segment, fun t ht => ?_⟩
  obtain rfl : readers? = some t := ht
  cases hreaders : r.readers? with
  | none =>
    rw [hreaders] at hsame
    cases hsame
  | some t' =>
    rw [hreaders] at hsame
    cases hsame with
    | some hsame => exact (h.readers t' hreaders).of_same hsame

/-! ### Sessions -/

/-- The header of the segment that the call opens, if it opens one. -/
def Call.located? (c : Call) (segmentId : UInt32) (context : ReadContext) : Option SegmentMeta :=
  match c with
  | .init _ g _ _ => (make segmentId context).located? g
  | _ => none

namespace Session

/-- The call forms a sum that is no word. -/
def Overflows (h : Session) : Call → Prop
  | .init fillCache g cache stats => (h.reader.init fillCache g cache stats).result = .error .overflow
  | .seek first last unfiltered g stats =>
    (h.reader.seekToBlock first last unfiltered g stats).1 = .error .overflow
  | .get batch g stats => (h.reader.getBlock batch g stats).1 = .error .overflow

/-- The reader is the one that was made, and its streams are found where the header says. -/
structure Placed (segmentId : UInt32) (context : ReadContext) (h : Session) : Prop where
  segmentId : h.reader.segmentId = segmentId
  context : h.reader.context = context
  reader : h.reader.Placed

variable {segmentId : UInt32} {context : ReadContext} {h : Session} {c : Call} {calls : List Call}

/-- Streams stay where the header says, whether the call overflows or not. -/
theorem placed_call (hh : h.Placed segmentId context) (hreadable : c.group.Readable) :
    (h.call c).Placed segmentId context := by
  cases c with
  | init fillCache g cache stats =>
    obtain ⟨hsegment, hcontext⟩ := init_keeps h.reader fillCache g cache stats
    exact ⟨hsegment.trans hh.segmentId, hcontext.trans hh.context, hh.reader.init hreadable fillCache cache stats⟩
  | seek first last unfiltered g stats =>
    have hsource := seekToBlock_sameSource h.reader first last unfiltered g stats
    exact ⟨hsource.segmentId.trans hh.segmentId, hsource.context.trans hh.context,
      (hh.reader.seekToBlock_inWords first last unfiltered g stats).2⟩
  | get batch g stats =>
    have hsource := getBlock_sameSource h.reader batch g stats
    exact ⟨hsource.segmentId.trans hh.segmentId, hsource.context.trans hh.context, hh.reader.getBlock batch g stats⟩

theorem placed_run (segmentId : UInt32) (context : ReadContext) (hreadable : ∀ c ∈ calls, c.group.Readable) :
    (run segmentId context calls).Placed segmentId context := by
  apply List.foldlRecOn calls Session.call (motive := Placed segmentId context)
  · exact ⟨rfl, rfl, placed_make segmentId context⟩
  · exact fun h hh c hc => placed_call hh (hreadable c hc)

/-- A call overflows exactly if it opens a segment that is not addressable. -/
theorem Placed.call_overflows_iff (hh : h.Placed segmentId context) (hreadable : c.group.Readable) :
    h.Overflows c ↔ ∃ info, c.located? segmentId context = some info ∧ ¬info.Addressable := by
  cases c with
  | init fillCache g cache stats =>
    have hlocated : h.reader.located? g = (make segmentId context).located? g :=
      located?_congr hh.segmentId hh.context g
    rw [Overflows, init_overflows_iff (g := g) hreadable, hlocated]
    rfl
  | seek first last unfiltered g stats =>
    have hseek := (hh.reader.seekToBlock_inWords first last unfiltered g stats).1
    refine iff_of_false (fun hfails => hseek _ hfails rfl) ?_
    rintro ⟨info, hinfo, -⟩
    exact Option.some_ne_none info hinfo.symm
  | get batch g stats =>
    have hget := hh.reader.getBlock_inWords hreadable batch stats
    refine iff_of_false (fun hfails => hget _ hfails rfl) ?_
    rintro ⟨info, hinfo, -⟩
    exact Option.some_ne_none info hinfo.symm

/-- Whatever headers, zone maps and chunks the files hold, whatever is asked for and whatever calls were made before,
failing ones included: a call forms a sum of offsets that is no word exactly if it opens a segment whose streams, those
that are not needed included, do not fit behind its header. -/
theorem overflows_iff (segmentId : UInt32) (context : ReadContext) (calls : List Call) (c : Call)
    (hreadable : ∀ c' ∈ c :: calls, c'.group.Readable) :
    (run segmentId context calls).Overflows c
      ↔ ∃ info, c.located? segmentId context = some info ∧ ¬info.Addressable := by
  obtain ⟨hc, hcalls⟩ := List.forall_mem_cons.mp hreadable
  exact (placed_run segmentId context hcalls).call_overflows_iff hc

/-- The small segment is opened, a seek is made, and then a block is loaded without a sum that overflows. -/
theorem overflows_iff_sample :
    let g := SegmentGroup.single .sample
    let calls := [Call.init true g .empty .zero, .seek 0 1 false g .zero]
    (∀ c' ∈ Call.get sampleBatch g .zero :: calls, c'.group.Readable)
      ∧ ¬(run 0 sampleContext []).Overflows (.init true g .empty .zero)
      ∧ ¬(run 0 sampleContext calls).Overflows (.get sampleBatch g .zero) := by
  intro g calls
  have hg := SegmentGroup.readable_single WrittenSegment.fits_sample
  have hreadable : ∀ c' ∈ Call.get sampleBatch g .zero :: calls, c'.group.Readable :=
    List.forall_mem_cons.mpr ⟨hg, List.forall_mem_cons.mpr ⟨hg, List.forall_mem_singleton.mpr hg⟩⟩
  refine ⟨hreadable, fun hinit => ?_, fun hget => ?_⟩
  · obtain ⟨info, hlocated, hnot⟩ := (overflows_iff 0 sampleContext [] (.init true g .empty .zero)
      (List.forall_mem_singleton.mpr hg)).mp hinit
    exact hnot (addressable_of_hosts (r := make 0 sampleContext) (SegmentGroup.hosts_single .sample)
      WrittenSegment.fits_sample hlocated)
  · obtain ⟨info, hlocated, -⟩ := (overflows_iff 0 sampleContext calls _ hreadable).mp hget
    exact Option.some_ne_none info hlocated.symm

/-- A header of one column, whose streams are listed behind two others that together have as many bytes as there are
words. -/
def wrappingHeader : SegmentHeader :=
  { magic := SegmentHeader.segmentMagic, version := SegmentHeader.currentVersion, rowCount := 1, rowsPerBlock := 2
    compression := 0, bufferSize := 64, bloomHashes := 0, bloomBits := 0, nullSupported := false
    columns := [⟨10, .int32, false, .plain⟩]
    streams := [⟨99, .data, 0x8000000000000000⟩, ⟨99, .data, 0x8000000000000000⟩, ⟨10, .rowIndex, 41⟩,
      ⟨10, .data, 13⟩] }

/-- The streams of that column: a zone map of one block, and the one value. -/
def wrappingStreams : Bytes :=
  encodeChunk false (ZoneMap.encode [⟨[0, 0], ⟨.int32 7, .int32 7, false⟩⟩]) ++ encodeChunk false (Value.int32 7).plain

/-- A group with a segment of that header and these streams. -/
def wrappingGroup : SegmentGroup :=
  ⟨"group", ⟨[⟨10, "key", .int32, false, false, .none, none⟩]⟩, 0, 1024,
    ⟨[(0, 0)], #[⟨(wrappingHeader.encode ++ wrappingStreams).toArray⟩]⟩, [], .standard⟩

/-- A scan of the column of that segment. -/
def wrappingContext : ReadContext := ⟨[0], [], none, none, .unknown, false, .default⟩

/-- The header of that segment and its length. -/
def wrappingMeta : SegmentMeta := ⟨wrappingHeader, UInt64.ofNat wrappingHeader.encode.length⟩

theorem readFrom_wrapping (backend : Backend) :
    SegmentHeader.readFrom ⟨backend, wrappingGroup.files.content 0⟩
      = .ok (wrappingHeader, wrappingMeta.headerLength) := by
  have hfile : (⟨backend, wrappingGroup.files.content 0⟩ : SegmentFile).toList
      = wrappingHeader.encode ++ wrappingStreams := rfl
  exact SegmentHeader.readFrom_encode hfile (by decide +kernel)

theorem located?_wrapping : (make 0 wrappingContext).located? wrappingGroup = some wrappingMeta := by
  have hread := readFrom_wrapping wrappingContext.options.backend
  have hmeta : wrappingGroup.segmentMeta 0 ⟨wrappingContext.options.backend, wrappingGroup.files.content 0⟩
      = .ok (wrappingMeta, { wrappingGroup with metas := [(0, wrappingMeta)] }) := by
    show (SegmentHeader.readFrom _ >>= fun m =>
      (return (⟨m.1, m.2⟩, { wrappingGroup with metas := [(0, ⟨m.1, m.2⟩)] })
        : Except StorageError (SegmentMeta × SegmentGroup))) = _
    rw [hread]
    rfl
  exact located?_eq_some.mpr ⟨_, _, _, _, rfl, hmeta, rfl⟩

/-- The header of that segment is accepted, and initialising a reader overflows, although neither of the long streams is
needed. -/
theorem overflows_wrapping :
    wrappingGroup.Readable
      ∧ SegmentHeader.readFrom ⟨.memory, wrappingGroup.files.content 0⟩
        = .ok (wrappingHeader, wrappingMeta.headerLength)
      ∧ (run 0 wrappingContext []).Overflows (.init false wrappingGroup .empty .zero) := by
  have hreadable : wrappingGroup.Readable := by
    refine ⟨List.forall_mem_nil _, fun id => ?_⟩
    cases id with
    | zero =>
      show (wrappingHeader.encode ++ wrappingStreams).length < 2 ^ 63
      decide +kernel
    | succ id => exact Nat.two_pow_pos 63
  have hlong : StreamInfo.totalLength wrappingMeta.header.streams = 2 ^ 64 + 54 := by decide
  have hnot : ¬wrappingMeta.Addressable := by
    rw [SegmentMeta.Addressable, hlong]
    omega
  have hinit : ((make 0 wrappingContext).init false wrappingGroup .empty .zero).result = .error .overflow :=
    (init_overflows_iff hreadable false .empty .zero).mpr ⟨wrappingMeta, located?_wrapping, hnot⟩
  exact ⟨hreadable, readFrom_wrapping .memory, hinit⟩

end Session

end SegmentReader

end SegmentStore
