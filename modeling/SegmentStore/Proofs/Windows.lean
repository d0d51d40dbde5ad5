import SegmentStore.Proofs.Tracking

/-!
# Which rows a call loads

A call that loads a block gives the rows behind the marks of its columns. These are the rows of the block if
the columns stand at its start, which one block number and one flag for all columns do not ensure.

* `Session.loadedBlock?_eq_some_iff` says which block a call loads, if any.
* `Session.getBlock_rows_iff` says which rows a call gives, and when these are the rows of its block.
* `InStep` is the invariant of a reader that is always asked for the same columns. From it,
  `Session.getBlock_shows_of_shared` says that such a reader gives the rows of each block.
-/

namespace SegmentStore

/-! ### The rows of a block -/

namespace WrittenSegment

variable {s : WrittenSegment} {block k : Nat}

theorem take_rowsFrom (hblock : block < s.blocks.length) (hk : k ≤ (s.block block).length) :
    block * s.options.rowsPerBlock.toNat + k ≤ s.rows.length
      ∧ (s.rows.drop (block * s.options.rowsPerBlock.toNat)).take k = (s.block block).take k := by
  have hrows := rowsFrom_eq_drop hblock
  rw [rowsFrom_eq hblock, ← block_eq hblock] at hrows
  have hlength := congrArg List.length hrows
  rw [List.length_append, List.length_drop] at hlength
  have hpos := List.length_pos_iff.mpr (block_ne_nil (List.getElem_mem hblock))
  rw [← block_eq hblock] at hpos
  refine ⟨by omega, ?_⟩
  rw [← hrows, List.take_append_of_le_length hk]

/-- The first rows of a block are those from its first row on. -/
theorem values_block (hblock : block < s.blocks.length) (hk : k ≤ (s.block block).length)
    (cid : ColumnId) :
    s.values cid (block * s.options.rowsPerBlock.toNat) k
      = ((s.block block).take k).map fun row => s.cell row cid := by
  obtain ⟨hrows, htake⟩ := take_rowsFrom hblock hk
  rw [values_eq fun _ => hrows, htake]

theorem stops_eq_false {cid : ColumnId} {p : Nat} (hrows : p + k ≤ s.rows.length)
    (hdefault : cid ∉ s.cids → ∀ c, s.schema.column? cid = some c → c.type.accepts c.default = true) :
    s.stops cid p k = false := by
  by_cases hstored : cid ∈ s.cids
  · simp only [stops, hstored, if_true, decide_eq_false (Nat.not_lt.mpr hrows), Bool.and_false]
  · cases hc : s.schema.column? cid with
    | none => simp [stops, hstored, hc]
    | some c => simp [stops, hstored, hc, hdefault hstored c hc]

end WrittenSegment

/-- The vectors of a batch hold the first rows of a block. -/
def RowBatch.Shows (batch : RowBatch) (s : WrittenSegment) (block : Nat) : Prop :=
  ∀ c ∈ batch.columns, c.vector.toList = ((s.block block).take batch.size).map fun row => s.cell row c.id

/-- The rows that are read into a batch have the values that the first `k` rows of a block have. -/
def Marks.Aligned (m : Marks) (s : WrittenSegment) (ids : List ColumnId) (k block : Nat) : Prop :=
  ∀ (i : Nat) (cid : ColumnId), ids[i]? = some cid →
    s.values cid (m.row k ids i cid) k = s.values cid (block * s.options.rowsPerBlock.toNat) k

/-- Distinct columns that stand at a block are aligned with it. -/
theorem Marks.aligned_of_nodup {m : Marks} {s : WrittenSegment} {ids : List ColumnId} {k block : Nat}
    (hnodup : ids.Nodup) (hm : ∀ cid ∈ ids, m cid = block * s.options.rowsPerBlock.toNat) :
    m.Aligned s ids k block := by
  intro i cid hcid
  have hmem : cid ∈ ids.drop i := by
    rw [List.mem_iff_getElem?]
    exact ⟨0, by rw [List.getElem?_drop, Nat.add_zero, hcid]⟩
  have hfirst : cid ∉ ids.take i := fun h => List.disjoint_take_drop hnodup (Nat.le_refl i) h hmem
  rw [row, List.count_eq_zero.mpr hfirst, Nat.mul_zero, Nat.add_zero, hm cid (List.mem_of_getElem? hcid)]

namespace SegmentReader

variable {s : WrittenSegment} {r : SegmentReader} {g : SegmentGroup} {file : FileId}
variable {m : Marks} {segmentId : UInt32} {context : ReadContext} {batch : RowBatch}
variable {stats : ScanStatistics} {b : Nat}

/-- A batch that was read from the marks shows a block if the marks are aligned with it, and only then. -/
theorem ReadFrom.shows_iff {cs : List BatchColumn} {batch : RowBatch} {block : Nat}
    (h : ReadFrom s m batch.size cs batch.columns) (hblock : block < s.blocks.length)
    (hsize : batch.size ≤ (s.block block).length) :
    batch.Shows s block ↔ m.Aligned s (cs.map (·.id)) batch.size block := by
  constructor
  · intro hshows i cid hcid
    rw [← h.ids, List.getElem?_map, Option.map_eq_some_iff] at hcid
    obtain ⟨c, hc, rfl⟩ := hcid
    rw [← h.values i c hc, WrittenSegment.values_block hblock hsize]
    exact hshows c (List.mem_of_getElem? hc)
  · intro haligned c hc
    obtain ⟨i, hi⟩ := List.mem_iff_getElem?.mp hc
    have hcid : (cs.map (·.id))[i]? = some c.id := by rw [← h.ids, List.getElem?_map, hi, Option.map_some]
    rw [h.values i c hi, haligned i c.id hcid, WrittenSegment.values_block hblock hsize]

namespace Session

variable {h : Session}

/-- A block is loaded by a call that is to load one, if no column fails. -/
theorem loadedBlock?_eq_some_iff (hr : h.reader.Tracked s segmentId context file m) (hfits : s.Fits)
    (hcall : (Call.get batch g stats).Fits s segmentId context file) :
    h.loadedBlock? batch g stats = some b ↔ h.reader.Loading ∧ h.reader.cursor.next = b
      ∧ reads s (h.reader.rowsWanted s batch) batch.columnIds
          (h.reader.positioned s batch.columnIds m) = true := by
  rw [loadedBlock?]
  by_cases hloading : h.reader.Loading
  · obtain ⟨t', -, hget⟩ := getBlock_marked hr hfits hcall hloading
    split at hget
    · rename_i hreads
      obtain ⟨cs, status, stats', r', -, hget, hcounted, -⟩ := hget
      rw [hget, if_neg (by rw [hcounted]; exact Nat.succ_ne_self _), Option.some.injEq]
      exact ⟨fun hnext => ⟨hloading, hnext, hreads⟩, fun hall => hall.2.1⟩
    · rename_i hfails
      obtain ⟨e, batch', stats', hget, hcounted⟩ := hget
      rw [hget, if_pos hcounted]
      exact iff_of_false (Option.some_ne_none b).symm fun hall => hfails hall.2.2
  · obtain ⟨result, hget⟩ := getBlock_idle hloading batch g stats
    rw [hget, if_pos rfl]
    exact iff_of_false (Option.some_ne_none b).symm fun hall => hloading hall.1

/-- A block that is loaded exists, and the batch is read from the marks. -/
theorem getBlock_readFrom (hr : h.reader.Tracked s segmentId context file m) (hfits : s.Fits)
    (hcall : (Call.get batch g stats).Fits s segmentId context file)
    (hloaded : h.loadedBlock? batch g stats = some b) :
    b < s.blocks.length ∧ ∃ p r' batch' stats',
      h.reader.getBlock batch g stats = (.ok p, r', batch', stats')
      ∧ batch'.size = min batch.capacity (s.block b).length
      ∧ ReadFrom s (h.reader.positioned s batch.columnIds m) batch'.size batch.columns batch'.columns := by
  obtain ⟨hloading, rfl, hreads⟩ := (loadedBlock?_eq_some_iff hr hfits hcall).mp hloaded
  obtain ⟨t', -, hget⟩ := getBlock_marked hr hfits hcall hloading
  rw [if_pos hreads] at hget
  obtain ⟨cs, status, stats', r', -, hget, -, hvectors⟩ := hget
  exact ⟨hr.next_lt hloading, r'.cursor.position, r', _, stats', hget, rfl, hvectors⟩

end Session

/-! ### Always the same columns -/

/-- Unless they have to be led to a block, the columns stand where the cursor says. -/
def InStep (r : SegmentReader) (s : WrittenSegment) (ids : List ColumnId) (m : Marks) : Prop :=
  r.readers? ≠ none → r.cursor.needsSeek = false →
    ∀ cid ∈ ids, m cid = r.cursor.current * s.options.rowsPerBlock.toNat

variable {ids : List ColumnId}

/-- Columns in step are at the next block when they are read. -/
theorem InStep.positioned_eq (hr : r.InStep s ids m) (hmade : r.readers? ≠ none) {cid : ColumnId}
    (hcid : cid ∈ ids) :
    r.positioned s ids m cid = r.cursor.next * s.options.rowsPerBlock.toNat := by
  rw [positioned]
  split
  · rw [ledTo, if_pos hcid]
  · rename_i hstay
    rw [Bool.or_eq_true, not_or, decide_eq_true_iff, not_not, Bool.not_eq_true] at hstay
    rw [hr hmade hstay.1 cid hcid, hstay.2]

/-- A column that is not read stays where it is. -/
theorem readOn_of_notMem {k : Nat} {cid : ColumnId} (hcid : cid ∉ ids) (m : Marks) :
    readOn s k ids m cid = m cid := by
  induction ids generalizing m with
  | nil => rfl
  | cons a ids ih =>
    rw [List.mem_cons, not_or] at hcid
    rw [readOn]
    split
    · rw [Function.update_of_ne hcid.1]
    · rw [ih hcid.2, Function.update_of_ne hcid.1]

/-- Distinct columns that have `k` rows ahead are read without failure, and stand behind these rows then. -/
theorem reads_of_nodup {p k : Nat} (hnodup : ids.Nodup) (hdefaults : AcceptsDefaults s ids)
    (hm : ∀ cid ∈ ids, m cid = p) (hrows : p + k ≤ s.rows.length) :
    reads s k ids m = true ∧ ∀ cid ∈ ids, readOn s k ids m cid = p + k := by
  induction ids generalizing m with
  | nil => exact ⟨rfl, List.forall_mem_nil _⟩
  | cons a ids ih =>
    obtain ⟨ha, hnodup⟩ := List.nodup_cons.mp hnodup
    obtain ⟨hma, hm⟩ := List.forall_mem_cons.mp hm
    obtain ⟨hdefault, hdefaults⟩ := List.forall_mem_cons.mp hdefaults
    have hstops : s.stops a (m a) k = false := WrittenSegment.stops_eq_false (by rwa [hma]) hdefault
    have hothers : ∀ cid ∈ ids, Function.update m a (m a + k) cid = p := by
      intro cid hcid
      have hne : cid ≠ a := by
        rintro rfl
        exact ha hcid
      rw [Function.update_of_ne hne]
      exact hm cid hcid
    obtain ⟨hreads, hbehind⟩ := ih hnodup hdefaults hothers
    rw [reads, readOn, hstops, Bool.not_false, Bool.true_and, if_neg (by decide)]
    refine ⟨hreads, List.forall_mem_cons.mpr ⟨?_, hbehind⟩⟩
    rw [readOn_of_notMem ha, Function.update_self, hma]

/-- Every batch of the call has the columns `ids`. -/
def Call.AsksFor (ids : List ColumnId) : Call → Prop
  | .init .. => True
  | .seek .. => True
  | .get batch _ _ => batch.columnIds = ids

theorem InStep.of_none (hnone : r.readers? = none) : r.InStep s ids m := fun hmade => absurd hnone hmade

/-- After a seek the columns have to be positioned, or it has changed nothing. -/
theorem inStep_seek {q : Seek} (hstep : q.reader.InStep s ids m) : q.outcome.2.1.InStep s ids m := by
  rcases q.outcome_cases with ⟨hsame, -⟩ | ⟨o, r, -, -, -, houtcome⟩
  · rwa [hsame]
  · obtain ⟨result, stats', blocks?, cursor, hseek, -, hneeds⟩ :=
      seekRange_keeps r o q.first q.last q.unfiltered q.group q.stats
    rw [houtcome, hseek]
    intro _ hstay
    exact absurd (hneeds.symm.trans hstay) (by decide)

/-- Columns that are all read a block far are behind it together. -/
theorem inStep_getBlock (hr : r.Tracked s segmentId context file m) (hfits : s.Fits)
    (hstep : r.InStep s ids m) (hnodup : ids.Nodup) (hdefaults : AcceptsDefaults s ids)
    (hcall : (Call.get batch g stats).Fits s segmentId context file) (hbatch : batch.columnIds = ids) :
    (r.getBlock batch g stats).2.1.InStep s ids (marksAfter s r m (.get batch g stats)) := by
  subst hbatch
  by_cases hloading : r.Loading
  · have hnext := hr.next_lt hloading
    have hwanted : r.rowsWanted s batch ≤ (s.block r.cursor.next).length := Nat.min_le_right _ _
    have hpositioned : ∀ cid ∈ batch.columnIds, r.positioned s batch.columnIds m cid
        = r.cursor.next * s.options.rowsPerBlock.toNat := fun cid hcid =>
      hstep.positioned_eq hloading.2 hcid
    obtain ⟨hreads, hbehind⟩ := reads_of_nodup hnodup hdefaults hpositioned
      (WrittenSegment.take_rowsFrom hnext hwanted).1
    obtain ⟨t', -, hget⟩ := getBlock_marked hr hfits hcall hloading
    rw [if_pos hreads] at hget
    obtain ⟨cs, status, stats', r', hr', hget, -⟩ := hget
    obtain ⟨n, hadvance, -, -⟩ :=
      exists_advance (r.afterLoad s t' (r.rowsWanted s batch)) (r.cursor.next + 1)
    rw [hget, hr', hadvance, marksAfter, if_pos hloading]
    intro _ hstay cid hcid
    rw [hbehind cid hcid]
    -- the columns are not to be positioned again only if the whole block was read
    by_cases hfull : r.rowsWanted s batch = s.options.rowsPerBlock.toNat
    · show _ = (r.cursorAfter s (r.rowsWanted s batch)).current * s.options.rowsPerBlock.toNat
      rw [cursorAfter, if_pos hfull, hfull, Nat.succ_mul]
    · change (r.cursorAfter s (r.rowsWanted s batch)).needsSeek = false at hstay
      rw [cursorAfter, if_neg hfull] at hstay
      cases hstay
  · obtain ⟨result, hget⟩ := getBlock_idle hloading batch g stats
    rw [hget, marksAfter, if_neg hloading]
    exact hstep

/-- Calls that ask for the same columns keep them in step. -/
theorem inStep_call {h : Session} (hr : h.reader.Tracked s segmentId context file m) (hfits : s.Fits)
    (hstep : h.reader.InStep s ids m) (hnodup : ids.Nodup) (hdefaults : AcceptsDefaults s ids) {c : Call}
    (hcall : c.Fits s segmentId context file) (hasks : c.AsksFor ids) :
    (h.call c).reader.InStep s ids (marksAfter s h.reader m c) := by
  cases c with
  | init fillCache g cache stats =>
    rcases init_cases h.reader fillCache g cache stats with ⟨⟨e, hresult⟩, hsame⟩ | ⟨-, hnone⟩
    · rw [Session.call, hsame, marksAfter, hresult]
      exact hstep
    · exact .of_none hnone
  | seek first last unfiltered g stats => exact inStep_seek hstep
  | get batch g stats => exact inStep_getBlock hr hfits hstep hnodup hdefaults hcall hasks

namespace Session

theorem inStep_run (hfits : s.Fits) (hlossless : s.Lossless) (hnodup : ids.Nodup)
    (hdefaults : AcceptsDefaults s ids) {calls : List Call}
    (hcalls : ∀ c ∈ calls, c.Fits s segmentId context file) (hasks : ∀ c ∈ calls, c.AsksFor ids) :
    (run segmentId context calls).reader.InStep s ids (marksOfRun s segmentId context calls) := by
  have hrun : ∀ (h : Session) (m : Marks), h.reader.Tracked s segmentId context file m →
      h.reader.InStep s ids m → (calls.foldl call h).reader.InStep s ids (marks s h m calls) := by
    induction calls with
    | nil => exact fun h m _ hstep => hstep
    | cons c calls ih =>
      obtain ⟨hcall, hcalls⟩ := List.forall_mem_cons.mp hcalls
      obtain ⟨hask, hasks⟩ := List.forall_mem_cons.mp hasks
      intro h m hr hstep
      exact ih hcalls hasks (h.call c) _ (tracked_call hr hfits hlossless hcall)
        (inStep_call hr hfits hstep hnodup hdefaults hcall hask)
  exact hrun ⟨make segmentId context, none⟩ _ tracked_make (.of_none rfl)

/-- A reader that is always asked for the same distinct columns gives the first rows of each block that it
loads, wherever it is sent and however few rows are wanted. -/
theorem getBlock_shows_of_shared (hfits : s.Fits) (hlossless : s.Lossless) (hnodup : ids.Nodup)
    (hdefaults : AcceptsDefaults s ids) {calls : List Call}
    (hcalls : ∀ c ∈ calls, c.Fits s segmentId context file) (hasks : ∀ c ∈ calls, c.AsksFor ids)
    (hcall : (Call.get batch g stats).Fits s segmentId context file) (hbatch : batch.columnIds = ids)
    (hloaded : (run segmentId context calls).loadedBlock? batch g stats = some b) :
    ∃ p r' batch' stats',
      (run segmentId context calls).reader.getBlock batch g stats = (.ok p, r', batch', stats')
      ∧ batch'.columnIds = ids ∧ batch'.size = min batch.capacity (s.block b).length
      ∧ batch'.Shows s b := by
  subst hbatch
  have hr := tracked_run hfits hlossless hcalls
  have hstep := inStep_run hfits hlossless hnodup hdefaults hcalls hasks
  obtain ⟨hloading, hnext, -⟩ := (loadedBlock?_eq_some_iff hr hfits hcall).mp hloaded
  obtain ⟨hb, p, r', batch', stats', hget, hsize, hvectors⟩ := getBlock_readFrom hr hfits hcall hloaded
  refine ⟨p, r', batch', stats', hget, hvectors.ids, hsize, ?_⟩
  refine (hvectors.shows_iff hb (hsize ▸ Nat.min_le_right _ _)).mpr ?_
  refine Marks.aligned_of_nodup hnodup fun cid hcid => ?_
  rw [hstep.positioned_eq hloading.2 hcid, hnext]

end Session

/-! ### Whatever columns -/

/-- Once a whole block was read, the columns are said to stand at the next one, whichever they are. -/
theorem reader_after_block {o : OpenSegment} {block : Nat} (hr : r.Tracked s segmentId context file m)
    (hbetween : r.Between g s file o ids block) (hfits : s.Fits)
    (hcall : (Call.get batch g stats).Fits s segmentId context file)
    (hreads : reads s (r.rowsWanted s batch) batch.columnIds (r.positioned s batch.columnIds m) = true)
    (hwhole : r.rowsWanted s batch = s.options.rowsPerBlock.toNat) (hnext : block + 1 < s.blocks.length) :
    (r.getBlock batch g stats).2.1.Loading ∧ (r.getBlock batch g stats).2.1.cursor.next = block + 1
      ∧ ∀ ids m, (r.getBlock batch g stats).2.1.positioned s ids m = m := by
  have hlast := hbetween.last
  have heof : r.cursor.eof = false := by
    rw [hbetween.eof]
    exact decide_eq_false (by omega)
  obtain ⟨t, hreaders, -, -⟩ := hbetween.readers
  have hloading : r.Loading := ⟨heof, fun hnone => Option.some_ne_none t (hreaders.symm.trans hnone)⟩
  obtain ⟨t', -, hget⟩ := getBlock_marked hr hfits hcall hloading
  rw [if_pos hreads] at hget
  obtain ⟨cs, status, stats', r', rfl, hget, -⟩ := hget
  have hincluded : ∀ map, (r.afterLoad s t' (r.rowsWanted s batch)).blocks? = some map →
      ∀ c ≤ (r.afterLoad s t' (r.rowsWanted s batch)).cursor.last, map.get c ≠ .excluded := by
    intro map hmap c hc
    rw [afterLoad, (next_cursorAfter r s _).2] at hc
    exact hbetween.included map hmap c (by omega)
  rw [hget, advance_eq hincluded, afterLoad, cursorAfter, if_pos hwhole, hbetween.next]
  refine ⟨⟨?_, Option.some_ne_none t'⟩, rfl, fun ids m => ?_⟩
  · show (r.cursor.eof || decide (r.cursor.last < block + 1)) = false
    rw [heof, decide_eq_false (by omega), Bool.or_false]
  · rw [positioned, if_neg (by simp)]

namespace Session

/-- Whatever calls were made, a call that loads a block gives the rows behind the marks of its columns. They
are the first rows of the block exactly if the marks are aligned with it. -/
theorem getBlock_rows_iff (s : WrittenSegment) (hfits : s.Fits) (hlossless : s.Lossless)
    {segmentId : UInt32} {context : ReadContext} {file : FileId} (calls : List Call)
    (hcalls : ∀ c ∈ calls, c.Fits s segmentId context file) {batch : RowBatch} {g : SegmentGroup}
    {stats : ScanStatistics} (hcall : (Call.get batch g stats).Fits s segmentId context file) {b : Nat}
    (hloaded : (run segmentId context calls).loadedBlock? batch g stats = some b) :
    let m := (run segmentId context calls).reader.positioned s batch.columnIds
      (marksOfRun s segmentId context calls)
    ∃ p r' batch' stats',
      (run segmentId context calls).reader.getBlock batch g stats = (.ok p, r', batch', stats')
      ∧ batch'.columnIds = batch.columnIds ∧ batch'.size = min batch.capacity (s.block b).length
      ∧ (∀ (i : Nat) (c : BatchColumn), batch'.columns[i]? = some c →
          c.vector.toList = s.values c.id (m.row batch'.size batch.columnIds i c.id) batch'.size)
      ∧ (batch'.Shows s b ↔ m.Aligned s batch.columnIds batch'.size b) := by
  intro m
  have hr := tracked_run hfits hlossless hcalls
  obtain ⟨hb, p, r', batch', stats', hget, hsize, hvectors⟩ := getBlock_readFrom hr hfits hcall hloaded
  exact ⟨p, r', batch', stats', hget, hvectors.ids, hsize, hvectors.values,
    hvectors.shows_iff hb (hsize ▸ Nat.min_le_right _ _)⟩

/-! ### The small segment, column by column -/

/-- The small segment, right after it was opened. -/
def sampleOpened : InitResult := (make 0 sampleContext).init true (.single .sample) .empty .zero

/-- The small segment is opened, and all its blocks are asked for. -/
def sampleCalls : List Call :=
  [.init true (.single .sample) .empty .zero,
    .seek 0 7 false sampleOpened.group sampleOpened.stats]

/-- The values of the small segment. -/
def valuesBatch : RowBatch := ⟨[⟨1, .float64, .empty .float64⟩], 2, 0, .needsRowFilter⟩

/-- The keys of the small segment. -/
def keysBatch : RowBatch := ⟨[⟨0, .int32, .empty .int32⟩], 2, 0, .needsRowFilter⟩

theorem fits_init_sample :
    (Call.init true (.single .sample) .empty .zero).Fits .sample 0 sampleContext 0 :=
  ⟨SegmentGroup.hosts_single .sample, fun hcached => absurd hcached Bool.false_ne_true⟩

theorem hosts_sampleOpened : sampleOpened.group.Hosts 0 .sample 0 := by
  obtain ⟨o, hopened, -⟩ := opened_sample
  have htracked := tracked_init tracked_make WrittenSegment.fits_sample WrittenSegment.lossless_sample
    fits_init_sample
  rw [← htracked.segmentId_eq]
  exact hopened.hosts

theorem fits_sampleCalls : ∀ c ∈ sampleCalls, c.Fits .sample 0 sampleContext 0 :=
  List.forall_mem_cons.mpr ⟨fits_init_sample, List.forall_mem_singleton.mpr hosts_sampleOpened⟩

/-- The seek is answered, and the first block is next. -/
theorem between_sampleCalls (ids : List ColumnId) :
    (∃ o, (run 0 sampleContext sampleCalls).reader.Between sampleOpened.group .sample 0 o ids 0)
      ∧ ∃ q, (run 0 sampleContext sampleCalls).seek? = some q ∧ q.Succeeds := by
  obtain ⟨o, hopened, hcontext⟩ := opened_sample
  obtain ⟨r, stats, hseek, -, hstart⟩ := seekToBlock_all hopened WrittenSegment.fits_sample
    WrittenSegment.lossless_sample (by rw [hcontext]; rfl) (by rw [hcontext]; rfl) 7 (by decide +kernel)
    false ids _
  obtain ⟨hreader, q, hsent, -, -, hsucceeds⟩ := run_init_seek hseek
  refine ⟨⟨o, ?_⟩, q, hsent, hsucceeds.mpr ⟨_, rfl⟩⟩
  rw [show (run 0 sampleContext sampleCalls).reader = r from hreader]
  exact hstart.resolve_left fun h => absurd h.1 (by decide +kernel)

theorem marksAfter_init_zero (r : SegmentReader) (fillCache : Bool) (g : SegmentGroup) (cache : IndexCache)
    (stats : ScanStatistics) :
    marksAfter s r (fun _ => 0) (.init fillCache g cache stats) = fun _ => 0 := by
  rw [marksAfter]
  cases (r.init fillCache g cache stats).result <;> rfl

theorem marksOfRun_sampleCalls :
    marksOfRun WrittenSegment.sample 0 sampleContext sampleCalls = fun _ => 0 := by
  rw [marksOfRun, sampleCalls, marks, marksAfter_init_zero]
  rfl

/-- No column of a reader that starts at the first block is anywhere else. -/
theorem positioned_zero (hnext : r.cursor.next = 0) (ids : List ColumnId) :
    r.positioned s ids (fun _ => 0) = fun _ => 0 := by
  funext cid
  rw [positioned, hnext]
  split
  · rw [ledTo, Nat.zero_mul, ite_self]
  · rfl

theorem getBlock_rows_iff_sample :
    let h := run 0 sampleContext sampleCalls
    (∀ c ∈ sampleCalls, c.Fits .sample 0 sampleContext 0)
      ∧ h.loadedBlock? sampleBatch sampleOpened.group .zero = some 0
      ∧ ∃ p r batch stats, h.reader.getBlock sampleBatch sampleOpened.group .zero = (.ok p, r, batch, stats)
      ∧ batch.columnIds = [1, 0] ∧ batch.size = 2 ∧ batch.Shows .sample 0 := by
  obtain ⟨⟨o, hbetween⟩, -⟩ := between_sampleCalls [1, 0]
  have hcontext := (tracked_run WrittenSegment.fits_sample WrittenSegment.lossless_sample
    fits_sampleCalls).context_eq
  have hloaded := loadedBlock?_sampleBatch rfl hcontext hbetween .zero
  have htyped : Typed WrittenSegment.sample sampleBatch.columns := by
    simp only [sampleBatch, Typed, List.forall_mem_cons]
    exact ⟨⟨_, rfl, rfl⟩, ⟨_, rfl, rfl⟩, List.forall_mem_nil _⟩
  have hcall : (Call.get sampleBatch sampleOpened.group .zero).Fits .sample 0 sampleContext 0 :=
    ⟨hosts_sampleOpened, htyped, by decide⟩
  obtain ⟨p, r, batch, stats, hget, hcids, hsize, -, hshows⟩ := getBlock_rows_iff .sample
    WrittenSegment.fits_sample WrittenSegment.lossless_sample sampleCalls fits_sampleCalls hcall hloaded
  have hblock : (WrittenSegment.sample.block 0).length = 2 := by decide +kernel
  refine ⟨fits_sampleCalls, hloaded, p, r, batch, stats, hget, hcids, by rw [hsize, hblock]; rfl,
    hshows.mpr ?_⟩
  rw [marksOfRun_sampleCalls, positioned_zero hbetween.next]
  exact Marks.aligned_of_nodup (by decide) fun cid _ => rfl

theorem seek?_call_get (h : Session) (batch : RowBatch) (g : SegmentGroup) (stats : ScanStatistics) :
    (h.call (.get batch g stats)).seek? = h.seek? :=
  rfl

theorem reader_call_get (h : Session) (batch : RowBatch) (g : SegmentGroup) (stats : ScanStatistics) :
    (h.call (.get batch g stats)).reader = (h.reader.getBlock batch g stats).2.1 :=
  rfl

/-- The first block was read, into the values alone. -/
def afterValues : Session := (run 0 sampleContext sampleCalls).call (.get valuesBatch sampleOpened.group .zero)

/-- The second block is next then, the columns are said to stand there, and the keys still stand before the
first row. -/
theorem tracked_afterValues :
    ∃ m, afterValues.reader.Tracked .sample 0 sampleContext 0 m ∧ m 0 = 0 ∧ afterValues.reader.Loading
      ∧ afterValues.reader.cursor.next = 1
      ∧ ∀ ids, afterValues.reader.positioned .sample ids m = m := by
  have htracked := tracked_run WrittenSegment.fits_sample WrittenSegment.lossless_sample fits_sampleCalls
  rw [marksOfRun_sampleCalls] at htracked
  obtain ⟨⟨o, hbetween⟩, -⟩ := between_sampleCalls [1]
  have hpositioned := positioned_zero (s := .sample) hbetween.next [1]
  have hcall : (Call.get valuesBatch sampleOpened.group .zero).Fits .sample 0 sampleContext 0 :=
    ⟨hosts_sampleOpened, List.forall_mem_singleton.mpr ⟨_, rfl, rfl⟩, by decide⟩
  have hwanted : (run 0 sampleContext sampleCalls).reader.rowsWanted .sample valuesBatch
      = WrittenSegment.sample.options.rowsPerBlock.toNat := by
    rw [rowsWanted, hbetween.next]
    decide +kernel
  have hreads : reads WrittenSegment.sample WrittenSegment.sample.options.rowsPerBlock.toNat [1]
      (fun _ => 0) = true := by decide +kernel
  have hblocks : 0 + 1 < WrittenSegment.sample.blocks.length := by decide +kernel
  rw [← hwanted, ← hpositioned] at hreads
  obtain ⟨hloading, hnext, hstay⟩ :=
    reader_after_block htracked hbetween WrittenSegment.fits_sample hcall hreads hwanted hblocks
  have hreader : afterValues.reader = ((run 0 sampleContext sampleCalls).reader.getBlock valuesBatch
      sampleOpened.group .zero).2.1 := by rw [afterValues, reader_call_get]
  rw [hreader]
  refine ⟨_, tracked_getBlock htracked WrittenSegment.fits_sample hcall, ?_, hloading, hnext,
    fun ids => hstay ids _⟩
  rw [marksAfter]
  split
  · rw [readOn_of_notMem (by decide)]
    exact congrFun hpositioned 0
  · rfl

/-- The first block is read into the values, and then the second one into the keys. This gives the key of the
first row, not that of the third. -/
theorem getBlock_misses_block :
    (∃ q, afterValues.seek? = some q ∧ q.Succeeds)
      ∧ afterValues.loadedBlock? keysBatch sampleOpened.group .zero = some 1
      ∧ ∃ p r batch stats,
          afterValues.reader.getBlock keysBatch sampleOpened.group .zero = (.ok p, r, batch, stats)
      ∧ batch.columns.map (·.vector.toList) = [[.int32 7]]
      ∧ (WrittenSegment.sample.block 1).map (fun row => WrittenSegment.sample.cell row 0) = [.int32 3]
      ∧ ¬batch.Shows .sample 1 := by
  obtain ⟨m, htracked, hmark, hloading, hnext, hpositioned⟩ := tracked_afterValues
  have hcall : (Call.get keysBatch sampleOpened.group .zero).Fits .sample 0 sampleContext 0 :=
    ⟨hosts_sampleOpened, List.forall_mem_singleton.mpr ⟨_, rfl, rfl⟩, by decide⟩
  have hblock : (WrittenSegment.sample.block 1).length = 1 := by decide +kernel
  have hreads : reads WrittenSegment.sample 1 [0] m = true := by
    have hfits : 0 + 1 ≤ WrittenSegment.sample.rows.length := by decide
    have hstored : AcceptsDefaults WrittenSegment.sample [0] :=
      List.forall_mem_singleton.mpr fun habsent => absurd (by decide) habsent
    exact (reads_of_nodup (by decide) hstored (List.forall_mem_singleton.mpr hmark) hfits).1
  have hloaded : afterValues.loadedBlock? keysBatch sampleOpened.group .zero = some 1 := by
    refine (loadedBlock?_eq_some_iff htracked WrittenSegment.fits_sample hcall).mpr ⟨hloading, hnext, ?_⟩
    rw [hpositioned, rowsWanted, hnext, hblock]
    exact hreads
  obtain ⟨-, p, r, batch, stats, hget, hsize, hvectors⟩ :=
    getBlock_readFrom htracked WrittenSegment.fits_sample hcall hloaded
  rw [hblock] at hsize
  have hcell : (WrittenSegment.sample.block 1).map (fun row => WrittenSegment.sample.cell row 0)
      = [.int32 3] := by decide +kernel
  obtain ⟨c, hc, hcid⟩ := List.map_eq_singleton_iff.mp hvectors.ids
  have hvector : c.vector.toList = [.int32 7] := by
    rw [hvectors.values 0 c (by rw [hc]; rfl), hpositioned, hsize, hcid, Marks.row, hmark, List.take_zero,
      List.count_nil, Nat.mul_zero]
    decide +kernel
  have hsought : ∃ q, afterValues.seek? = some q ∧ q.Succeeds := by
    rw [afterValues, seek?_call_get]
    exact (between_sampleCalls [1]).2
  refine ⟨hsought, hloaded, p, r, batch, stats, hget, by rw [hc, List.map_singleton, hvector], hcell,
    fun hshows => ?_⟩
  have hshown := hshows c (by rw [hc]; exact List.mem_singleton_self c)
  rw [hvector, hsize, hcid, List.take_of_length_le (by rw [hblock]; decide), hcell] at hshown
  exact absurd hshown (by decide)

end Session

end SegmentReader

end SegmentStore
