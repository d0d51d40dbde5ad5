import SegmentStore.Proofs.Unused

/-!
# After a call for a column that is not used

A call for a column that is not used fails with the columns before it read already, and they are not led back.

* `SegmentReader.marksThrough` follows the marks also through calls that fail so, `Session.tracked_through` is the run.
* `Session.shows_iff` says when a call gives its block, `Session.retried_iff` when it still does so after a call that
  failed. `Session.getBlock_retried_iff` says when nothing of the failed call shows, in its batch and in the next call.
-/

namespace SegmentStore

/-! ### Calls for any columns of the table -/

/-- The columns of a batch before the first one that is not used. -/
def RowBatch.usedFront (batch : RowBatch) (used : List ColumnId) : List BatchColumn :=
  batch.columns.takeWhile (·.id ∈ used)

/-- All columns of a batch are used, or there is a first one that is not. -/
theorem RowBatch.usedFront_cases (batch : RowBatch) (used : List ColumnId) :
    (batch.usedFront used = batch.columns ∧ batch.columnIds ⊆ used)
      ∨ ∃ c rest, batch.columns = batch.usedFront used ++ c :: rest ∧ c.id ∉ used
        ∧ (batch.usedFront used).map (·.id) ⊆ used := by
  rw [columnIds, usedFront]
  induction batch.columns with
  | nil => exact .inl ⟨rfl, List.nil_subset used⟩
  | cons c cs ih =>
    by_cases hc : c.id ∈ used
    · rw [List.takeWhile_cons_of_pos (by simpa using hc)]
      rcases ih with ⟨hall, hsub⟩ | ⟨d, rest, hsplit, hd, hsub⟩
      · exact .inl ⟨by rw [hall], List.cons_subset.mpr ⟨hc, hsub⟩⟩
      · exact .inr ⟨d, rest, congrArg (c :: ·) hsplit, hd, List.cons_subset.mpr ⟨hc, hsub⟩⟩
    · rw [List.takeWhile_cons_of_neg (by simpa using hc)]
      exact .inr ⟨c, cs, rfl, hc, List.nil_subset used⟩

/-- The vectors of some columns have the values already that `k` rows from the marks on give. -/
def Marks.Repeats (m : Marks) (s : WrittenSegment) (k : Nat) (cs : List BatchColumn) : Prop :=
  ∀ (i : Nat) (c : BatchColumn), cs[i]? = some c →
    c.vector.toList = s.values c.id (m.row k (cs.map (·.id)) i c.id) k

namespace SegmentReader

variable {s : WrittenSegment} {r : SegmentReader} {g g' : SegmentGroup} {file : FileId}
variable {m : Marks} {segmentId : UInt32} {context : ReadContext} {batch : RowBatch}
variable {stats stats' : ScanStatistics} {k : Nat}

/-- Columns that are read keep their values if they have them already, and only then. -/
theorem ReadFrom.keeps_iff {cs cs' : List BatchColumn} (h : ReadFrom s m k cs cs') :
    cs'.map (·.vector.toList) = cs.map (·.vector.toList) ↔ m.Repeats s k cs := by
  have hids : ∀ i : Nat, cs'[i]?.map BatchColumn.id = cs[i]?.map BatchColumn.id := fun i => by
    rw [← List.getElem?_map, h.ids, List.getElem?_map]
  constructor
  · intro hsame i c hc
    have hid := hids i
    have hvector := congrArg (·[i]?) hsame
    simp only [List.getElem?_map] at hvector
    rw [hc] at hid hvector
    obtain ⟨c', hc', hid⟩ := Option.map_eq_some_iff.mp hid
    rw [hc'] at hvector
    have hvalues : c'.vector.toList = c.vector.toList := Option.some.inj hvector
    rw [← hvalues, h.values i c' hc', hid]
  · intro hrepeats
    refine List.ext_getElem? fun i => ?_
    have hid := hids i
    rw [List.getElem?_map, List.getElem?_map]
    cases hc : cs[i]? with
    | none =>
      rw [hc] at hid
      rw [Option.map_eq_none_iff.mp hid]
    | some c =>
      rw [hc] at hid
      obtain ⟨c', hc', hid⟩ := Option.map_eq_some_iff.mp hid
      rw [hc', Option.map_some, Option.map_some, h.values i c' hc', hrepeats i c hc, hid]

/-- A call to a group that has the segment, for columns of the table. -/
def Call.InTable (s : WrittenSegment) (segmentId : UInt32) (context : ReadContext) (file : FileId) :
    Call → Prop
  | .get batch g _ => g.Hosts segmentId s file ∧ Typed s batch.columns
  | .seek first last unfiltered g stats =>
    (Call.seek first last unfiltered g stats).Fits s segmentId context file
  | .init fillCache g cache stats => (Call.init fillCache g cache stats).Fits s segmentId context file

/-- Where the readers stand after a call that may be for columns that are not used. -/
def marksThrough (s : WrittenSegment) (r : SegmentReader) (m : Marks) : Call → Marks
  | .get batch _ _ =>
    if r.Loading then
      readOn s (r.rowsWanted s batch) ((batch.usedFront r.context.used).map (·.id))
        (r.positioned s batch.columnIds m)
    else m
  | .seek first last unfiltered g stats => marksAfter s r m (.seek first last unfiltered g stats)
  | .init fillCache g cache stats => marksAfter s r m (.init fillCache g cache stats)

/-- A column that is said to be invalid is one that is not used. -/
theorem unused_of_getBlock (hr : r.Tracked s segmentId context file m) {cid : ColumnId}
    (h : (r.getBlock batch g stats).1 = .error (.invalidColumn cid)) :
    cid ∈ batch.columnIds ∧ cid ∉ context.used ∧ r.Loading := by
  obtain ⟨hcid, heof, t, hreaders, hnone⟩ := lookup_of_getBlock h
  refine ⟨hcid, fun hused => ?_, heof, fun hmade => Option.some_ne_none t (hreaders.symm.trans hmade)⟩
  obtain ⟨x, hx, -⟩ := (hr.marked t hreaders).2.1 cid hused
  rw [hnone] at hx
  cases hx

/-- The readers stand at the marks also after a call for a column that is not used. -/
theorem tracked_getBlock_unused (hr : r.Tracked s segmentId context file m) (hused : r.UsedOnly)
    (hfits : s.Fits) (hcall : (Call.get batch g stats).InTable s segmentId context file) :
    (r.getBlock batch g stats).2.1.Tracked s segmentId context file
      (marksThrough s r m (.get batch g stats)) := by
  obtain ⟨hhosts, htyped⟩ := hcall
  rcases batch.usedFront_cases r.context.used with ⟨hall, hsub⟩ | ⟨c, rest, hsplit, hc, hfront⟩
  · have htracked := tracked_getBlock hr hfits
      (show (Call.get batch g stats).Fits s segmentId context file from
        ⟨hhosts, htyped, hr.context_eq ▸ hsub⟩)
    rw [marksThrough, hall]
    exact htracked
  · rw [marksThrough]
    split
    · rename_i hloading
      obtain ⟨hsegment, hnext, hlast⟩ := hr.next_le hloading
      rw [hr.context_eq] at hc hfront hsplit ⊢
      obtain ⟨t', ht', hget⟩ := getBlock_unused hr hused hfits hhosts htyped hloading hsplit hfront hc stats
      have hmoved : (r.atNext t').Tracked s segmentId context file _ :=
        hr.move hsegment ht' (.inr ⟨hnext, hlast⟩)
      split at hget
      · obtain ⟨cs, stats', hget, -⟩ := hget
        rwa [hget]
      · obtain ⟨e, batch', stats', hget, -⟩ := hget
        rwa [hget]
    · rename_i hidle
      obtain ⟨result, hget⟩ := getBlock_idle hidle batch g stats
      rwa [hget]

theorem tracked_callThrough {h : Session} (hr : h.reader.Tracked s segmentId context file m)
    (hused : h.reader.UsedOnly) (hfits : s.Fits) (hlossless : s.Lossless) {c : Call}
    (hcall : c.InTable s segmentId context file) :
    (h.call c).reader.Tracked s segmentId context file (marksThrough s h.reader m c)
      ∧ (h.call c).reader.UsedOnly := by
  cases c with
  | init fillCache g cache stats =>
    have hids : (g.schema.columns.map (·.uniqueId)).Nodup := hcall.1.schema ▸ s.distinctIds
    exact ⟨tracked_init hr hfits hlossless hcall, usedOnly_init hused hids fillCache cache stats⟩
  | seek first last unfiltered g stats =>
    exact ⟨tracked_seekToBlock hr hfits hlossless hcall first last unfiltered stats,
      usedOnly_seek hused first last unfiltered g stats⟩
  | get batch g stats =>
    exact ⟨tracked_getBlock_unused hr hused hfits hcall, usedOnly_getBlock hused batch g stats⟩

namespace Session

/-- Where the column readers stand after some calls that may be for columns that are not used. -/
def marksThroughCalls (s : WrittenSegment) (h : Session) (m : Marks) : List Call → Marks
  | [] => m
  | c :: calls => marksThroughCalls s (h.call c) (marksThrough s h.reader m c) calls

/-- Where the column readers of a new reader stand after some calls that may be for columns that are not used. -/
def marksThroughRun (s : WrittenSegment) (segmentId : UInt32) (context : ReadContext) (calls : List Call) :
    Marks :=
  marksThroughCalls s ⟨make segmentId context, none⟩ (fun _ => 0) calls

theorem tracked_through (hfits : s.Fits) (hlossless : s.Lossless) {calls : List Call}
    (hcalls : ∀ c ∈ calls, c.InTable s segmentId context file) :
    (run segmentId context calls).reader.Tracked s segmentId context file
        (marksThroughRun s segmentId context calls)
      ∧ (run segmentId context calls).reader.UsedOnly := by
  have hrun : ∀ (h : Session) (m : Marks), h.reader.Tracked s segmentId context file m →
      h.reader.UsedOnly →
      (calls.foldl call h).reader.Tracked s segmentId context file (marksThroughCalls s h m calls)
        ∧ (calls.foldl call h).reader.UsedOnly := by
    induction calls with
    | nil => exact fun h m hr hused => ⟨hr, hused⟩
    | cons c calls ih =>
      obtain ⟨hcall, hcalls⟩ := List.forall_mem_cons.mp hcalls
      intro h m hr hused
      obtain ⟨hr, hused⟩ := tracked_callThrough hr hused hfits hlossless hcall
      exact ih hcalls (h.call c) _ hr hused
  exact hrun ⟨make segmentId context, none⟩ _ tracked_make (usedOnly_make segmentId context)

/-! ### The next call -/

/-- A call that is to load a block gives its rows exactly if no column fails, and the marks are aligned with it. -/
theorem shows_iff {h : Session} (hr : h.reader.Tracked s segmentId context file m) (hfits : s.Fits)
    (hcall : (Call.get batch g stats).Fits s segmentId context file) (hloading : h.reader.Loading) :
    (h.loadedBlock? batch g stats = some h.reader.cursor.next
      ∧ ∃ p r' batch' stats', h.reader.getBlock batch g stats = (.ok p, r', batch', stats')
        ∧ batch'.columnIds = batch.columnIds ∧ batch'.size = h.reader.rowsWanted s batch
        ∧ batch'.Shows s h.reader.cursor.next)
      ↔ reads s (h.reader.rowsWanted s batch) batch.columnIds (h.reader.positioned s batch.columnIds m) = true
        ∧ (h.reader.positioned s batch.columnIds m).Aligned s batch.columnIds (h.reader.rowsWanted s batch)
          h.reader.cursor.next := by
  have hloaded := loadedBlock?_eq_some_iff (b := h.reader.cursor.next) hr hfits hcall
  have hwanted : h.reader.rowsWanted s batch ≤ (s.block h.reader.cursor.next).length := Nat.min_le_right _ _
  constructor
  · rintro ⟨hblock, p, r', batch', stats', hget, hids, hsize, hshows⟩
    obtain ⟨hnext, p', r'', batch'', stats'', hget', hsize', hvectors⟩ :=
      getBlock_readFrom hr hfits hcall hblock
    obtain rfl : batch' = batch'' := congrArg (fun x => x.2.2.1) (hget.symm.trans hget')
    rw [← hsize] at hwanted ⊢
    exact ⟨by rw [hsize]; exact (hloaded.mp hblock).2.2, (hvectors.shows_iff hnext hwanted).mp hshows⟩
  · rintro ⟨hreads, haligned⟩
    have hblock := hloaded.mpr ⟨hloading, rfl, hreads⟩
    obtain ⟨hnext, p, r', batch', stats', hget, hsize, hvectors⟩ := getBlock_readFrom hr hfits hcall hblock
    refine ⟨hblock, p, r', batch', stats', hget, hvectors.ids, hsize, ?_⟩
    refine (hvectors.shows_iff hnext (hsize ▸ hwanted)).mpr ?_
    rwa [hsize]

/-- What a call that fails at a column that is not used leaves of its batch, and what the next call gives. -/
theorem retried_iff {h : Session} (hr : h.reader.Tracked s segmentId context file m) (hused : h.reader.UsedOnly)
    (hfits : s.Fits) {failed retried : RowBatch}
    (hfailed : (Call.get failed g stats).InTable s segmentId context file) {cid : ColumnId}
    (herror : (h.reader.getBlock failed g stats).1 = .error (.invalidColumn cid))
    (hretried : (Call.get retried g' stats').Fits s segmentId context file) :
    let h' := h.call (.get failed g stats)
    let failed' := (h.reader.getBlock failed g stats).2.2.1
    let front := failed.usedFront context.used
    let m₁ := h.reader.positioned s failed.columnIds m
    let m₂ := readOn s (h.reader.rowsWanted s failed) (front.map (·.id)) m₁
    let k := h.reader.rowsWanted s retried
    cid ∈ failed.columnIds ∧ cid ∉ context.used
      ∧ failed'.size = failed.size ∧ failed'.status = failed.status ∧ failed'.columnIds = failed.columnIds
      ∧ ((failed'.columns.map (·.vector.toList) = failed.columns.map (·.vector.toList)
          ∧ h'.loadedBlock? retried g' stats' = some h.reader.cursor.next
          ∧ ∃ p r batch stats'', h'.reader.getBlock retried g' stats' = (.ok p, r, batch, stats'')
            ∧ batch.columnIds = retried.columnIds ∧ batch.size = k ∧ batch.Shows s h.reader.cursor.next)
        ↔ m₁.Repeats s (h.reader.rowsWanted s failed) front
          ∧ reads s k retried.columnIds m₂ = true ∧ m₂.Aligned s retried.columnIds k h.reader.cursor.next) := by
  intro h' failed' front m₁ m₂ k
  obtain ⟨hcid, hnot, hloading⟩ := unused_of_getBlock hr herror
  have htracked := tracked_getBlock_unused hr hused hfits hfailed
  obtain ⟨hhosts, htyped⟩ := hfailed
  rcases failed.usedFront_cases context.used with ⟨-, hsub⟩ | ⟨c, rest, hsplit, hc, hfront⟩
  · exact absurd (hsub hcid) hnot
  obtain ⟨t', -, hget⟩ := getBlock_unused hr hused hfits hhosts htyped hloading hsplit hfront hc stats
  rw [marksThrough, if_pos hloading, hr.context_eq] at htracked
  split at hget
  swap
  · obtain ⟨e, batch', stats'', hget, he⟩ := hget
    rw [hget] at herror
    exact absurd (Except.error.inj herror) (he cid)
  obtain ⟨cs, stats'', hget, hvectors⟩ := hget
  have hbatch : failed' = { failed with columns := cs ++ c :: rest } := congrArg (fun x => x.2.2.1) hget
  have hreader : h'.reader = h.reader.atNext t' := congrArg (fun x => x.2.1) hget
  have hcolumns : failed'.columns = cs ++ c :: rest := congrArg RowBatch.columns hbatch
  have hkeeps : failed'.columns.map (·.vector.toList) = failed.columns.map (·.vector.toList)
      ↔ m₁.Repeats s (h.reader.rowsWanted s failed) front := by
    rw [hcolumns, hsplit, List.map_append, List.map_append, List.append_cancel_right_eq]
    exact hvectors.keeps_iff
  have hloads := shows_iff (h := h') htracked hfits hretried (by rw [hreader]; exact ⟨hloading.1, Option.some_ne_none t'⟩)
  refine ⟨hcid, hnot, by rw [hbatch], by rw [hbatch], ?_, ?_⟩
  · rw [RowBatch.columnIds, RowBatch.columnIds, hcolumns, hsplit, List.map_append, List.map_append,
      hvectors.ids]
  · -- the failed call has left the columns to be read from where they stand
    have hpositioned : h'.reader.positioned s retried.columnIds m₂ = m₂ := by
      rw [hreader, positioned, if_neg (by simp [atNext])]
    rw [hpositioned, hreader] at hloads
    rw [hreader]
    exact and_congr hkeeps hloads

/-- A call that fails at its first column, right after a seek, leaves its batch as it is. The next call gives the
rows of the block that it was to load, for other columns of its batch. -/
theorem getBlock_retried_of_first {h : Session} (hr : h.reader.Tracked s segmentId context file m)
    (hused : h.reader.UsedOnly) (hfits : s.Fits) {failed retried : RowBatch}
    (hfailed : (Call.get failed g stats).InTable s segmentId context file) {c : BatchColumn}
    {rest : List BatchColumn} (hfirst : failed.columns = c :: rest) (hc : c.id ∉ context.used)
    (hloading : h.reader.Loading) (hneeds : h.reader.cursor.needsSeek = true)
    (hretried : (Call.get retried g' stats').Fits s segmentId context file)
    (hsub : retried.columnIds ⊆ failed.columnIds) (hnodup : retried.columnIds.Nodup)
    (hdefaults : AcceptsDefaults s retried.columnIds) :
    (h.reader.getBlock failed g stats).2.2.1 = failed
      ∧ ∃ p r batch stats'', (h.call (.get failed g stats)).reader.getBlock retried g' stats'
          = (.ok p, r, batch, stats'')
        ∧ batch.columnIds = retried.columnIds ∧ batch.Shows s h.reader.cursor.next := by
  have hsplit : failed.columns = [] ++ c :: rest := hfirst
  have hnext := hr.next_lt hloading
  obtain ⟨t', -, hget⟩ := getBlock_unused hr hused hfits hfailed.1 hfailed.2 hloading hsplit
    (List.nil_subset _) hc stats
  obtain ⟨cs, stats'', hget, hvectors⟩ := hget
  obtain rfl : cs = [] := List.map_eq_nil_iff.mp hvectors.ids
  have herror := congrArg Prod.fst hget
  obtain ⟨-, -, -, -, -, hiff⟩ := retried_iff hr hused hfits hfailed herror hretried
  have hfront : failed.usedFront context.used = [] := by
    rw [RowBatch.usedFront, hfirst, List.takeWhile_cons_of_neg (by simpa using hc)]
  have hmarks : ∀ a ∈ retried.columnIds, h.reader.positioned s failed.columnIds m a
      = h.reader.cursor.next * s.options.rowsPerBlock.toNat := fun a ha => by
    rw [positioned, hneeds, Bool.true_or, if_pos rfl, ledTo, if_pos (hsub ha)]
  have hwanted : h.reader.rowsWanted s retried ≤ (s.block h.reader.cursor.next).length := Nat.min_le_right _ _
  rw [hfront, List.map_nil, readOn] at hiff
  obtain ⟨-, -, p, r, batch, stats₂, hagain, hids, -, hshows⟩ := hiff.mpr
    ⟨fun i c hc => absurd hc.symm (Option.some_ne_none c),
      (reads_of_nodup hnodup hdefaults hmarks (WrittenSegment.take_rowsFrom hnext hwanted).1).1,
      Marks.aligned_of_nodup hnodup hmarks⟩
  refine ⟨?_, p, r, batch, stats₂, hagain, hids, hshows⟩
  rw [hget, List.nil_append, ← hfirst]

/-- Whatever calls were made, a call that fails at a column that is not used leaves the size, the status and the
columns of its batch alone. It keeps the values of its vectors, and the next call gives the rows of the block that
it was to load, exactly if the columns before the one that is not used had these values already, no column of the
next batch fails, and the marks that the failed call leaves are aligned with the block. -/
theorem getBlock_retried_iff (s : WrittenSegment) (hfits : s.Fits) (hlossless : s.Lossless)
    {segmentId : UInt32} {context : ReadContext} {file : FileId} (calls : List Call)
    (hcalls : ∀ c ∈ calls, c.InTable s segmentId context file) {failed retried : RowBatch}
    {g g' : SegmentGroup} {stats stats' : ScanStatistics}
    (hfailed : (Call.get failed g stats).InTable s segmentId context file) {cid : ColumnId}
    (herror : ((run segmentId context calls).reader.getBlock failed g stats).1 = .error (.invalidColumn cid))
    (hretried : (Call.get retried g' stats').Fits s segmentId context file) :
    let h := run segmentId context calls
    let h' := h.call (.get failed g stats)
    let failed' := (h.reader.getBlock failed g stats).2.2.1
    let front := failed.usedFront context.used
    let m₁ := h.reader.positioned s failed.columnIds (marksThroughRun s segmentId context calls)
    let m₂ := readOn s (h.reader.rowsWanted s failed) (front.map (·.id)) m₁
    let k := h.reader.rowsWanted s retried
    cid ∈ failed.columnIds ∧ cid ∉ context.used
      ∧ failed'.size = failed.size ∧ failed'.status = failed.status ∧ failed'.columnIds = failed.columnIds
      ∧ ((failed'.columns.map (·.vector.toList) = failed.columns.map (·.vector.toList)
          ∧ h'.loadedBlock? retried g' stats' = some h.reader.cursor.next
          ∧ ∃ p r batch stats'', h'.reader.getBlock retried g' stats' = (.ok p, r, batch, stats'')
            ∧ batch.columnIds = retried.columnIds ∧ batch.size = k ∧ batch.Shows s h.reader.cursor.next)
        ↔ m₁.Repeats s (h.reader.rowsWanted s failed) front
          ∧ reads s k retried.columnIds m₂ = true ∧ m₂.Aligned s retried.columnIds k h.reader.cursor.next) := by
  obtain ⟨hr, hused⟩ := tracked_through hfits hlossless hcalls
  exact retried_iff hr hused hfits hfailed herror hretried

/-! ### The small segment, only its values being used -/

/-- The small segment is read without a cache, and only its values are used. -/
def valuesContext : ReadContext := ⟨[1], [], none, none, .unknown, false, .default⟩

/-- The small segment, right after it was opened for its values. -/
def valuesOpened : InitResult := (make 0 valuesContext).init true (.single .sample) .empty .zero

/-- The small segment is opened for its values, and all its blocks are asked for. -/
def valuesCalls : List Call :=
  [.init true (.single .sample) .empty .zero, .seek 0 7 false valuesOpened.group valuesOpened.stats]

/-- The keys and values of the small segment. -/
def keysFirst (capacity : Nat) : RowBatch :=
  ⟨[⟨0, .int32, .empty .int32⟩, ⟨1, .float64, .empty .float64⟩], capacity, 0, .needsRowFilter⟩

/-- The values and keys of the small segment. -/
def valuesFirst (capacity : Nat) : RowBatch :=
  ⟨[⟨1, .float64, .empty .float64⟩, ⟨0, .int32, .empty .int32⟩], capacity, 0, .needsRowFilter⟩

theorem typed_keys_values (capacity : Nat) : Typed WrittenSegment.sample (keysFirst capacity).columns
    ∧ Typed WrittenSegment.sample (valuesFirst capacity).columns := by
  have hkey : ∃ d, WrittenSegment.sample.schema.column? 0 = some d ∧ d.type = .int32 := ⟨_, rfl, rfl⟩
  have hvalue : ∃ d, WrittenSegment.sample.schema.column? 1 = some d ∧ d.type = .float64 := ⟨_, rfl, rfl⟩
  exact ⟨List.forall_mem_cons.mpr ⟨hkey, List.forall_mem_singleton.mpr hvalue⟩,
    List.forall_mem_cons.mpr ⟨hvalue, List.forall_mem_singleton.mpr hkey⟩⟩

theorem opened_values : ∃ o, valuesOpened.reader.Opened valuesOpened.group .sample 0 o
    ∧ valuesOpened.reader.context = valuesContext := by
  have hcache : (make 0 valuesContext).context.cached = true →
      IndexCache.empty.Agrees ((SegmentGroup.single .sample).segmentPath 0) .sample :=
    fun hcached => absurd hcached Bool.false_ne_true
  have hanswerable : Answerable (make 0 valuesContext).context WrittenSegment.sample.schema :=
    ⟨rfl, List.all_eq_true.mp rfl, List.all_eq_true.mp rfl⟩
  have hresult := (init_result_iff (SegmentGroup.hosts_single .sample) WrittenSegment.fits_sample
    WrittenSegment.lossless_sample hcache true .zero).mpr hanswerable
  obtain ⟨o, hopened, hcontext, -⟩ := init_opened (SegmentGroup.hosts_single .sample)
    WrittenSegment.fits_sample WrittenSegment.lossless_sample hcache hresult
  rw [valuesOpened]
  exact ⟨o, hopened, hcontext⟩

/-- The seek is answered, and the first block is next. -/
theorem between_valuesCalls :
    (∃ o, (run 0 valuesContext valuesCalls).reader.Between valuesOpened.group .sample 0 o [1] 0)
      ∧ ∃ q, (run 0 valuesContext valuesCalls).seek? = some q ∧ q.Succeeds := by
  obtain ⟨o, hopened, hcontext⟩ := opened_values
  obtain ⟨r, stats, hseek, -, hstart⟩ := seekToBlock_all hopened WrittenSegment.fits_sample
    WrittenSegment.lossless_sample (by rw [hcontext]; rfl) (by rw [hcontext]; rfl) 7 (by decide +kernel)
    false [1] _
  obtain ⟨hreader, q, hsent, -, -, hsucceeds⟩ := run_init_seek hseek
  refine ⟨⟨o, ?_⟩, q, hsent, hsucceeds.mpr ⟨_, rfl⟩⟩
  rw [show (run 0 valuesContext valuesCalls).reader = r from hreader]
  exact hstart.resolve_left fun h => absurd h.1 (by decide +kernel)

theorem inTable_valuesCalls : (∀ c ∈ valuesCalls, c.InTable .sample 0 valuesContext 0)
    ∧ valuesOpened.group.Hosts 0 .sample 0 := by
  have hinit : (Call.init true (.single .sample) .empty .zero).Fits .sample 0 valuesContext 0 :=
    ⟨SegmentGroup.hosts_single .sample, fun hcached => absurd hcached Bool.false_ne_true⟩
  obtain ⟨o, hopened, -⟩ := opened_values
  have htracked := tracked_init tracked_make WrittenSegment.fits_sample WrittenSegment.lossless_sample hinit
  have hid : valuesOpened.reader.segmentId = 0 := by
    rw [valuesOpened]
    exact htracked.segmentId_eq
  have hhosts := hopened.hosts
  rw [hid] at hhosts
  refine ⟨fun c hc => ?_, hhosts⟩
  rw [valuesCalls, List.mem_pair] at hc
  rcases hc with rfl | rfl
  · exact hinit
  · exact hhosts

/-- The reader is about to load the first block, and no column is anywhere else. -/
theorem tracked_valuesCalls :
    (run 0 valuesContext valuesCalls).reader.Tracked .sample 0 valuesContext 0 (fun _ => 0)
      ∧ (run 0 valuesContext valuesCalls).reader.UsedOnly ∧ (run 0 valuesContext valuesCalls).reader.Loading
      ∧ (run 0 valuesContext valuesCalls).reader.cursor.next = 0
      ∧ marksThroughRun .sample 0 valuesContext valuesCalls = fun _ => 0 := by
  have hmarks : marksThroughRun .sample 0 valuesContext valuesCalls = fun _ => 0 := by
    rw [marksThroughRun, valuesCalls, marksThroughCalls, marksThrough, marksAfter_init_zero]
    rfl
  obtain ⟨htracked, hused⟩ := tracked_through WrittenSegment.fits_sample WrittenSegment.lossless_sample
    inTable_valuesCalls.1
  obtain ⟨⟨o, hbetween⟩, -⟩ := between_valuesCalls
  obtain ⟨t, hreaders, -, -⟩ := hbetween.readers
  have heof : (run 0 valuesContext valuesCalls).reader.cursor.eof = false := by
    rw [hbetween.eof]
    decide +kernel
  rw [hmarks] at htracked
  exact ⟨htracked, hused, ⟨heof, fun hnone => Option.some_ne_none t (hreaders.symm.trans hnone)⟩,
    hbetween.next, hmarks⟩

theorem getBlock_retried_iff_sample :
    let h := run 0 valuesContext valuesCalls
    (∀ c ∈ valuesCalls, c.InTable .sample 0 valuesContext 0)
      ∧ (h.reader.getBlock (keysFirst 2) valuesOpened.group .zero).1 = .error (.invalidColumn 0)
      ∧ ∃ p r batch stats,
          (h.call (.get (keysFirst 2) valuesOpened.group .zero)).reader.getBlock valuesBatch valuesOpened.group
            .zero = (.ok p, r, batch, stats)
        ∧ batch.columnIds = [1] ∧ batch.size = 2 ∧ batch.Shows .sample 0 := by
  obtain ⟨htracked, hused, hloading, hnext, hmarks⟩ := tracked_valuesCalls
  obtain ⟨t', -, cs, stats, hget, -⟩ := getBlock_unused htracked hused WrittenSegment.fits_sample
    inTable_valuesCalls.2 (typed_keys_values 2).1 hloading
    (show (keysFirst 2).columns = [] ++ ⟨0, .int32, .empty .int32⟩ :: [⟨1, .float64, .empty .float64⟩] from rfl)
    (List.nil_subset _) (by decide) .zero
  have hfailed : (Call.get (keysFirst 2) valuesOpened.group .zero).InTable .sample 0 valuesContext 0 :=
    ⟨inTable_valuesCalls.2, (typed_keys_values 2).1⟩
  have hretried : (Call.get valuesBatch valuesOpened.group .zero).Fits .sample 0 valuesContext 0 :=
    ⟨inTable_valuesCalls.2, List.forall_mem_singleton.mpr ⟨_, rfl, rfl⟩, List.Subset.refl [1]⟩
  have herror : ((run 0 valuesContext valuesCalls).reader.getBlock (keysFirst 2) valuesOpened.group .zero).1
      = .error (.invalidColumn 0) := congrArg Prod.fst hget
  obtain ⟨-, -, -, -, -, hiff⟩ := getBlock_retried_iff .sample WrittenSegment.fits_sample
    WrittenSegment.lossless_sample valuesCalls inTable_valuesCalls.1 hfailed herror hretried
  have hblock : (WrittenSegment.sample.block 0).length = 2 := by decide +kernel
  have hfront : (keysFirst 2).usedFront valuesContext.used = [] := rfl
  rw [hmarks, positioned_zero hnext, hfront, rowsWanted, rowsWanted, hnext, hblock] at hiff
  have hreads : reads WrittenSegment.sample 2 [1] (fun _ => 0) = true := by decide +kernel
  obtain ⟨-, -, hshown⟩ := hiff.mpr ⟨fun i c hc => absurd hc.symm (Option.some_ne_none c), hreads,
    Marks.aligned_of_nodup (by decide) fun cid _ => rfl⟩
  exact ⟨inTable_valuesCalls.1, herror, hshown⟩

/-- A session that is about to load the first block reads the first value into a batch of values and keys, where
the keys are not used, and the second and third value into the next batch of values. -/
theorem getBlock_misses_of_tracked {h : Session} (htracked : h.reader.Tracked .sample 0 valuesContext 0 fun _ => 0)
    (hused : h.reader.UsedOnly) (hloading : h.reader.Loading) (hnext : h.reader.cursor.next = 0)
    (hhosts : g.Hosts 0 .sample 0) :
    ∃ r failed stats, h.reader.getBlock (valuesFirst 1) g .zero = (.error (.invalidColumn 0), r, failed, stats)
      ∧ failed.columns.map (·.vector.toList) = [[.float64 .zero], []]
      ∧ ∃ p r' batch stats', r.getBlock valuesBatch g .zero = (.ok p, r', batch, stats')
      ∧ batch.columns.map (·.vector.toList)
        = [[.float64 ⟨0x3FF0000000000000⟩, .float64 ⟨0x4000000000000000⟩]] := by
  have hblock : (WrittenSegment.sample.block 0).length = 2 := by decide +kernel
  have hretried : (Call.get valuesBatch g .zero).Fits .sample 0 valuesContext 0 :=
    ⟨hhosts, List.forall_mem_singleton.mpr ⟨_, rfl, rfl⟩, List.Subset.refl [1]⟩
  have hreads : reads WrittenSegment.sample 1
      ([(⟨1, .float64, .empty .float64⟩ : BatchColumn)].map (·.id)) (fun _ => 0) = true := by decide +kernel
  obtain ⟨t', ht', hget⟩ := getBlock_unused htracked hused WrittenSegment.fits_sample hhosts
    (typed_keys_values 1).2 hloading
    (show (valuesFirst 1).columns = [⟨1, .float64, .empty .float64⟩] ++ ⟨0, .int32, .empty .int32⟩ :: [] from rfl)
    (List.Subset.refl [1]) (by decide) .zero
  have hwanted : h.reader.rowsWanted .sample (valuesFirst 1) = 1 := by
    rw [rowsWanted, hnext, hblock]
    rfl
  rw [positioned_zero hnext, hwanted] at hget ht'
  rw [if_pos hreads] at hget
  obtain ⟨cs, stats, hget, hvectors⟩ := hget
  obtain ⟨c, rfl, hcid⟩ := List.map_eq_singleton_iff.mp hvectors.ids
  have hfirst : c.vector.toList = [.float64 .zero] := by
    rw [hvectors.values 0 c rfl, hcid]
    decide +kernel
  -- the values stand behind the first row now
  have hmoved : (h.reader.atNext t').Tracked .sample 0 valuesContext 0 (readOn .sample 1 [1] fun _ => 0) := by
    obtain ⟨hsegment, hbounded⟩ := htracked.next_le hloading
    exact htracked.move hsegment ht' (.inr hbounded)
  have hpositioned : (h.reader.atNext t').positioned .sample [1] (readOn .sample 1 [1] fun _ => 0)
      = readOn .sample 1 [1] fun _ => 0 := by
    rw [positioned, if_neg (by simp [atNext])]
  have hreads' : reads WrittenSegment.sample 2 [1] (readOn .sample 1 [1] fun _ => 0) = true := by decide +kernel
  have hwanted' : (h.reader.atNext t').rowsWanted .sample valuesBatch = 2 := by
    rw [rowsWanted, atNext, hnext, hblock]
    rfl
  obtain ⟨t'', -, hagain⟩ := getBlock_marked hmoved WrittenSegment.fits_sample hretried
    ⟨hloading.1, Option.some_ne_none t'⟩
  rw [hwanted', show valuesBatch.columnIds = [1] from rfl, hpositioned, if_pos hreads'] at hagain
  obtain ⟨cs', status, stats', r', -, hagain, -, hvectors'⟩ := hagain
  obtain ⟨d, rfl, hdid⟩ := List.map_eq_singleton_iff.mp hvectors'.ids
  have hsecond : d.vector.toList = [.float64 ⟨0x3FF0000000000000⟩, .float64 ⟨0x4000000000000000⟩] := by
    rw [hvectors'.values 0 d rfl, hdid]
    decide +kernel
  refine ⟨_, _, stats, hget, ?_, _, r', _, stats', hagain, by rw [List.map_singleton, hsecond]⟩
  rw [List.singleton_append, List.map_cons, hfirst]
  rfl

/-- The values are read up to the keys, which are not used, and then the values alone. The first call fails and
has replaced its vector of values, and the second one gives the second and third value as the first block. -/
theorem getBlock_retried_misses :
    let h := run 0 valuesContext valuesCalls
    (∃ q, h.seek? = some q ∧ q.Succeeds) ∧ h.reader.cursor.next = 0
      ∧ (valuesFirst 1).columns.map (·.vector.toList) = [[], []]
      ∧ (WrittenSegment.sample.block 0).map (fun row => WrittenSegment.sample.cell row 1)
          = [.float64 .zero, .float64 ⟨0x3FF0000000000000⟩]
      ∧ ∃ r failed stats, h.reader.getBlock (valuesFirst 1) valuesOpened.group .zero
          = (.error (.invalidColumn 0), r, failed, stats)
      ∧ failed.columns.map (·.vector.toList) = [[.float64 .zero], []]
      ∧ ∃ p r' batch stats', r.getBlock valuesBatch valuesOpened.group .zero = (.ok p, r', batch, stats')
      ∧ batch.columns.map (·.vector.toList)
        = [[.float64 ⟨0x3FF0000000000000⟩, .float64 ⟨0x4000000000000000⟩]] := by
  obtain ⟨htracked, hused, hloading, hnext, -⟩ := tracked_valuesCalls
  exact ⟨between_valuesCalls.2, hnext, rfl, by decide +kernel,
    getBlock_misses_of_tracked htracked hused hloading hnext inTable_valuesCalls.2⟩

end Session

end SegmentReader

end SegmentStore
