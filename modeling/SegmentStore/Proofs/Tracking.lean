import SegmentStore.Proofs.Confinement
import SegmentStore.Proofs.Marks

/-!
# Following the marks through the calls

The cursor of a reader notes one block for all columns, while each column has a mark of its own. A call leads
the columns of its batch to the next block only if the cursor says so, and reads on from the marks else.

* `SegmentReader.marksAfter` is what a call does to the marks, `Session.marks` what calls do one after the
  other.
* `SegmentReader.getBlock_marked` says what a call that is to load a block gives, when it succeeds, and where
  it leaves the reader.
* `SegmentReader.Tracked` is the invariant: the readers stand at the marks, and the next block exists.
  `SegmentReader.tracked_call` is the step and `Session.tracked_run` the run.
-/

namespace SegmentStore

/-- The file of the segment. -/
def WrittenSegment.file (s : WrittenSegment) (backend : Backend) : SegmentFile :=
  ⟨backend, ⟨s.bytes.toArray⟩⟩

theorem SegmentGroup.Hosts.file_eq {g : SegmentGroup} {segmentId : UInt32} {s : WrittenSegment}
    {file : FileId} (h : g.Hosts segmentId s file) (backend : Backend) :
    (⟨backend, g.files.content file⟩ : SegmentFile) = s.file backend := by
  rw [WrittenSegment.file, ← h.bytes]

namespace SegmentReader

variable {s : WrittenSegment} {r : SegmentReader} {g : SegmentGroup} {file : FileId} {o : OpenSegment}
variable {m : Marks} {segmentId : UInt32} {context : ReadContext} {batch : RowBatch}
variable {stats : ScanStatistics}

/-! ### The next block exists -/

/-- The scan is at its end, or the next block is one of `count` many. -/
def Bounded (r : SegmentReader) (count : Nat) : Prop :=
  r.cursor.eof = true ∨ r.cursor.next ≤ r.cursor.last ∧ r.cursor.last < count

theorem bounded_advance {count : Nat} (hlast : r.cursor.last < count) (block : Nat) :
    (r.advance block).Bounded count := by
  obtain ⟨n, hadvance, -, -⟩ := exists_advance r block
  rw [hadvance]
  by_cases hpast : r.cursor.last < n
  · exact .inl (by simp [hpast])
  · exact .inr ⟨Nat.le_of_not_lt hpast, hlast⟩

/-- A seek, successful or not, moves no column, but they all have to be positioned after it. The next block
exists unless the scan is at its end. -/
theorem seekRange_keeps (r : SegmentReader) (o : OpenSegment) (first last : Nat) (unfiltered : Bool)
    (g : SegmentGroup) (stats : ScanStatistics) :
    ∃ result stats' blocks? cursor, r.seekRange o first last unfiltered g stats
        = (result, { r with blocks?, cursor }, stats')
      ∧ { r with blocks?, cursor }.Bounded o.indexes.blockCount ∧ cursor.needsSeek = true := by
  by_cases hcount : o.indexes.blockCount = 0
  · refine ⟨.ok ⟨first, true⟩, stats, none, ⟨r.cursor.current, first, 0, true, unfiltered, true⟩, ?_,
      .inl rfl, rfl⟩
    simp only [seekRange, hcount, if_true]
    rfl
  have hlast : min last (o.indexes.blockCount - 1) < o.indexes.blockCount := by omega
  by_cases hvalid : unfiltered = false → first ≤ min last (o.indexes.blockCount - 1)
  · obtain ⟨stats', hseek⟩ := seekRange_eq r g last unfiltered hcount hvalid stats
    have hbounded := bounded_advance (r := r.ranged (min last (o.indexes.blockCount - 1)) unfiltered
      ((r.pruneRequest o g).pruned first (min last (o.indexes.blockCount - 1)))) hlast first
    obtain ⟨n, hadvance, -, -⟩ := exists_advance (r.ranged (min last (o.indexes.blockCount - 1)) unfiltered
      ((r.pruneRequest o g).pruned first (min last (o.indexes.blockCount - 1)))) first
    rw [hadvance] at hseek hbounded
    exact ⟨_, stats', _, _, hseek, hbounded, rfl⟩
  · obtain ⟨hfilter, hinvalid⟩ := Classical.not_imp.mp hvalid
    obtain ⟨e, hseek⟩ := seekRange_invalid r g hcount (Nat.lt_of_not_le hinvalid) stats
    rw [hfilter]
    exact ⟨_, stats, _, _, hseek, .inr ⟨Nat.zero_le _, hlast⟩, rfl⟩

/-! ### The rows of a block -/

theorem rowsToLoad_eq (ho : o.Of s r.context.used) (hfits : s.Fits) {block : Nat}
    (hblock : block < s.blocks.length) (capacity : Nat) :
    rowsToLoad o block capacity = min capacity (s.block block).length := by
  have hfull := rowsToLoad_of ho hfits (Nat.le_refl s.options.rowsPerBlock.toNat) hblock
  rw [WrittenSegment.block_eq hblock, ← hfull]
  simp only [rowsToLoad, ho.rowsPerBlock]
  split <;> omega

/-! ### What a call does to the marks -/

/-- Where the readers stand when a call reads into its batch. -/
def positioned (r : SegmentReader) (s : WrittenSegment) (ids : List ColumnId) (m : Marks) : Marks :=
  if r.cursor.needsSeek || decide (r.cursor.next ≠ r.cursor.current) then ledTo s r.cursor.next ids m else m

/-- The rows that a call loads of the next block. -/
def rowsWanted (r : SegmentReader) (s : WrittenSegment) (batch : RowBatch) : Nat :=
  min batch.capacity (s.block r.cursor.next).length

/-- A call is to load a block. -/
def Loading (r : SegmentReader) : Prop :=
  r.cursor.eof = false ∧ r.readers? ≠ none

instance (r : SegmentReader) : Decidable r.Loading :=
  decidable_of_iff (r.cursor.eof = false ∧ r.readers?.isSome = true) (by
    rw [Loading, ← Option.isSome_iff_ne_none])

/-- Where the readers stand after a call. -/
def marksAfter (s : WrittenSegment) (r : SegmentReader) (m : Marks) : Call → Marks
  | .init fillCache g cache stats =>
    match (r.init fillCache g cache stats).result with
    | .ok () => fun _ => 0
    | .error _ => m
  | .seek .. => m
  | .get batch _ _ =>
    if r.Loading then
      readOn s (r.rowsWanted s batch) batch.columnIds (r.positioned s batch.columnIds m)
    else m

/-- A call to a group that has the segment, for columns that the reader was made for. -/
def Call.Fits (s : WrittenSegment) (segmentId : UInt32) (context : ReadContext) (file : FileId) :
    Call → Prop
  | .init _ g cache _ => g.Hosts segmentId s file
    ∧ (context.cached = true → cache.Agrees (g.segmentPath segmentId) s)
  | .seek _ _ _ g _ => g.Hosts segmentId s file
  | .get batch g _ => g.Hosts segmentId s file ∧ Typed s batch.columns ∧ batch.columnIds ⊆ context.used

/-! ### The invariant -/

/-- The column readers of a reader, once they are made, stand at the marks. -/
structure Tracked (r : SegmentReader) (s : WrittenSegment) (segmentId : UInt32) (context : ReadContext)
    (file : FileId) (m : Marks) : Prop where
  segmentId_eq : r.segmentId = segmentId
  context_eq : r.context = context
  opened : ∀ o, r.segment? = some o →
    o.file = file ∧ o.Of s context.used ∧ ∀ cid ∈ context.used, (s.schema.column? cid).isSome
  fresh : r.readers? = none → m = fun _ => 0
  marked : ∀ t, r.readers? = some t →
    r.segment? ≠ none ∧ t.Marked s (s.file context.options.backend) context.used m
      ∧ r.Bounded s.blocks.length

theorem tracked_make : (make segmentId context).Tracked s segmentId context file fun _ => 0 where
  segmentId_eq := rfl
  context_eq := rfl
  opened := fun o ho => absurd ho.symm (Option.some_ne_none o)
  fresh := fun _ => rfl
  marked := fun t ht => absurd ht.symm (Option.some_ne_none t)

/-- Starting to read the segment discards the readers, if it succeeds. -/
theorem tracked_init (hr : r.Tracked s segmentId context file m) (hfits : s.Fits) (hlossless : s.Lossless)
    {fillCache : Bool} {cache : IndexCache} {stats : ScanStatistics}
    (hcall : (Call.init fillCache g cache stats).Fits s segmentId context file) :
    (r.init fillCache g cache stats).reader.Tracked s segmentId context file
      (marksAfter s r m (.init fillCache g cache stats)) := by
  obtain ⟨rfl, rfl, hopened, hfresh, hmarked⟩ := hr
  obtain ⟨hhosts, hcache⟩ := hcall
  rcases init_cases r fillCache g cache stats with ⟨⟨e, hresult⟩, hsame⟩ | ⟨hresult, -⟩
  · rw [hsame, marksAfter, hresult]
    exact ⟨rfl, rfl, hopened, hfresh, hmarked⟩
  · have hanswerable := (init_result_iff hhosts hfits hlossless hcache fillCache stats).mp hresult
    obtain ⟨o, metas, cache', stats', hinit, ho⟩ :=
      init_of hhosts hfits hlossless hcache hanswerable fillCache stats
    rw [marksAfter, hinit]
    refine ⟨rfl, rfl, ?_, fun _ => rfl, fun t ht => absurd ht.symm (Option.some_ne_none t)⟩
    intro o' ho'
    obtain rfl : o = o' := Option.some.inj ho'
    exact ⟨ho.opened, ho.written, ho.used⟩

/-- A reader that is about to make its column readers. -/
theorem Tracked.opened_of_none (hr : r.Tracked s segmentId context file m) (ho : r.segment? = some o)
    (hhosts : g.Hosts segmentId s file) (hnone : r.readers? = none) : r.Opened g s file o := by
  obtain ⟨rfl, rfl, hopened, -, -⟩ := hr
  obtain ⟨hfile, hof, hused⟩ := hopened o ho
  exact ⟨ho, hfile, hof, hhosts, hused, hnone⟩

/-- Going to a range moves no column reader. -/
theorem tracked_seekRange (ho : r.segment? = some o) (hfile : o.file = file) (hof : o.Of s r.context.used)
    (hused : ∀ cid ∈ r.context.used, (s.schema.column? cid).isSome) {t : ReaderTable}
    (hreaders : r.readers? = some t)
    (ht : t.Marked s (s.file r.context.options.backend) r.context.used m) (first last : Nat)
    (unfiltered : Bool) (g : SegmentGroup) (stats : ScanStatistics) :
    (r.seekRange o first last unfiltered g stats).2.1.Tracked s r.segmentId r.context file m := by
  obtain ⟨result, stats', blocks?, cursor, hseek, hbounded, -⟩ :=
    seekRange_keeps r o first last unfiltered g stats
  rw [hof.indexes.blockCount] at hbounded
  rw [hseek]
  refine ⟨rfl, rfl, fun o' ho' => ?_, fun hnone => ?_, fun t' ht' => ?_⟩
  · obtain rfl : o = o' := Option.some.inj (ho.symm.trans ho')
    exact ⟨hfile, hof, hused⟩
  · exact absurd (hreaders.symm.trans hnone) (Option.some_ne_none t)
  · obtain rfl : t = t' := Option.some.inj (hreaders.symm.trans ht')
    exact ⟨fun hnone => Option.some_ne_none o (ho.symm.trans hnone), ht, hbounded⟩

/-- The first seek makes the column readers, and they stand before the first row. -/
theorem tracked_seekToBlock (hr : r.Tracked s segmentId context file m) (hfits : s.Fits)
    (hlossless : s.Lossless) (hhosts : g.Hosts segmentId s file) (first last : Nat) (unfiltered : Bool)
    (stats : ScanStatistics) :
    (r.seekToBlock first last unfiltered g stats).2.1.Tracked s segmentId context file m := by
  rw [seekToBlock]
  cases hsegment : r.segment? with
  | none => exact hr
  | some o =>
    dsimp only
    cases hreaders : r.readers? with
    | some t =>
      obtain ⟨rfl, rfl, hopened, -, hmarked⟩ := hr
      obtain ⟨hfile, hof, hused⟩ := hopened o hsegment
      exact tracked_seekRange hsegment hfile hof hused hreaders (hmarked t hreaders).2.1 first last
        unfiltered g stats
    | none =>
      have hnew := hr.opened_of_none hsegment hhosts hreaders
      obtain ⟨t, hmake, ht⟩ := makeReaders_marked hnew hfits hlossless
      obtain ⟨rfl, rfl, -, hfresh, -⟩ := hr
      rw [hmake, hfresh hreaders]
      have hmarked : t.Marked s (s.file r.context.options.backend) r.context.used fun _ => 0 := by
        rw [← hhosts.file_eq]
        exact ht
      dsimp only
      rw [← hsegment]
      exact tracked_seekRange (r := { r with readers? := some t }) hsegment hnew.opened hnew.written
        hnew.used rfl hmarked first last unfiltered g stats

/-! ### Loading a block -/

/-- The reader once its columns are positioned at the next block. -/
def atNext (r : SegmentReader) (t : ReaderTable) : SegmentReader :=
  { r with
    readers? := some t
    cursor := { r.cursor with current := r.cursor.next, needsSeek := false } }

theorem atNext_self {t : ReaderTable} (hreaders : r.readers? = some t)
    (hnext : r.cursor.next = r.cursor.current) (hneeds : r.cursor.needsSeek = false) : r.atNext t = r := by
  obtain ⟨segmentId, context, segment?, readers?, blocks?, current, next, last, eof, unfiltered, needsSeek⟩ := r
  obtain rfl : readers? = some t := hreaders
  obtain rfl : next = current := hnext
  obtain rfl : needsSeek = false := hneeds
  rfl

/-- The columns of a batch are led to the next block if the cursor says so. -/
theorem positionColumns_marked (ho : o.Of s r.context.used) {f : SegmentFile} {t : ReaderTable}
    (hreaders : r.readers? = some t) (ht : t.Marked s f r.context.used m)
    (hnext : r.cursor.next < s.blocks.length) (batch : RowBatch) (hids : batch.columnIds ⊆ r.context.used) :
    ∃ t', r.positionColumns f o t batch = (.ok (), r.atNext t')
      ∧ t'.Marked s f r.context.used (r.positioned s batch.columnIds m) := by
  rw [positionColumns, positioned]
  by_cases hmove : (r.cursor.needsSeek || decide (r.cursor.next ≠ r.cursor.current)) = true
  · obtain ⟨t', hseek, ht'⟩ := seekColumns_marked ho hnext hids ht
    refine ⟨t', ?_, by rwa [if_pos hmove]⟩
    rw [if_pos hmove, hseek]
    rfl
  · refine ⟨t, ?_, by rwa [if_neg hmove]⟩
    rw [if_neg hmove]
    rw [Bool.or_eq_true, not_or, decide_eq_true_iff, not_not, Bool.not_eq_true] at hmove
    rw [atNext_self hreaders hmove.2 hmove.1]

/-- Where the columns stand once `k` rows of the next block were loaded: behind the block, or it is not
known. -/
def cursorAfter (r : SegmentReader) (s : WrittenSegment) (k : Nat) : ScanCursor :=
  if k = s.options.rowsPerBlock.toNat then
    { r.cursor with current := r.cursor.next + 1, needsSeek := false }
  else { r.cursor with current := r.cursor.next, needsSeek := true }

theorem next_cursorAfter (r : SegmentReader) (s : WrittenSegment) (k : Nat) :
    (r.cursorAfter s k).next = r.cursor.next ∧ (r.cursorAfter s k).last = r.cursor.last := by
  rw [cursorAfter]
  split <;> exact ⟨rfl, rfl⟩

/-- The reader once `k` rows of the next block were loaded. -/
def afterLoad (r : SegmentReader) (s : WrittenSegment) (t : ReaderTable) (k : Nat) : SegmentReader :=
  { r with readers? := some t, cursor := r.cursorAfter s k }

/-- The next block is loaded by reading on from the marks. -/
theorem loadBlock_marked (hfits : s.Fits) (ho : o.Of s r.context.used) {f : SegmentFile} {t : ReaderTable}
    (ht : t.Marked s f r.context.used m) (hcurrent : r.cursor.current = r.cursor.next)
    (hneeds : r.cursor.needsSeek = false) (hnext : r.cursor.next < s.blocks.length) (batch : RowBatch)
    (hids : batch.columnIds ⊆ r.context.used) (htyped : Typed s batch.columns) :
    ∃ t', t'.Marked s f r.context.used (readOn s (r.rowsWanted s batch) batch.columnIds m)
      ∧ if reads s (r.rowsWanted s batch) batch.columnIds m then
          ∃ cs status, r.loadBlock f o t batch = (.ok (r.rowsWanted s batch),
              (r.afterLoad s t' (r.rowsWanted s batch)).advance (r.cursor.next + 1),
              ⟨cs, batch.capacity, r.rowsWanted s batch, status⟩)
            ∧ ReadFrom s m (r.rowsWanted s batch) batch.columns cs
        else ∃ e batch', r.loadBlock f o t batch = (.error e, { r with readers? := some t' }, batch') := by
  obtain ⟨result, t', batch', hread, ht', hvectors⟩ :=
    readColumns_marked (r.rowsWanted s batch) [] (show batch.columns = [] ++ batch.columns from rfl) htyped
      hids ht
  refine ⟨t', ht', ?_⟩
  have hrows : rowsToLoad o r.cursor.current batch.capacity = r.rowsWanted s batch := by
    rw [hcurrent]
    exact rowsToLoad_eq ho hfits hnext batch.capacity
  rw [List.length_nil] at hread
  change if reads s (r.rowsWanted s batch) batch.columnIds m = true then _ else _ at hvectors
  split at hvectors
  · rename_i hreads
    obtain ⟨rfl, cs, rfl, hvectors⟩ := hvectors
    rw [if_pos hreads]
    have hcursor : (if r.rowsWanted s batch = o.rowsPerBlock then
          { r.cursor with current := r.cursor.current + 1 }
        else { r.cursor with needsSeek := true }) = r.cursorAfter s (r.rowsWanted s batch) := by
      rw [cursorAfter, ho.rowsPerBlock, ← hcurrent, ← hneeds]
    obtain ⟨status, hload⟩ : ∃ status, r.loadBlock f o t batch = (.ok (r.rowsWanted s batch),
        (r.afterLoad s t' (r.rowsWanted s batch)).advance
          ((r.cursorAfter s (r.rowsWanted s batch)).next + 1),
        ⟨cs, batch.capacity, r.rowsWanted s batch, status⟩) := by
      rw [loadBlock, hrows, hread, afterLoad, ← hcursor]
      exact ⟨_, rfl⟩
    rw [(next_cursorAfter r s _).1] at hload
    exact ⟨cs, status, hload, hvectors⟩
  · rename_i hfails
    obtain ⟨e, rfl⟩ := hvectors
    rw [if_neg hfails]
    refine ⟨e, batch', ?_⟩
    rw [loadBlock, hrows, hread]

/-- A call that is not to load a block changes nothing. -/
theorem getBlock_idle (hidle : ¬r.Loading) (batch : RowBatch) (g : SegmentGroup) (stats : ScanStatistics) :
    ∃ result, r.getBlock batch g stats = (result, r, batch, stats) := by
  rw [getBlock]
  cases heof : r.cursor.eof with
  | true => exact ⟨_, rfl⟩
  | false =>
    have hnone : r.readers? = none := Classical.byContradiction fun hmade => hidle ⟨heof, hmade⟩
    rw [if_neg (by decide), hnone]
    cases r.segment? <;> exact ⟨_, rfl⟩

/-- A call positions the columns and loads the block at which they stand then. -/
theorem getBlock_eq {t : ReaderTable} {r₁ r₂ : SegmentReader} {result : Except StorageError Nat}
    {batch' : RowBatch} (heof : r.cursor.eof = false) (ho : r.segment? = some o)
    (hreaders : r.readers? = some t)
    (hposition : r.positionColumns ⟨r.context.options.backend, g.files.content o.file⟩ o t batch
      = (.ok (), r₁))
    (hload : r₁.loadBlock ⟨r.context.options.backend, g.files.content o.file⟩ o (r₁.readers?.getD []) batch
      = (result, r₂, batch')) (stats : ScanStatistics) :
    r.getBlock batch g stats
      = (result.map fun _ => r₂.cursor.position, r₂, batch',
          match result with
          | .ok rows => (stats.addTraffic (trafficSince t (r₂.readers?.getD []))).addBlock rows
          | .error _ => stats.addTraffic (trafficSince t (r₂.readers?.getD []))) := by
  rw [getBlock, heof, ho, hreaders, if_neg (by decide)]
  simp only [hposition, hload]
  cases result <;> rfl

/-- The next block of a reader that is to load one is within its range, and exists. -/
theorem Tracked.next_le (hr : r.Tracked s segmentId context file m) (hloading : r.Loading) :
    r.segment? ≠ none ∧ r.cursor.next ≤ r.cursor.last ∧ r.cursor.last < s.blocks.length := by
  obtain ⟨t, hreaders⟩ := Option.ne_none_iff_exists'.mp hloading.2
  obtain ⟨hsegment, -, hbounded⟩ := hr.marked t hreaders
  exact ⟨hsegment, hbounded.resolve_left fun hend => absurd (hloading.1.symm.trans hend) (by decide)⟩

theorem Tracked.next_lt (hr : r.Tracked s segmentId context file m) (hloading : r.Loading) :
    r.cursor.next < s.blocks.length :=
  Nat.lt_of_le_of_lt (hr.next_le hloading).2.1 (hr.next_le hloading).2.2

/-- A call that is to load a block reads on from the marks, once the columns are positioned. It fails if a
column does, and gives the rows behind the marks else. -/
theorem getBlock_marked (hr : r.Tracked s segmentId context file m) (hfits : s.Fits)
    (hcall : (Call.get batch g stats).Fits s segmentId context file) (hloading : r.Loading) :
    ∃ t', t'.Marked s (s.file context.options.backend) context.used
        (marksAfter s r m (.get batch g stats))
      ∧ if reads s (r.rowsWanted s batch) batch.columnIds (r.positioned s batch.columnIds m) then
          ∃ cs status stats' r',
            r' = (r.afterLoad s t' (r.rowsWanted s batch)).advance (r.cursor.next + 1)
            ∧ r.getBlock batch g stats = (.ok r'.cursor.position, r',
                ⟨cs, batch.capacity, r.rowsWanted s batch, status⟩, stats')
            ∧ stats'.blocksLoaded = stats.blocksLoaded + 1
            ∧ ReadFrom s (r.positioned s batch.columnIds m) (r.rowsWanted s batch) batch.columns cs
        else ∃ e batch' stats', r.getBlock batch g stats = (.error e, r.atNext t', batch', stats')
            ∧ stats'.blocksLoaded = stats.blocksLoaded := by
  have hnext := hr.next_lt hloading
  obtain ⟨rfl, rfl, hopened, -, hmarked⟩ := hr
  obtain ⟨hhosts, htyped, hids⟩ := hcall
  obtain ⟨heof, hmade⟩ := hloading
  obtain ⟨t, hreaders⟩ := Option.ne_none_iff_exists'.mp hmade
  obtain ⟨hsegment, ht, -⟩ := hmarked t hreaders
  obtain ⟨o, ho⟩ := Option.ne_none_iff_exists'.mp hsegment
  obtain ⟨rfl, hof, -⟩ := hopened o ho
  obtain ⟨t₁, hposition, ht₁⟩ := positionColumns_marked hof hreaders ht hnext batch hids
  obtain ⟨t', ht', hloaded⟩ := loadBlock_marked (r := r.atNext t₁) hfits hof ht₁ rfl rfl hnext batch hids
    htyped
  rw [← hhosts.file_eq] at hposition hloaded
  have hwanted : (r.atNext t₁).rowsWanted s batch = r.rowsWanted s batch := rfl
  rw [hwanted] at ht' hloaded
  refine ⟨t', ?_, ?_⟩
  · rw [marksAfter, if_pos ⟨heof, hmade⟩]
    exact ht'
  split at hloaded
  · rename_i hreads
    obtain ⟨cs, status, hload, hvectors⟩ := hloaded
    rw [if_pos hreads]
    exact ⟨cs, status, _, _, rfl, getBlock_eq heof ho hreaders hposition hload stats, rfl, hvectors⟩
  · rename_i hfails
    obtain ⟨e, batch', hload⟩ := hloaded
    rw [if_neg hfails]
    exact ⟨e, batch', _, getBlock_eq heof ho hreaders hposition hload stats, rfl⟩

/-! ### The run -/

/-- The column readers move, within a segment that is open. -/
theorem Tracked.move (hr : r.Tracked s segmentId context file m) (hsegment : r.segment? ≠ none)
    {t : ReaderTable} {m' : Marks} (ht : t.Marked s (s.file context.options.backend) context.used m')
    {cursor : ScanCursor} (hbounded : { r with readers? := some t, cursor }.Bounded s.blocks.length) :
    { r with readers? := some t, cursor }.Tracked s segmentId context file m' := by
  refine ⟨hr.segmentId_eq, hr.context_eq, hr.opened, fun hnone => absurd hnone (Option.some_ne_none t),
    fun t' ht' => ?_⟩
  obtain rfl : t = t' := Option.some.inj ht'
  exact ⟨hsegment, ht, hbounded⟩

theorem tracked_getBlock (hr : r.Tracked s segmentId context file m) (hfits : s.Fits)
    (hcall : (Call.get batch g stats).Fits s segmentId context file) :
    (r.getBlock batch g stats).2.1.Tracked s segmentId context file
      (marksAfter s r m (.get batch g stats)) := by
  by_cases hloading : r.Loading
  · obtain ⟨hsegment, hnext, hlast⟩ := hr.next_le hloading
    obtain ⟨t', ht', hget⟩ := getBlock_marked hr hfits hcall hloading
    split at hget
    · obtain ⟨cs, status, stats', r', rfl, hget, -⟩ := hget
      have hlastAfter : (r.afterLoad s t' (r.rowsWanted s batch)).cursor.last < s.blocks.length := by
        rwa [afterLoad, (next_cursorAfter r s _).2]
      have hadvanced := bounded_advance hlastAfter (r.cursor.next + 1)
      obtain ⟨n, hadvance, -, -⟩ :=
        exists_advance (r.afterLoad s t' (r.rowsWanted s batch)) (r.cursor.next + 1)
      rw [hadvance] at hget hadvanced
      rw [hget]
      exact hr.move hsegment ht' hadvanced
    · obtain ⟨e, batch', stats', hget, -⟩ := hget
      rw [hget]
      exact hr.move hsegment ht' (.inr ⟨hnext, hlast⟩)
  · obtain ⟨result, hget⟩ := getBlock_idle hloading batch g stats
    rw [hget, marksAfter, if_neg hloading]
    exact hr

/-- Whatever call is made, the column readers stand at the marks that it leaves. -/
theorem tracked_call {h : Session} (hr : h.reader.Tracked s segmentId context file m) (hfits : s.Fits)
    (hlossless : s.Lossless) {c : Call} (hcall : c.Fits s segmentId context file) :
    (h.call c).reader.Tracked s segmentId context file (marksAfter s h.reader m c) := by
  cases c with
  | init fillCache g cache stats => exact tracked_init hr hfits hlossless hcall
  | seek first last unfiltered g stats =>
    exact tracked_seekToBlock hr hfits hlossless hcall first last unfiltered stats
  | get batch g stats => exact tracked_getBlock hr hfits hcall

namespace Session

/-- Where the column readers stand after some calls. -/
def marks (s : WrittenSegment) (h : Session) (m : Marks) : List Call → Marks
  | [] => m
  | c :: calls => marks s (h.call c) (marksAfter s h.reader m c) calls

/-- Where the column readers of a new reader stand after some calls. -/
def marksOfRun (s : WrittenSegment) (segmentId : UInt32) (context : ReadContext) (calls : List Call) :
    Marks :=
  marks s ⟨make segmentId context, none⟩ (fun _ => 0) calls

theorem tracked_run (hfits : s.Fits) (hlossless : s.Lossless) {calls : List Call}
    (hcalls : ∀ c ∈ calls, c.Fits s segmentId context file) :
    (run segmentId context calls).reader.Tracked s segmentId context file
      (marksOfRun s segmentId context calls) := by
  have hrun : ∀ (h : Session) (m : Marks), h.reader.Tracked s segmentId context file m →
      (calls.foldl call h).reader.Tracked s segmentId context file (marks s h m calls) := by
    induction calls with
    | nil => exact fun h m hr => hr
    | cons c calls ih =>
      obtain ⟨hcall, hcalls⟩ := List.forall_mem_cons.mp hcalls
      intro h m hr
      exact ih hcalls (h.call c) _ (tracked_call hr hfits hlossless hcall)
  exact hrun ⟨make segmentId context, none⟩ _ tracked_make

end Session

end SegmentReader

end SegmentStore
