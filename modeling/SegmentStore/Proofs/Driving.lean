import SegmentStore.Proofs.Scanning
import SegmentStore.Proofs.Seeking

/-!
# Scanning a written segment

* `SegmentReader.Loads` drives a reader block by block until the end of the scan.
* `SegmentReader.Between` is the invariant of the loop: the readers stand at the next block, or have to be
  led there first.
* `SegmentReader.getBlock_between` is the step and `SegmentReader.loads_of` the run.
* `SegmentReader.scan_returns_rows` says that a scan gives back the rows that were written.
-/

namespace SegmentStore

/-- The rows held by a batch. -/
def RowBatch.rows (b : RowBatch) : List (List Value) := (List.range b.size).map b.row

namespace SegmentReader

/-- Blocks are loaded one by one until the end of the scan, each giving the rows of the batch. -/
inductive Loads (g : SegmentGroup) :
    ScanPosition → SegmentReader → RowBatch → ScanStatistics → List (List (List Value)) → Prop
  | done {p : ScanPosition} {r : SegmentReader} {b : RowBatch} {stats : ScanStatistics}
      (heof : p.eof = true) : Loads g p r b stats []
  | block {p p' : ScanPosition} {r r' : SegmentReader} {b b' : RowBatch}
      {stats stats' : ScanStatistics} {rest : List (List (List Value))} (heof : p.eof = false)
      (hget : r.getBlock b g stats = (.ok p', r', b', stats')) (hrest : Loads g p' r' b' stats' rest) :
      Loads g p r b stats (b'.rows :: rest)

variable {s : WrittenSegment} {r : SegmentReader} {g : SegmentGroup} {file : FileId} {o : OpenSegment}
variable {ids : List ColumnId} {block : Nat}

/-- A reader of a written segment that is about to load a block into the columns `ids`. -/
structure Between (r : SegmentReader) (g : SegmentGroup) (s : WrittenSegment) (file : FileId)
    (o : OpenSegment) (ids : List ColumnId) (block : Nat) : Prop where
  segment : r.segment? = some o
  opened : o.file = file
  written : o.Of s r.context.used
  bytes : (g.files.content file).data.toList = s.bytes
  next : r.cursor.next = block
  last : r.cursor.last + 1 = s.blocks.length
  eof : r.cursor.eof = decide (s.blocks.length ≤ block)
  /-- No block is left out. -/
  included : ∀ m, r.blocks? = some m → ∀ b < s.blocks.length, m.get b ≠ .excluded
  readers : ∃ t, r.readers? = some t ∧ t.Of s (r.scanFile g file) r.context.used
    ∧ (r.cursor.needsSeek = false → r.cursor.current = block →
        t.At s (r.scanFile g file) ids (s.rowsFrom block))

/-! ### Moving on -/

/-- Where no block is left out, the scan moves on to the very next one. -/
theorem firstIncluded_eq {m : BlockMap} {last : Nat} (h : ∀ b ≤ last, m.get b ≠ .excluded)
    (block fuel : Nat) : firstIncluded m last block fuel = block := by
  cases fuel with
  | zero => rfl
  | succ fuel =>
    rw [firstIncluded, if_neg]
    rintro ⟨hle, hexcluded⟩
    exact h block hle hexcluded

theorem advance_eq (h : ∀ m, r.blocks? = some m → ∀ b ≤ r.cursor.last, m.get b ≠ .excluded)
    (block : Nat) :
    r.advance block = { r with cursor :=
      { r.cursor with next := block, eof := r.cursor.eof || decide (r.cursor.last < block) } } := by
  obtain ⟨segmentId, context, segment?, readers?, blocks?, cursor⟩ := r
  obtain ⟨current, next, last, eof, unfiltered, needsSeek⟩ := cursor
  cases blocks? with
  | none => rfl
  | some m =>
    cases unfiltered with
    | true => rfl
    | false =>
      have hfirst := firstIncluded_eq (h m rfl) block (last + 1 - block)
      simp only [advance, hfirst]

/-! ### The size of a block -/

/-- The rows that are loaded are those of the block. -/
theorem rowsToLoad_of (ho : o.Of s r.context.used) (hfits : s.Fits) {capacity : Nat}
    (hcapacity : s.options.rowsPerBlock.toNat ≤ capacity) (hblock : block < s.blocks.length) :
    rowsToLoad o block capacity = s.blocks[block].length := by
  have hlength := length_getElem_pieces s.rowsPerBlock_pos hblock
  have hcount : o.info.header.rowCount.toNat = s.rows.length := by
    rw [ho.info]
    exact WrittenSegment.rowCount_toNat hfits
  rw [rowsToLoad, ho.rowsPerBlock, ho.indexes.blockCount, hcount, Nat.min_eq_right hcapacity]
  by_cases hlast : block + 1 = s.blocks.length
  · rw [if_pos hlast]
    exact hlength.symm
  · have hnext : block + 1 < s.blocks.length := by omega
    have hbefore := length_take_pieces hnext
    have hle : ((pieces s.options.rowsPerBlock.toNat s.rows).take (block + 1)).flatten.length
        ≤ s.rows.length := by
      have hflat := congrArg List.length (pieces_flatten s.options.rowsPerBlock.toNat s.rows)
      rw [← List.take_append_drop (block + 1) (pieces s.options.rowsPerBlock.toNat s.rows),
        List.flatten_append, List.length_append] at hflat
      omega
    rw [hbefore, Nat.mul_succ] at hle
    rw [if_neg hlast]
    show s.options.rowsPerBlock.toNat = (pieces s.options.rowsPerBlock.toNat s.rows)[block].length
    rw [hlength]
    omega

/-- Vectors that hold the cells of some rows give these rows across. -/
theorem rows_of_filled {rows : List (List Value)} {b : RowBatch} (hb : Filled s rows b.columns)
    (hsize : b.size = rows.length) :
    b.rows = rows.map fun row => b.columnIds.map (s.cell row) := by
  refine List.ext_getElem (by simp [RowBatch.rows, hsize]) fun i hi hi' => ?_
  rw [List.length_map] at hi'
  simp only [RowBatch.rows, List.getElem_map, List.getElem_range]
  change b.columns.map (fun c => c.vector.get i) = (b.columns.map (·.id)).map (s.cell rows[i])
  rw [List.map_map]
  refine List.map_congr_left fun c hc => ?_
  rw [ColumnVector.Holds.get (hb c hc) (by simpa using hi'), List.getElem_map]
  rfl

/-! ### One block -/

/-- The columns stand at the block, or are led there. -/
theorem positionColumns_between (hr : r.Between g s file o ids block) (hblock : block < s.blocks.length)
    (hids : ids ⊆ r.context.used) {batch : RowBatch} (hbatch : batch.columnIds = ids)
    {t : ReaderTable} (ht : r.readers? = some t) :
    ∃ r' t', r.positionColumns (r.scanFile g file) o t batch = (.ok (), r')
      ∧ r'.Between g s file o ids block ∧ r'.context = r.context ∧ r'.readers? = some t'
      ∧ r'.cursor.current = block ∧ t'.Of s (r.scanFile g file) r.context.used
      ∧ t'.At s (r.scanFile g file) ids (s.rowsFrom block) := by
  obtain ⟨t', ht', hof, hat⟩ := hr.readers
  obtain rfl : t = t' := Option.some.inj (ht.symm.trans ht')
  rw [positionColumns, hr.next, hbatch]
  by_cases hmove : (r.cursor.needsSeek || decide (block ≠ r.cursor.current)) = true
  · have hnone : t.At s (r.scanFile g file) [] (s.rowsFrom block) := fun a ha =>
      absurd ha List.not_mem_nil
    obtain ⟨t', hseek, hof', hat'⟩ := seekColumns_of hr.written hblock hids hof hnone
    rw [List.nil_append] at hat'
    refine ⟨{ r with readers? := some t', cursor :=
      { r.cursor with current := block, needsSeek := false } }, t', ?_,
      ⟨hr.segment, hr.opened, hr.written, hr.bytes, hr.next, hr.last, hr.eof, hr.included,
        t', rfl, hof', fun _ _ => hat'⟩, rfl, rfl, rfl, hof', hat'⟩
    rw [if_pos hmove, hseek]
  · rw [Bool.or_eq_true, not_or, decide_eq_true_iff, not_not, Bool.not_eq_true] at hmove
    obtain ⟨hneeds, hcurrent⟩ := hmove
    refine ⟨r, t, ?_, hr, rfl, ht, hcurrent.symm, hof, hat hneeds hcurrent.symm⟩
    rw [if_neg (by simp [hneeds, hcurrent])]

/-- The block at which the columns stand is loaded, and the reader is about to load the next one. -/
theorem loadBlock_between (hr : r.Between g s file o ids block) (hfits : s.Fits)
    (hblock : block < s.blocks.length) (hnodup : ids.Nodup) (hdefaults : AcceptsDefaults s ids)
    {batch : RowBatch} (hbatch : batch.columnIds = ids) (htyped : Typed s batch.columns)
    (hcapacity : s.options.rowsPerBlock.toNat ≤ batch.capacity) {t : ReaderTable}
    (hcurrent : r.cursor.current = block) (hof : t.Of s (r.scanFile g file) r.context.used)
    (hat : t.At s (r.scanFile g file) ids (s.rowsFrom block)) :
    ∃ r' batch', r.loadBlock (r.scanFile g file) o t batch
        = (.ok s.blocks[block].length, r', batch')
      ∧ r'.Between g s file o ids (block + 1) ∧ r'.context = r.context
      ∧ batch'.columnIds = ids ∧ Typed s batch'.columns ∧ batch'.capacity = batch.capacity
      ∧ batch'.rows = (s.blocks[block].map fun row => ids.map (s.cell row))
      ∧ ∃ t', r'.readers? = some t' ∧ t'.At s (r.scanFile g file) ids (s.rowsFrom (block + 1)) := by
  have hrows : ∀ row ∈ s.blocks[block], row ∈ s.rows := by
    intro row hrow
    rw [← WrittenSegment.block_eq hblock] at hrow
    exact WrittenSegment.mem_rows hrow
  have hcolumns : batch.columns.map (·.id) = ids := hbatch
  rw [WrittenSegment.rowsFrom_eq hblock] at hat
  have hnone : t.At s (r.scanFile g file) ([].map BatchColumn.id) (s.rowsFrom (block + 1)) :=
    fun a ha => absurd ha List.not_mem_nil
  obtain ⟨t', cs, hread, hof', hat', hfilled, hcids, htyped'⟩ :=
    readColumns_of hrows [] (List.nil_append batch.columns).symm htyped
      (by rwa [List.nil_append, hcolumns]) (by rwa [hcolumns]) hof hnone (by rwa [hcolumns])
  rw [List.nil_append, List.length_nil] at hread
  rw [List.nil_append, hcolumns] at hat'
  have hload := rowsToLoad_of hr.written hfits hcapacity hblock
  let cursor := if s.blocks[block].length = o.rowsPerBlock then { r.cursor with current := block + 1 }
    else { r.cursor with needsSeek := true }
  have hcursor : cursor.last = r.cursor.last ∧ cursor.eof = r.cursor.eof ∧ cursor.next = r.cursor.next
      ∧ (cursor.needsSeek = false → cursor.current = block + 1) := by
    by_cases hfull : s.blocks[block].length = o.rowsPerBlock
    · simp only [cursor, if_pos hfull, and_self, implies_true]
    · simp only [cursor, if_neg hfull, Bool.true_eq_false, and_self, false_implies]
  obtain ⟨hlast, heof, hnext, hstand⟩ := hcursor
  let moved : SegmentReader := { r with readers? := some t', cursor }
  obtain ⟨status, hloaded⟩ : ∃ status, r.loadBlock (r.scanFile g file) o t batch
      = (.ok s.blocks[block].length, moved.advance (cursor.next + 1),
          ⟨cs, batch.capacity, s.blocks[block].length, status⟩) := by
    rw [loadBlock, hcurrent, hload, hread]
    exact ⟨_, rfl⟩
  let batch' : RowBatch := ⟨cs, batch.capacity, s.blocks[block].length, status⟩
  have hadvance := advance_eq (r := moved) (by
    intro m hm b hb
    refine hr.included m hm b ?_
    have hb : b ≤ cursor.last := hb
    have := hr.last
    omega) (block + 1)
  have hlastBlock := hr.last
  refine ⟨moved.advance (block + 1), batch', ?_, ?_, ?_, hcids.trans hcolumns, htyped', rfl, ?_, ?_⟩
  · rw [hloaded, hnext, hr.next]
  · rw [hadvance]
    refine ⟨hr.segment, hr.opened, hr.written, hr.bytes, rfl, ?_, ?_, hr.included, t', rfl, hof',
      fun _ _ => hat'⟩
    · show cursor.last + 1 = s.blocks.length
      rw [hlast, hlastBlock]
    · show (cursor.eof || decide (cursor.last < block + 1)) = _
      rw [heof, hlast, hr.eof, decide_eq_false (by omega), Bool.false_or, decide_eq_decide]
      omega
  · rw [hadvance]
  · rw [rows_of_filled (b := batch') hfilled rfl]
    have hbatchIds : batch'.columnIds = ids := hcids.trans hcolumns
    rw [hbatchIds]
  · rw [hadvance]
    exact ⟨t', rfl, hat'⟩

/-- The next block is loaded, and the reader is about to load the one after it, whose rows are next in the columns. -/
theorem getBlock_between (hr : r.Between g s file o ids block) (hfits : s.Fits)
    (hblock : block < s.blocks.length) (hids : ids ⊆ r.context.used) (hnodup : ids.Nodup)
    (hdefaults : AcceptsDefaults s ids) {batch : RowBatch} (hbatch : batch.columnIds = ids)
    (htyped : Typed s batch.columns) (hcapacity : s.options.rowsPerBlock.toNat ≤ batch.capacity)
    (stats : ScanStatistics) :
    ∃ r' batch' stats', r.getBlock batch g stats = (.ok r'.cursor.position, r', batch', stats')
      ∧ r'.Between g s file o ids (block + 1) ∧ r'.context = r.context
      ∧ batch'.columnIds = ids ∧ Typed s batch'.columns ∧ batch'.capacity = batch.capacity
      ∧ batch'.rows = (s.blocks[block].map fun row => ids.map (s.cell row))
      ∧ ∃ t', r'.readers? = some t' ∧ t'.At s (r.scanFile g file) ids (s.rowsFrom (block + 1)) := by
  obtain ⟨t, ht, -, -⟩ := hr.readers
  obtain ⟨r₁, t₁, hposition, hr₁, hcontext₁, ht₁, hcurrent₁, hof₁, hat₁⟩ :=
    positionColumns_between hr hblock hids hbatch ht
  have hfile : r₁.scanFile g file = r.scanFile g file := by rw [scanFile, scanFile, hcontext₁]
  obtain ⟨r₂, batch', hload, hr₂, hcontext₂, hbatch'⟩ := loadBlock_between hr₁ hfits hblock hnodup
    hdefaults hbatch htyped hcapacity hcurrent₁ (by rwa [hfile, hcontext₁]) (by rwa [hfile])
  rw [hfile] at hload hbatch'
  have heof : r.cursor.eof = false := by
    rw [hr.eof]
    exact decide_eq_false (by omega)
  have hopened : (⟨r.context.options.backend, g.files.content o.file⟩ : SegmentFile)
      = r.scanFile g file := by rw [scanFile, hr.opened]
  refine ⟨r₂, batch', (stats.addTraffic (trafficSince t (r₂.readers?.getD []))).addBlock
    s.blocks[block].length, ?_, hr₂, hcontext₂.trans hcontext₁, hbatch'⟩
  rw [getBlock, heof, hr.segment, ht, if_neg (by decide)]
  simp only [hopened, hposition]
  simp only [ht₁, Option.getD_some, hload]

/-! ### The whole scan -/

/-- From any block on the blocks are loaded one after the other, and then the scan ends. -/
theorem loads_of (hr : r.Between g s file o ids block) (hfits : s.Fits)
    (hids : ids ⊆ r.context.used) (hnodup : ids.Nodup) (hdefaults : AcceptsDefaults s ids)
    {batch : RowBatch} (hbatch : batch.columnIds = ids) (htyped : Typed s batch.columns)
    (hcapacity : s.options.rowsPerBlock.toNat ≤ batch.capacity) (stats : ScanStatistics) :
    Loads g r.cursor.position r batch stats
      ((s.blocks.drop block).map fun rows => rows.map fun row => ids.map (s.cell row)) := by
  -- the induction is on the blocks that are left
  generalize hleft : s.blocks.length - block = left
  induction left generalizing r block batch stats with
  | zero =>
    have hpast : s.blocks.length ≤ block := by omega
    rw [List.drop_eq_nil_of_le hpast]
    refine .done ?_
    show r.cursor.eof = true
    rw [hr.eof, decide_eq_true hpast]
  | succ left ih =>
    have hblock : block < s.blocks.length := by omega
    obtain ⟨r', batch', stats', hget, hr', hcontext, hbatch', htyped', hcapacity', hrows, -⟩ :=
      getBlock_between hr hfits hblock hids hnodup hdefaults hbatch htyped hcapacity stats
    have hrest := ih hr' (by rwa [hcontext]) hbatch' htyped' (by rwa [hcapacity']) stats' (by omega)
    rw [List.drop_eq_getElem_cons hblock, List.map_cons, ← hrows]
    refine .block ?_ hget hrest
    show r.cursor.eof = false
    rw [hr.eof, decide_eq_false (by omega)]

/-- A seek over all blocks leaves none out, unless deletes or conditions do. -/
theorem between_ranged (hr : r.Opened g s file o) {unfiltered : Bool}
    (hall : unfiltered = false → r.context.conditions? = none ∧ r.context.deletes? = none)
    (hcount : 0 < s.blocks.length) {t : ReaderTable} (ht : t.Of s (r.scanFile g file) r.context.used) :
    (({ r with readers? := some t }.ranged (s.blocks.length - 1) unfiltered
      ({ r with readers? := some t }.pruneRequest o g |>.pruned 0 (s.blocks.length - 1))).advance
        0).Between g s file o ids 0 := by
  let q := { r with readers? := some t : SegmentReader }.pruneRequest o g
  let moved := { r with readers? := some t : SegmentReader }.ranged (s.blocks.length - 1) unfiltered
    (q.pruned 0 (s.blocks.length - 1))
  have hblocks : q.indexes.blockCount = s.blocks.length := hr.written.indexes.blockCount
  have hincluded : ∀ m, moved.blocks? = some m → ∀ b ≤ s.blocks.length - 1, m.get b ≠ .excluded := by
    intro m hm b hb
    cases unfiltered with
    | true => simp [moved, ranged] at hm
    | false =>
      obtain rfl : (q.pruned 0 (s.blocks.length - 1)).blocks = m := by
        simpa [moved, ranged] using hm
      obtain ⟨hconditions, hdeletes⟩ := hall rfl
      have hactive : q.activeDeletes = [] := PruneRequest.activeDeletes_of_none hdeletes
      have hend : s.blocks.length - 1 < q.indexes.blockCount := by omega
      obtain ⟨-, hget⟩ := PruneRequest.get_deletePhase_make 0 hend
      rw [PruneRequest.pruned_of_none hconditions, hget, if_pos ⟨Nat.zero_le b, hb⟩, hactive,
        List.foldl_nil]
      decide
  have hadvance : moved.advance 0 = { moved with cursor :=
      { moved.cursor with next := 0, eof := moved.cursor.eof || decide (moved.cursor.last < 0) } } :=
    advance_eq hincluded 0
  show (moved.advance 0).Between g s file o ids 0
  rw [hadvance]
  refine ⟨hr.segment, hr.opened, hr.written, hr.hosts.bytes, rfl, ?_, ?_, ?_, t, rfl, ht, ?_⟩
  · show s.blocks.length - 1 + 1 = s.blocks.length
    omega
  · show (false || decide (s.blocks.length - 1 < 0)) = decide (s.blocks.length ≤ 0)
    rw [Bool.false_or, decide_eq_decide]
    omega
  · exact fun m hm b hb => hincluded m hm b (by omega)
  · intro hneeds
    cases hneeds

/-- A seek over all blocks that leaves none out, however far the range goes beyond them. -/
theorem seekToBlock_unpruned (hr : r.Opened g s file o) (hfits : s.Fits) (hlossless : s.Lossless)
    {unfiltered : Bool}
    (hall : unfiltered = false → r.context.conditions? = none ∧ r.context.deletes? = none) (last : Nat)
    (hlast : s.blocks.length ≤ last + 1) (ids : List ColumnId) (stats : ScanStatistics) :
    ∃ r' stats', r.seekToBlock 0 last unfiltered g stats = (.ok r'.cursor.position, r', stats')
      ∧ r'.context = r.context
      ∧ (s.blocks = [] ∧ r'.cursor.eof = true ∨ r'.Between g s file o ids 0) := by
  obtain ⟨t, ht, hseek⟩ := seekToBlock_of hr hfits hlossless 0 last unfiltered stats
  have hcount := hr.written.indexes.blockCount
  by_cases hempty : s.blocks = []
  · have hzero : o.indexes.blockCount = 0 := by rw [hcount, hempty, List.length_nil]
    refine ⟨⟨r.segmentId, r.context, r.segment?, some t, none,
      ⟨r.cursor.current, 0, 0, true, unfiltered, true⟩⟩, stats, ?_, rfl, .inl ⟨hempty, rfl⟩⟩
    rw [hseek]
    simp only [seekRange, hzero, if_true]
  · have hpos : 0 < s.blocks.length := List.length_pos_iff.mpr hempty
    have hend : min last (o.indexes.blockCount - 1) = s.blocks.length - 1 := by omega
    have hne : o.indexes.blockCount ≠ 0 := by omega
    obtain ⟨stats', hranged⟩ := seekRange_eq { r with readers? := some t } g last unfiltered hne
      (fun _ => Nat.zero_le _) stats
    rw [hend] at hranged
    exact ⟨_, stats', hseek.trans hranged, rfl,
      .inr (between_ranged hr hall hpos ht)⟩

/-- Without conditions and deletes nothing is pruned. -/
theorem seekToBlock_all (hr : r.Opened g s file o) (hfits : s.Fits) (hlossless : s.Lossless)
    (hconditions : r.context.conditions? = none) (hdeletes : r.context.deletes? = none) (last : Nat)
    (hlast : s.blocks.length ≤ last + 1) (unfiltered : Bool) (ids : List ColumnId)
    (stats : ScanStatistics) :
    ∃ r' stats', r.seekToBlock 0 last unfiltered g stats = (.ok r'.cursor.position, r', stats')
      ∧ r'.context = r.context
      ∧ (s.blocks = [] ∧ r'.cursor.eof = true ∨ r'.Between g s file o ids 0) :=
  seekToBlock_unpruned hr hfits hlossless (fun _ => ⟨hconditions, hdeletes⟩) last hlast ids stats

/-- The empty column of a batch. -/
def emptyColumn (schema : TabletSchema) (cid : ColumnId) : Except StorageError BatchColumn :=
  match schema.column? cid with
  | some c => .ok ⟨cid, c.type, .empty c.type⟩
  | none => .error (.invalidColumn cid)

/-- An empty batch for columns of the table. -/
theorem exists_batch (hids : ∀ cid ∈ ids, (s.schema.column? cid).isSome) (capacity : Nat) :
    ∃ batch, RowBatch.make s.schema ids capacity = .ok batch ∧ batch.columnIds = ids
      ∧ Typed s batch.columns ∧ batch.capacity = capacity := by
  have hcolumns : ∃ columns, ids.map (emptyColumn s.schema) = columns.map .ok
      ∧ columns.map (·.id) = ids ∧ Typed s columns := by
    induction ids with
    | nil => exact ⟨[], rfl, rfl, by simp [Typed]⟩
    | cons cid ids ih =>
      obtain ⟨columns, hmap, hcids, htyped⟩ := ih fun a ha => hids a (List.mem_cons_of_mem cid ha)
      obtain ⟨c, hc⟩ := Option.isSome_iff_exists.mp (hids cid List.mem_cons_self)
      refine ⟨⟨cid, c.type, .empty c.type⟩ :: columns, ?_, ?_, ?_⟩
      · rw [List.map_cons, List.map_cons, hmap, emptyColumn, hc]
      · rw [List.map_cons, hcids]
      · exact List.forall_mem_cons.mpr ⟨⟨c, hc, rfl⟩, htyped⟩
  obtain ⟨columns, hmap, hcids, htyped⟩ := hcolumns
  refine ⟨⟨columns, capacity, 0, .needsRowFilter⟩, ?_, hcids, htyped, rfl⟩
  show (ids.mapM (emptyColumn s.schema)).bind _ = _
  rw [mapM_eq_ok.mpr hmap]
  rfl

/-- A scan of a written segment gives back its rows, block by block, in the columns that were asked
for. -/
theorem scan_returns_rows (s : WrittenSegment) (hfits : s.Fits) (hlossless : s.Lossless)
    {r : SegmentReader} {g : SegmentGroup} {file : FileId} (hg : g.Hosts r.segmentId s file)
    {cache : IndexCache}
    (hcache : r.context.cached = true → cache.Agrees (g.segmentPath r.segmentId) s)
    (hconditions : r.context.conditions? = none) (hdeletes : r.context.deletes? = none)
    (hused : ∀ cid ∈ r.context.used, (s.schema.column? cid).isSome)
    (hbloom : ∀ cid ∈ r.context.bloomColumns, (s.schema.column? cid).isSome)
    {ids : List ColumnId} (hids : ids ⊆ r.context.used) (hnodup : ids.Nodup)
    (hdefaults : AcceptsDefaults s ids) {capacity : Nat}
    (hcapacity : s.options.rowsPerBlock.toNat ≤ capacity) (fillCache unfiltered : Bool)
    (stats : ScanStatistics) :
    (r.init fillCache g cache stats).result = .ok ()
      ∧ ∃ batch, RowBatch.make s.schema ids capacity = .ok batch
      ∧ ∃ p r' stats', (r.init fillCache g cache stats).reader.seekToBlock 0 (2 ^ 32 - 1) unfiltered
          (r.init fillCache g cache stats).group (r.init fillCache g cache stats).stats
            = (.ok p, r', stats')
      ∧ ∃ blocks, Loads (r.init fillCache g cache stats).group p r' batch stats' blocks
      ∧ blocks.length = (s.rows.length + s.options.rowsPerBlock.toNat - 1)
          / s.options.rowsPerBlock.toNat
      ∧ blocks.flatten = s.rows.map fun row => ids.map (s.cell row) := by
  have hcheck : checkContext r.context s.schema = .ok () := by
    simp only [checkContext, hconditions, hdeletes]
    rfl
  have hresult := (init_result_iff hg hfits hlossless hcache fillCache stats).mpr
    ⟨hcheck, hused, hbloom⟩
  obtain ⟨o, hopened, hcontext, -⟩ := init_opened hg hfits hlossless hcache hresult
  obtain ⟨batch, hmake, hbatch, htyped, hbatchCapacity⟩ :=
    exists_batch (s := s) (fun cid hcid => hused cid (hids hcid)) capacity
  have hblocks := hfits.blocks
  obtain ⟨r', stats', hseek, hcontext', hstart⟩ := seekToBlock_all hopened hfits hlossless
    (by rwa [hcontext]) (by rwa [hcontext]) (2 ^ 32 - 1) (by omega) unfiltered ids
    (r.init fillCache g cache stats).stats
  refine ⟨hresult, batch, hmake, r'.cursor.position, r', stats', hseek, ?_⟩
  let project : List (List Value) → List (List Value) := fun rows =>
    rows.map fun row => ids.map (s.cell row)
  refine ⟨s.blocks.map project, ?_, ?_, ?_⟩
  · rcases hstart with ⟨hempty, heof⟩ | hbetween
    · rw [hempty]
      exact .done heof
    · have hloads := loads_of hbetween hfits (by rwa [hcontext', hcontext]) hnodup hdefaults hbatch
        htyped (by rwa [hbatchCapacity]) stats'
      rwa [List.drop_zero] at hloads
  · rw [List.length_map, s.length_blocks]
  · rw [← List.map_flatten, WrittenSegment.blocks, pieces_flatten]

/-- Notes, keys and values of the small segment, read without a cache. -/
def sampleContext : ReadContext := ⟨[2, 0, 1], [], none, none, .unknown, false, .default⟩

/-- Keys, read without a cache. -/
def keysContext : ReadContext := ⟨[0], [], none, none, .unknown, false, .default⟩

/-- The small segment is scanned, and one whose chunks are compressed. -/
theorem scan_returns_rows_sample :
    let opened := (make 0 sampleContext).init true (.single .sample) .empty .zero
    let packed := (make 0 keysContext).init true (.single .runs) .empty .zero
    (opened.result = .ok ()
      ∧ ∃ batch, RowBatch.make WrittenSegment.sample.schema [2, 0, 1] 2 = .ok batch
      ∧ ∃ p r stats, opened.reader.seekToBlock 0 (2 ^ 32 - 1) false opened.group opened.stats
          = (.ok p, r, stats)
      ∧ ∃ blocks, Loads opened.group p r batch stats blocks ∧ blocks.length = 2
      ∧ blocks.flatten = [[.string "new", .int32 7, .float64 .zero],
          [.string "new", .null, .float64 ⟨0x3FF0000000000000⟩],
          [.string "new", .int32 3, .float64 ⟨0x4000000000000000⟩]])
      ∧ packed.result = .ok ()
      ∧ ∃ batch, RowBatch.make WrittenSegment.runs.schema [0] 6 = .ok batch
      ∧ ∃ p r stats, packed.reader.seekToBlock 0 (2 ^ 32 - 1) false packed.group packed.stats
          = (.ok p, r, stats)
      ∧ ∃ blocks, Loads packed.group p r batch stats blocks ∧ blocks.length = 3
      ∧ blocks.flatten = WrittenSegment.runsRows := by
  have hdefaults : AcceptsDefaults WrittenSegment.sample [2, 0, 1] := by
    intro cid hcid habsent c hc
    obtain rfl | rfl | rfl : cid = 2 ∨ cid = 0 ∨ cid = 1 := by simpa using hcid
    · obtain rfl := Option.some.inj hc
      rfl
    · exact absurd (by decide) habsent
    · exact absurd (by decide) habsent
  have hcapacity : WrittenSegment.sample.options.rowsPerBlock.toNat ≤ 2 := by decide
  have hcache : (make 0 sampleContext).context.cached = true →
      IndexCache.empty.Agrees ((SegmentGroup.single .sample).segmentPath 0) .sample := nofun
  have hstored : AcceptsDefaults WrittenSegment.runs [0] := fun cid hcid habsent => absurd hcid habsent
  have hcache' : (make 0 keysContext).context.cached = true →
      IndexCache.empty.Agrees ((SegmentGroup.single .runs).segmentPath 0) .runs := nofun
  have hcapacity' : WrittenSegment.runs.options.rowsPerBlock.toNat ≤ 6 := by decide
  exact ⟨scan_returns_rows .sample WrittenSegment.fits_sample WrittenSegment.lossless_sample
      (SegmentGroup.hosts_single .sample) hcache rfl rfl (List.all_eq_true.mp rfl) (List.all_eq_true.mp rfl)
      (List.Subset.refl [2, 0, 1]) (by decide) hdefaults hcapacity true false .zero,
    scan_returns_rows .runs WrittenSegment.fits_runs WrittenSegment.lossless_runs
      (SegmentGroup.hosts_single .runs) hcache' rfl rfl (List.all_eq_true.mp rfl) (List.all_eq_true.mp rfl)
      (List.Subset.refl [0]) (by decide) hstored hcapacity' true false .zero⟩

end SegmentReader

end SegmentStore
