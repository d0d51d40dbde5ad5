import SegmentStore.Proofs.Guarded
import SegmentStore.Proofs.Numbering
import SegmentStore.Proofs.Tracking

/-!
# Calls that stay in bounds

No call of a reader looks up a block that is not there or subtracts more rows than there are, whatever the file
holds and whatever was called before.

* `SegmentReader.init_spans` says that the indexes of a segment that could be opened have an entry for each block.
* `SegmentReader.guardedSeekToBlock` and `SegmentReader.guardedGetBlock` are the calls with each lookup and each
  subtraction checked.
* `SegmentReader.InBounds` is what all calls keep. `Session.guardedCall_eq` is the step and `Session.guardedRun_eq`
  the run: no history of calls runs into a check.
-/

namespace SegmentStore

/-! ### Indexes that were loaded -/

theorem BloomFilter.getElem?_split {bits hashes size n : Nat} {bs : Bytes} {i : Nat} {f : BloomFilter}
    (h : (split bits hashes size n bs)[i]? = some f) : i < n ∧ f.bitCount = bits := by
  induction n generalizing bs i with
  | zero => cases h
  | succ n ih =>
    cases i with
    | zero =>
      obtain rfl := Option.some.inj h
      exact ⟨Nat.succ_pos n, rfl⟩
    | succ i =>
      obtain ⟨hi, hbits⟩ := ih h
      exact ⟨Nat.succ_lt_succ hi, hbits⟩

/-- Only as many filters are decoded as lie within the bytes. -/
theorem BloomFilter.sliced_of_decode {bits hashes : Nat} {b : IndexBuffer} {entries : List BloomFilter}
    (h : decode bits hashes b.bytes = .ok entries) : Loaded.Sliced ⟨entries.toArray, b⟩ := by
  intro block f hf
  rw [decode] at h
  split at h
  · cases h
  dsimp only at h
  split at h
  · cases h
  obtain rfl := Except.ok.inj h
  rw [List.getElem?_toArray] at hf
  obtain ⟨hblock, hbits⟩ := getElem?_split hf
  rw [hbits]
  calc (block + 1) * (bits / 8)
      ≤ b.bytes.length / (bits / 8) * (bits / 8) := Nat.mul_le_mul_right _ hblock
    _ ≤ b.bytes.length := Nat.div_mul_le_self _ _

namespace IndexSet

/-- The filters of each bloom filter stream lie within its bytes. -/
def Sliced (set : IndexSet) : Prop := ∀ e ∈ set.blooms, e.2.Sliced

variable {set : IndexSet}

/-- Indexes that agree on the number of blocks have an entry for each, also where a word is too small to hold that
number. -/
theorem Numbered.spans {rowCount rowsPerBlock : Nat}
    (h : set.Numbered ((rowCount + rowsPerBlock - 1) / rowsPerBlock)) (hsliced : set.Sliced)
    (hpos : 0 < rowsPerBlock) : set.Spans rowCount rowsPerBlock := by
  have hcount : set.blockCount ≤ (rowCount + rowsPerBlock - 1) / rowsPerBlock := by
    rw [h.blockCount]
    exact Nat.mod_le _ _
  refine ⟨fun uid z hz => ?_, fun uid b hb => ?_, fun block hblock => ?_⟩
  · rw [(h.zoneMaps _ (mem_of_zoneMap? hz)).1]
    exact hcount
  · rw [h.blooms _ (mem_of_bloom? hb)]
    exact ⟨hcount, hsliced _ (mem_of_bloom? hb)⟩
  · have hstart := (Nat.le_div_iff_mul_le hpos).mp (Nat.lt_of_lt_of_le hblock hcount)
    rw [Nat.succ_mul] at hstart
    omega

end IndexSet

namespace IndexRequest

variable {q : IndexRequest} {l : LocatedStream} {b : IndexBuffer} {set set' : IndexSet}

theorem add_sliced (hset : set.Sliced) (h : q.add l b set = .ok set') : set'.Sliced := by
  obtain ⟨⟨count, decoded⟩, hdecode, h⟩ := bind_eq_ok.mp h
  dsimp only at h
  split at h
  · obtain rfl := Except.ok.inj h
    rw [decode] at hdecode
    split at hdecode
    · obtain ⟨type, -, hdecode⟩ := bind_eq_ok.mp hdecode
      obtain ⟨entries, -, hdecode⟩ := bind_eq_ok.mp hdecode
      obtain ⟨-, rfl⟩ := Prod.mk.inj (Except.ok.inj hdecode)
      exact hset
    · obtain ⟨entries, hentries, hdecode⟩ := bind_eq_ok.mp hdecode
      obtain ⟨-, rfl⟩ := Prod.mk.inj (Except.ok.inj hdecode)
      exact IndexSet.forall_mem_put (BloomFilter.sliced_of_decode (ok_of_liftFault hentries)) hset
  · cases h

theorem load_sliced {cache : IndexCache} (h : (q.load cache).1 = .ok set) : set.Sliced :=
  load_keeps add_sliced (fun _ he => absurd he List.not_mem_nil) h

end IndexRequest

/-- What calls rely on: the indexes have an entry for each block, and no block starts after the last row. -/
def OpenSegment.Spans (o : OpenSegment) : Prop :=
  o.indexes.Spans o.info.header.rowCount.toNat o.rowsPerBlock

namespace SegmentReader

variable {r : SegmentReader} {o : OpenSegment} {g : SegmentGroup} {stats : ScanStatistics}

/-- Whatever a file holds, a segment that could be opened has an entry for each block in each of its indexes. -/
theorem init_spans {fillCache : Bool} {cache : IndexCache}
    (h : (r.init fillCache g cache stats).result = .ok ())
    (ho : (r.init fillCache g cache stats).reader.segment? = some o) : o.Spans := by
  obtain ⟨hpos, hnumbered⟩ := numbered_of_init h ho
  obtain ⟨o', q, hopened, hreader, -⟩ := init_ok h
  rw [hreader] at ho
  obtain rfl : o' = o := Option.some.inj ho
  exact hnumbered.spans (IndexRequest.load_sliced hopened.loaded) hpos

/-! ### Calls with checks -/

def guardedFirstIncluded (m : BlockMap) (last block : Nat) : Nat → Guarded Nat
  | 0 => pure block
  | fuel + 1 =>
    if block ≤ last then do
      let d ← m.guardedGet block
      if d = .excluded then guardedFirstIncluded m last (block + 1) fuel else return block
    else return block

def guardedAdvance (r : SegmentReader) (block : Nat) : Guarded SegmentReader := do
  let next ← match r.blocks?, r.cursor.unfiltered with
    | some m, false => guardedFirstIncluded m r.cursor.last block (r.cursor.last + 1 - block)
    | _, _ => pure block
  return { r with cursor :=
    { r.cursor with next, eof := r.cursor.eof || decide (r.cursor.last < next) } }

def guardedSeekRange (r : SegmentReader) (s : OpenSegment) (first last : Nat) (unfiltered : Bool)
    (group : SegmentGroup) (stats : ScanStatistics) :
    Guarded (Except StorageError ScanPosition × SegmentReader × ScanStatistics) :=
  let count := s.indexes.blockCount
  let cursor : ScanCursor := ⟨r.cursor.current, 0, 0, false, unfiltered, true⟩
  let r := { r with blocks? := none, cursor }
  if count = 0 then
    let r := { r with cursor := { cursor with next := first, eof := true } }
    return (.ok r.cursor.position, r, stats)
  else
    let last := min last (count - 1)
    let r := { r with cursor := { cursor with last } }
    if unfiltered then do
      let r ← r.guardedAdvance first
      return (.ok r.cursor.position, r, stats)
    else do
      match ← (r.pruneRequest s group).guardedPrune first last with
      | .error e => return (.error e, r, stats)
      | .ok p =>
        let r ← { r with blocks? := some p.blocks }.guardedAdvance first
        return (.ok r.cursor.position, r, stats.addFiltered p.deleted p.ruledOut)

def guardedSeekToBlock (r : SegmentReader) (first last : Nat) (unfiltered : Bool) (group : SegmentGroup)
    (stats : ScanStatistics) :
    Guarded (Except StorageError ScanPosition × SegmentReader × ScanStatistics) :=
  match r.segment? with
  | none => return (.error (.argument .notInitialized), r, stats)
  | some s =>
    match r.readers? with
    | some _ => r.guardedSeekRange s first last unfiltered group stats
    | none =>
      match r.makeReaders s group.schema with
      | .error e => return (.error e, r, stats)
      | .ok t => { r with readers? := some t }.guardedSeekRange s first last unfiltered group stats

def guardedSeekColumns (file : SegmentFile) (s : OpenSegment) (block : Nat) :
    List ColumnId → ReaderTable → Guarded (Except StorageError Unit × ReaderTable)
  | [], t => return (.ok (), t)
  | cid :: cids, t =>
    match (s.mapping.uniqueId? cid).bind s.indexes.zoneMap? with
    | none => guardedSeekColumns file s block cids t
    | some z =>
      match t.lookup cid with
      | none => return (.error (.invalidColumn cid), t)
      | some r => do
        let entry ← entryAt .zoneMap z.entries block
        match r.seek file entry.positions with
        | (.ok (), r) => guardedSeekColumns file s block cids (t.set cid r)
        | (.error e, r) => return (.error (seekFailure r.uniqueId block e), t.set cid r)

def guardedRowsToLoad (s : OpenSegment) (block capacity : Nat) : Guarded Nat :=
  let rows := min capacity s.rowsPerBlock
  let rowCount := s.info.header.rowCount.toNat
  if block + 1 = s.indexes.blockCount then do
    let left ← minus (.rows rowCount (s.rowsPerBlock * block)) rowCount (s.rowsPerBlock * block)
    return min rows left
  else return rows

def guardedPositionColumns (r : SegmentReader) (file : SegmentFile) (s : OpenSegment) (t : ReaderTable)
    (batch : RowBatch) : Guarded (Except StorageError Unit × SegmentReader) :=
  let block := r.cursor.next
  if r.cursor.needsSeek || block ≠ r.cursor.current then do
    let (result, t) ← guardedSeekColumns file s block batch.columnIds t
    let r := { r with readers? := some t }
    match result with
    | .ok () =>
      return (.ok (), { r with cursor := { r.cursor with current := block, needsSeek := false } })
    | .error e => return (.error e, r)
  else return (.ok (), r)

/-- How a block of the range has to be looked at. -/
def guardedStatus (r : SegmentReader) (block : Nat) : Guarded Disposition :=
  match r.blocks? with
  | some m => m.guardedGet block
  | none => pure .needsRowFilter

def guardedLoadBlock (r : SegmentReader) (file : SegmentFile) (s : OpenSegment) (t : ReaderTable)
    (batch : RowBatch) : Guarded (Except StorageError Nat × SegmentReader × RowBatch) := do
  let current := r.cursor.current
  let rows ← guardedRowsToLoad s current batch.capacity
  match readColumns file rows batch.columns 0 t batch with
  | (.error e, t, batch) => return (.error e, { r with readers? := some t }, batch)
  | (.ok (), t, batch) =>
    let status ← r.guardedStatus current
    let batch := { batch with size := rows, status }
    let cursor :=
      if rows = s.rowsPerBlock then { r.cursor with current := current + 1 }
      else { r.cursor with needsSeek := true }
    let r := { r with readers? := some t, cursor }
    let r ← r.guardedAdvance (r.cursor.next + 1)
    return (.ok rows, r, batch)

def guardedGetBlock (r : SegmentReader) (batch : RowBatch) (group : SegmentGroup)
    (stats : ScanStatistics) :
    Guarded (Except StorageError ScanPosition × SegmentReader × RowBatch × ScanStatistics) :=
  if r.cursor.eof then return (.ok r.cursor.position, r, batch, stats)
  else
    match r.segment?, r.readers? with
    | none, _ => return (.error (.argument .notInitialized), r, batch, stats)
    | some _, none => return (.error (.argument .notSeeked), r, batch, stats)
    | some s, some t => do
      let file : SegmentFile := ⟨r.context.options.backend, group.files.content s.file⟩
      match ← r.guardedPositionColumns file s t batch with
      | (.error e, r) =>
        let stats := stats.addTraffic (trafficSince t (r.readers?.getD []))
        if e = .dataEof then
          let r := { r with cursor := { r.cursor with eof := true } }
          return (.ok r.cursor.position, r, batch, stats)
        else return (.error e, r, batch, stats)
      | (.ok (), r) =>
        let (result, r, batch) ← r.guardedLoadBlock file s (r.readers?.getD []) batch
        let stats := stats.addTraffic (trafficSince t (r.readers?.getD []))
        match result with
        | .error e => return (.error e, r, batch, stats)
        | .ok rows => return (.ok r.cursor.position, r, batch, stats.addBlock rows)

/-! ### Seeking passes its checks -/

theorem guardedFirstIncluded_eq {m : BlockMap} {last : Nat} (hlast : last < m.dispositions.size)
    (block fuel : Nat) :
    guardedFirstIncluded m last block fuel = pure (firstIncluded m last block fuel) := by
  induction fuel generalizing block with
  | zero => rfl
  | succ fuel ih =>
    rw [guardedFirstIncluded, firstIncluded]
    by_cases hblock : block ≤ last
    · rw [if_pos hblock, BlockMap.guardedGet_eq (Nat.lt_of_le_of_lt hblock hlast), pure_bind]
      by_cases hexcluded : m.get block = .excluded
      · rw [if_pos hexcluded, if_pos ⟨hblock, hexcluded⟩, ih]
      · rw [if_neg hexcluded, if_neg fun h => hexcluded h.2]
    · rw [if_neg hblock, if_neg fun h => hblock h.1]

theorem guardedAdvance_eq (h : ∀ m, r.blocks? = some m → r.cursor.last < m.dispositions.size) (block : Nat) :
    r.guardedAdvance block = pure (r.advance block) := by
  rw [guardedAdvance, advance]
  cases hblocks : r.blocks? with
  | none => rfl
  | some m =>
    cases r.cursor.unfiltered with
    | true => rfl
    | false =>
      dsimp only
      rw [guardedFirstIncluded_eq (h m hblocks), pure_bind]

/-- Pruning that succeeds makes a map of all blocks. -/
theorem size_of_prune {q : PruneRequest} {first last : Nat} {p : PruneState}
    (h : q.prune first last = .ok p) :
    last < q.indexes.blockCount ∧ p.blocks.dispositions.size = q.indexes.blockCount := by
  by_cases hvalid : first ≤ last ∧ last < q.indexes.blockCount
  · rw [PruneRequest.prune_eq hvalid.1 hvalid.2] at h
    obtain rfl := Except.ok.inj h
    exact ⟨hvalid.2, PruneRequest.size_pruned hvalid.2⟩
  · rw [PruneRequest.prune] at h
    dsimp only at h
    rw [if_pos (by rw [Bool.or_eq_true, decide_eq_true_iff, decide_eq_true_iff]; omega)] at h
    cases h

theorem guardedSeekRange_eq (ho : o.Spans) (r : SegmentReader) (first last : Nat) (unfiltered : Bool)
    (g : SegmentGroup) (stats : ScanStatistics) :
    r.guardedSeekRange o first last unfiltered g stats
      = pure (r.seekRange o first last unfiltered g stats) := by
  rw [guardedSeekRange, seekRange]
  dsimp only
  split
  · rfl
  split
  · rw [guardedAdvance_eq (fun m hm => absurd hm.symm (Option.some_ne_none m)), pure_bind]
  · have hq : ∀ r : SegmentReader, (r.pruneRequest o g).Spans := fun _ => ho
    rw [PruneRequest.guardedPrune_eq (hq _), pure_bind]
    generalize hprune : PruneRequest.prune _ first (min last (o.indexes.blockCount - 1)) = result
    cases result with
    | error e => rfl
    | ok p =>
      obtain ⟨hlast, hsize⟩ := size_of_prune hprune
      dsimp only
      rw [guardedAdvance_eq, pure_bind]
      intro m hm
      rw [← Option.some.inj hm, hsize]
      exact hlast

/-! ### What calls keep -/

/-- The indexes span the blocks, the map has all of them, and the next block exists unless the scan is at its
end. -/
structure InBounds (r : SegmentReader) : Prop where
  spans : ∀ o, r.segment? = some o → o.Spans
  blocks : ∀ o m, r.segment? = some o → r.blocks? = some m → m.dispositions.size = o.indexes.blockCount
  bounded : ∀ o, r.segment? = some o → r.readers? ≠ none → r.Bounded o.indexes.blockCount

theorem inBounds_make (segmentId : UInt32) (context : ReadContext) : (make segmentId context).InBounds where
  spans := fun o ho => absurd ho.symm (Option.some_ne_none o)
  blocks := fun o _ ho => absurd ho.symm (Option.some_ne_none o)
  bounded := fun o ho => absurd ho.symm (Option.some_ne_none o)

theorem InBounds.init (h : r.InBounds) (fillCache : Bool) (g : SegmentGroup) (cache : IndexCache)
    (stats : ScanStatistics) : (r.init fillCache g cache stats).reader.InBounds := by
  rcases init_cases r fillCache g cache stats with ⟨-, hsame⟩ | ⟨hresult, hnone⟩
  · rwa [hsame]
  · obtain ⟨o, q, -, hreader, -⟩ := init_ok hresult
    refine ⟨fun o' ho' => init_spans hresult ho', fun _ m _ hm => ?_, fun _ _ hmade => absurd hnone hmade⟩
    rw [hreader] at hm
    exact absurd hm.symm (Option.some_ne_none m)

theorem advance_blocks (r : SegmentReader) (block : Nat) : (r.advance block).blocks? = r.blocks? := by
  obtain ⟨n, hadvance, -, -⟩ := exists_advance r block
  rw [hadvance]

/-- The map that a seek leaves, if any, has all blocks. -/
theorem seekRange_blocks (r : SegmentReader) (o : OpenSegment) (first last : Nat) (unfiltered : Bool)
    (g : SegmentGroup) (stats : ScanStatistics) {m : BlockMap}
    (h : (r.seekRange o first last unfiltered g stats).2.1.blocks? = some m) :
    m.dispositions.size = o.indexes.blockCount := by
  rw [seekRange] at h
  dsimp only at h
  split at h
  · exact absurd h.symm (Option.some_ne_none m)
  split at h
  · rw [advance_blocks] at h
    exact absurd h.symm (Option.some_ne_none m)
  split at h
  · exact absurd h.symm (Option.some_ne_none m)
  · rename_i hprune
    rw [advance_blocks] at h
    rw [← Option.some.inj h]
    exact (size_of_prune hprune).2

theorem InBounds.seekRange (hspans : o.Spans) (ho : r.segment? = some o) (first last : Nat)
    (unfiltered : Bool) (g : SegmentGroup) (stats : ScanStatistics) :
    (r.seekRange o first last unfiltered g stats).2.1.InBounds := by
  obtain ⟨result, stats', blocks?, cursor, hseek, hbounded, -⟩ :=
    seekRange_keeps r o first last unfiltered g stats
  have hblocks : ∀ m, blocks? = some m → m.dispositions.size = o.indexes.blockCount := by
    intro m hm
    refine seekRange_blocks r o first last unfiltered g stats ?_
    rw [hseek]
    exact hm
  have hsame : ∀ o', r.segment? = some o' → o = o' := fun o' ho' => Option.some.inj (ho.symm.trans ho')
  rw [hseek]
  refine ⟨fun o' ho' => ?_, fun o' m ho' hm => ?_, fun o' ho' _ => ?_⟩
  · exact hsame o' ho' ▸ hspans
  · exact hsame o' ho' ▸ hblocks m hm
  · exact hsame o' ho' ▸ hbounded

/-- A seek passes its checks, and keeps what calls rely on. -/
theorem InBounds.seekToBlock (h : r.InBounds) (first last : Nat) (unfiltered : Bool) (g : SegmentGroup)
    (stats : ScanStatistics) :
    r.guardedSeekToBlock first last unfiltered g stats = pure (r.seekToBlock first last unfiltered g stats)
      ∧ (r.seekToBlock first last unfiltered g stats).2.1.InBounds := by
  rw [guardedSeekToBlock, SegmentReader.seekToBlock]
  cases hsegment : r.segment? with
  | none => exact ⟨rfl, h⟩
  | some o =>
    have hspans := h.spans o hsegment
    dsimp only
    cases hreaders : r.readers? with
    | some t =>
      exact ⟨guardedSeekRange_eq hspans r first last unfiltered g stats,
        InBounds.seekRange hspans hsegment first last unfiltered g stats⟩
    | none =>
      dsimp only
      cases r.makeReaders o g.schema with
      | error e => exact ⟨rfl, h⟩
      | ok t =>
        exact ⟨guardedSeekRange_eq hspans _ first last unfiltered g stats,
          InBounds.seekRange hspans rfl first last unfiltered g stats⟩

/-! ### Loading passes its checks -/

theorem guardedSeekColumns_eq (ho : o.Spans) (file : SegmentFile) {block : Nat}
    (hblock : block < o.indexes.blockCount) (cids : List ColumnId) (t : ReaderTable) :
    guardedSeekColumns file o block cids t = pure (seekColumns file o block cids t) := by
  induction cids generalizing t with
  | nil => rfl
  | cons cid cids ih =>
    rw [guardedSeekColumns, seekColumns]
    cases hz : (o.mapping.uniqueId? cid).bind o.indexes.zoneMap? with
    | none => exact ih t
    | some z =>
      obtain ⟨uid, -, hloaded⟩ := Option.bind_eq_some_iff.mp hz
      have hentry : block < z.entries.size := Nat.lt_of_lt_of_le hblock (ho.zoneMap uid z hloaded)
      cases hr : t.lookup cid with
      | none => rfl
      | some r =>
        dsimp only
        rw [entryAt_eq .zoneMap hentry default, pure_bind]
        rcases r.seek file (z.entries[block]?.getD default).positions with ⟨e | _, r'⟩
        · rfl
        · exact ih (t.set cid r')

theorem guardedRowsToLoad_eq (ho : o.Spans) {block : Nat} (hblock : block < o.indexes.blockCount)
    (capacity : Nat) : guardedRowsToLoad o block capacity = pure (rowsToLoad o block capacity) := by
  rw [guardedRowsToLoad, rowsToLoad]
  split
  · rw [minus_eq _ (by rw [Nat.mul_comm]; exact ho.rows block hblock), pure_bind]
  · rfl

theorem guardedPositionColumns_eq (ho : o.Spans) (hnext : r.cursor.next < o.indexes.blockCount)
    (file : SegmentFile) (t : ReaderTable) (batch : RowBatch) :
    r.guardedPositionColumns file o t batch = pure (r.positionColumns file o t batch) := by
  rw [guardedPositionColumns, positionColumns]
  dsimp only
  split
  · rw [guardedSeekColumns_eq ho file hnext, pure_bind]
    rcases seekColumns file o r.cursor.next batch.columnIds t with ⟨e | _, t'⟩ <;> rfl
  · rfl

/-- Columns that are positioned are at the next block. -/
theorem positionColumns_current {file : SegmentFile} {t : ReaderTable} {batch : RowBatch}
    {r' : SegmentReader} (h : r.positionColumns file o t batch = (.ok (), r')) :
    r'.cursor.current = r.cursor.next := by
  rw [positionColumns] at h
  dsimp only at h
  split at h
  · rcases hseek : seekColumns file o r.cursor.next batch.columnIds t with ⟨e | _, t'⟩ <;> rw [hseek] at h
    · cases congrArg Prod.fst h
    · obtain rfl := congrArg Prod.snd h
      rfl
  · rename_i hstay
    rw [Bool.or_eq_true, not_or, decide_eq_true_iff, not_not] at hstay
    obtain rfl := congrArg Prod.snd h
    exact hstay.2.symm

theorem guardedLoadBlock_eq (ho : o.Spans) (hcurrent : r.cursor.current ≤ r.cursor.last)
    (hlast : r.cursor.last < o.indexes.blockCount)
    (hblocks : ∀ m, r.blocks? = some m → m.dispositions.size = o.indexes.blockCount)
    (file : SegmentFile) (t : ReaderTable) (batch : RowBatch) :
    r.guardedLoadBlock file o t batch = pure (r.loadBlock file o t batch) := by
  rw [guardedLoadBlock, loadBlock]
  dsimp only
  rw [guardedRowsToLoad_eq ho (Nat.lt_of_le_of_lt hcurrent hlast), pure_bind]
  rcases readColumns file (rowsToLoad o r.cursor.current batch.capacity) batch.columns 0 t batch with
    ⟨e | _, t', batch'⟩
  · rfl
  · have hcursor : r.cursor.current < o.indexes.blockCount := Nat.lt_of_le_of_lt hcurrent hlast
    dsimp only
    rw [guardedStatus]
    cases hm : r.blocks? with
    | none =>
      rw [pure_bind, guardedAdvance_eq (fun m hm => absurd hm.symm (Option.some_ne_none m)), pure_bind]
    | some m =>
      have hsize := hblocks m hm
      dsimp only
      rw [BlockMap.guardedGet_eq (by rwa [hsize]), pure_bind, guardedAdvance_eq, pure_bind]
      intro m' hm'
      rw [← Option.some.inj hm', hsize]
      dsimp only
      split <;> exact hlast

/-- What calls rely on is about the range and the cursor only. -/
theorem InBounds.of_sameRange {r' : SegmentReader} (h : r.InBounds) (hsame : r'.SameRange r)
    (heof : r.cursor.eof = true → r'.cursor.eof = true) (hreaders : r.readers? = none → r'.readers? = none) :
    r'.InBounds := by
  refine ⟨fun o ho => h.spans o (hsame.segment ▸ ho),
    fun o m ho hm => h.blocks o m (hsame.segment ▸ ho) (hsame.blocks ▸ hm), fun o ho hmade => ?_⟩
  rw [Bounded, hsame.next, hsame.last]
  exact (h.bounded o (hsame.segment ▸ ho) fun hnone => hmade (hreaders hnone)).imp_left heof

theorem InBounds.advance {r' : SegmentReader} (h : r.InBounds) (hsame : r'.SameRange r)
    (hlast : ∀ o, r.segment? = some o → r.cursor.last < o.indexes.blockCount) (block : Nat) :
    (r'.advance block).InBounds := by
  obtain ⟨n, hadvance, -, -⟩ := exists_advance r' block
  refine ⟨fun o ho => ?_, fun o m ho hm => ?_, fun o ho _ => ?_⟩
  · rw [hadvance] at ho
    exact h.spans o (hsame.segment ▸ ho)
  · rw [hadvance] at ho hm
    exact h.blocks o m (hsame.segment ▸ ho) (hsame.blocks ▸ hm)
  · rw [hadvance] at ho
    apply bounded_advance
    rw [hsame.last]
    exact hlast o (hsame.segment ▸ ho)

/-- The next block of a scan that is not at its end. -/
theorem InBounds.next_le (h : r.InBounds) (ho : r.segment? = some o) (heof : r.cursor.eof = false)
    (hmade : r.readers? ≠ none) :
    r.cursor.next ≤ r.cursor.last ∧ r.cursor.last < o.indexes.blockCount := by
  refine (h.bounded o ho hmade).resolve_left ?_
  rw [heof]
  exact Bool.false_ne_true

theorem InBounds.guardedGetBlock_eq (h : r.InBounds) (batch : RowBatch) (g : SegmentGroup)
    (stats : ScanStatistics) : r.guardedGetBlock batch g stats = pure (r.getBlock batch g stats) := by
  rw [guardedGetBlock, SegmentReader.getBlock]
  cases heof : r.cursor.eof with
  | true => rfl
  | false =>
    rw [if_neg Bool.false_ne_true, if_neg Bool.false_ne_true]
    cases hsegment : r.segment? with
    | none => rfl
    | some o =>
      cases hreaders : r.readers? with
      | none => rfl
      | some t =>
        have hmade : r.readers? ≠ none := hreaders ▸ Option.some_ne_none t
        have hspans := h.spans o hsegment
        obtain ⟨hnext, hlast⟩ := h.next_le hsegment heof hmade
        dsimp only
        rw [guardedPositionColumns_eq hspans (Nat.lt_of_le_of_lt hnext hlast), pure_bind]
        generalize (⟨r.context.options.backend, g.files.content o.file⟩ : SegmentFile) = file
        have hsame := (positionColumns_sameRange r file o t batch).1
        rcases hposition : r.positionColumns file o t batch with ⟨e | _, r'⟩ <;> rw [hposition] at hsame
        · dsimp only
          split <;> rfl
        · -- the columns are at the next block, which is one of the range
          have hcurrent : r'.cursor.current ≤ r'.cursor.last := by
            rw [positionColumns_current hposition, hsame.last]
            exact hnext
          have hblocks : ∀ m, r'.blocks? = some m → m.dispositions.size = o.indexes.blockCount :=
            fun m hm => h.blocks o m hsegment (hsame.blocks ▸ hm)
          dsimp only
          rw [guardedLoadBlock_eq hspans hcurrent (hsame.last ▸ hlast) hblocks, pure_bind]
          rcases r'.loadBlock file o (r'.readers?.getD []) batch with ⟨e | rows, r'', batch'⟩ <;> rfl

/-- A call that loads a block keeps what calls rely on. -/
theorem InBounds.getBlock (h : r.InBounds) (batch : RowBatch) (g : SegmentGroup) (stats : ScanStatistics) :
    (r.getBlock batch g stats).2.1.InBounds := by
  rcases getBlock_cases r batch g stats with
    ⟨-, hsame, heof, hreaders⟩ | ⟨-, heof, hmade, r', hadvance, hsame, -⟩
  · exact h.of_sameRange hsame heof hreaders
  · rw [hadvance]
    exact h.advance hsame (fun o ho => (h.next_le ho heof hmade).2) _

/-! ### Sessions -/

namespace Session

/-- A call with checks. -/
def guardedCall (h : Session) : Call → Guarded Session
  | .init fillCache g cache stats => return ⟨(h.reader.init fillCache g cache stats).reader, h.seek?⟩
  | .seek first last unfiltered g stats => do
    let outcome ← h.reader.guardedSeekToBlock first last unfiltered g stats
    return ⟨outcome.2.1, some ⟨h.reader, first, last, unfiltered, g, stats⟩⟩
  | .get batch g stats => do
    let outcome ← h.reader.guardedGetBlock batch g stats
    return ⟨outcome.2.1, h.seek?⟩

/-- Calls with checks, one after the other. -/
def guardedRun (segmentId : UInt32) (context : ReadContext) (calls : List Call) : Guarded Session :=
  calls.foldlM guardedCall ⟨make segmentId context, none⟩

/-- A call of a reader in bounds passes its checks, and the reader stays in bounds. -/
theorem guardedCall_eq {h : Session} (hbounds : h.reader.InBounds) (c : Call) :
    h.guardedCall c = pure (h.call c) ∧ (h.call c).reader.InBounds := by
  cases c with
  | init fillCache g cache stats => exact ⟨rfl, hbounds.init fillCache g cache stats⟩
  | seek first last unfiltered g stats =>
    obtain ⟨hseek, hkept⟩ := hbounds.seekToBlock first last unfiltered g stats
    refine ⟨?_, hkept⟩
    rw [guardedCall, hseek, pure_bind]
    rfl
  | get batch g stats =>
    refine ⟨?_, hbounds.getBlock batch g stats⟩
    rw [guardedCall, hbounds.guardedGetBlock_eq, pure_bind]
    rfl

/-- Whatever the files hold and whatever calls are made, failing ones included, no block is looked up that is not
there, and no subtraction goes below zero. -/
theorem guardedRun_eq (segmentId : UInt32) (context : ReadContext) (calls : List Call) :
    guardedRun segmentId context calls = .ok (run segmentId context calls) := by
  have hstart : (⟨make segmentId context, none⟩ : Session).reader.InBounds := inBounds_make segmentId context
  have hcalls : calls.foldlM guardedCall ⟨make segmentId context, none⟩
        = pure (calls.foldl call ⟨make segmentId context, none⟩)
      ∧ (calls.foldl call ⟨make segmentId context, none⟩).reader.InBounds := by
    apply foldlM_eq_pure (P := fun h : Session => h.reader.InBounds) _ hstart
    intro h hbounds c _
    exact guardedCall_eq hbounds c
  exact hcalls.1

end Session

end SegmentReader

end SegmentStore
