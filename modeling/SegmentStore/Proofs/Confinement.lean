import SegmentStore.Proofs.Driving

/-!
# Which blocks a reader loads

A reader may be initialised, sent to a range and asked for blocks in any order, and each of these calls may
fail.

* `SegmentReader.Call` is one of the three calls, a `Session` a reader with the seek it was last sent on, and
  `Session.run` makes calls one after the other.
* `SegmentReader.Standing` is the invariant of a session whose column readers are made: the scan is at its
  end, or within the range of a seek that succeeded, or astray after one that failed.
* `SegmentReader.getBlock_cases` and `SegmentReader.seekRange_standing` are all that the calls can do to the
  cursor, `Session.stands_call` is the step and `Session.stands_run` the run.
* `Session.loadedBlock_admitted_iff` says that a block that is loaded is one that the last seek asked for,
  exactly if that seek succeeded.
-/

namespace SegmentStore

namespace SegmentReader

variable {r r' : SegmentReader} {g : SegmentGroup} {o : OpenSegment}

/-! ### Moving on -/

/-- The scan moves on, and the block it moves to is not excluded, unless it is past the end. -/
theorem firstIncluded_spec (m : BlockMap) (last : Nat) {block fuel : Nat}
    (hfuel : last + 1 - block ≤ fuel) :
    block ≤ firstIncluded m last block fuel
      ∧ (firstIncluded m last block fuel ≤ last →
          m.get (firstIncluded m last block fuel) ≠ .excluded) := by
  induction fuel generalizing block with
  | zero => exact ⟨Nat.le_refl block, fun h => absurd h (by simp only [firstIncluded]; omega)⟩
  | succ fuel ih =>
    rw [firstIncluded]
    split
    · obtain ⟨hle, hget⟩ := @ih (block + 1) (by omega)
      exact ⟨by omega, hget⟩
    · rename_i hstop
      exact ⟨Nat.le_refl block, fun hle hexcluded => hstop ⟨hle, hexcluded⟩⟩

/-- Moving on changes the next block, and ends the scan if there is none. -/
theorem exists_advance (r : SegmentReader) (block : Nat) :
    ∃ n, r.advance block = { r with cursor :=
        { r.cursor with next := n, eof := r.cursor.eof || decide (r.cursor.last < n) } }
      ∧ block ≤ n
      ∧ ∀ m, r.blocks? = some m → r.cursor.unfiltered = false → n ≤ r.cursor.last →
          m.get n ≠ .excluded := by
  obtain ⟨segmentId, context, segment?, readers?, blocks?, cursor⟩ := r
  obtain ⟨current, next, last, eof, unfiltered, needsSeek⟩ := cursor
  cases blocks? with
  | none => exact ⟨block, rfl, Nat.le_refl block, fun m hm => absurd hm.symm (Option.some_ne_none m)⟩
  | some m =>
    cases unfiltered with
    | true => exact ⟨block, rfl, Nat.le_refl block, fun _ _ h => absurd h.symm Bool.false_ne_true⟩
    | false =>
      obtain ⟨hle, hget⟩ := firstIncluded_spec m last (Nat.le_refl (last + 1 - block))
      refine ⟨_, rfl, hle, fun m' hm _ hlast => ?_⟩
      obtain rfl : m = m' := Option.some.inj hm
      exact hget hlast

/-! ### What loading leaves alone -/

/-- The readers scan the same range of the same segment, and are to load the same block. -/
structure SameRange (r' r : SegmentReader) : Prop where
  segment : r'.segment? = r.segment?
  blocks : r'.blocks? = r.blocks?
  next : r'.cursor.next = r.cursor.next
  last : r'.cursor.last = r.cursor.last
  unfiltered : r'.cursor.unfiltered = r.cursor.unfiltered

theorem SameRange.refl (r : SegmentReader) : r.SameRange r := ⟨rfl, rfl, rfl, rfl, rfl⟩

theorem SameRange.trans {r'' : SegmentReader} (h : r''.SameRange r') (h' : r'.SameRange r) :
    r''.SameRange r :=
  ⟨h.segment.trans h'.segment, h.blocks.trans h'.blocks, h.next.trans h'.next, h.last.trans h'.last,
    h.unfiltered.trans h'.unfiltered⟩

theorem positionColumns_sameRange (r : SegmentReader) (file : SegmentFile) (s : OpenSegment)
    (t : ReaderTable) (batch : RowBatch) :
    (r.positionColumns file s t batch).2.SameRange r
      ∧ (r.positionColumns file s t batch).2.cursor.eof = r.cursor.eof := by
  rw [positionColumns]
  split
  · rcases seekColumns file s r.cursor.next batch.columnIds t with ⟨_ | _, t'⟩ <;>
      exact ⟨⟨rfl, rfl, rfl, rfl, rfl⟩, rfl⟩
  · exact ⟨.refl r, rfl⟩

/-- Loading a block fails and leaves the range alone, or moves on from the block that was next. -/
theorem loadBlock_cases (r : SegmentReader) (file : SegmentFile) (s : OpenSegment) (t : ReaderTable)
    (batch : RowBatch) :
    (∃ (e : StorageError) (r' : SegmentReader) (batch' : RowBatch),
        r.loadBlock file s t batch = (.error e, r', batch') ∧ r'.SameRange r
          ∧ r'.cursor.eof = r.cursor.eof)
      ∨ ∃ (rows : Nat) (r' : SegmentReader) (batch' : RowBatch),
        r.loadBlock file s t batch = (.ok rows, r'.advance (r.cursor.next + 1), batch')
          ∧ r'.SameRange r ∧ r'.cursor.eof = r.cursor.eof := by
  rw [loadBlock]
  rcases readColumns file (rowsToLoad s r.cursor.current batch.capacity) batch.columns 0 t batch with
    ⟨e | _, t', batch'⟩
  · exact .inl ⟨e, _, batch', rfl, ⟨rfl, rfl, rfl, rfl, rfl⟩, rfl⟩
  · let cursor := if rowsToLoad s r.cursor.current batch.capacity = s.rowsPerBlock then
        { r.cursor with current := r.cursor.current + 1 }
      else { r.cursor with needsSeek := true }
    have hcursor : cursor.next = r.cursor.next ∧ cursor.last = r.cursor.last
        ∧ cursor.unfiltered = r.cursor.unfiltered ∧ cursor.eof = r.cursor.eof := by
      simp only [cursor]
      split <;> exact ⟨rfl, rfl, rfl, rfl⟩
    obtain ⟨hnext, hlast, hunfiltered, heof⟩ := hcursor
    rewrite [← hnext]
    exact .inr ⟨_, { r with readers? := some t', cursor }, _, rfl, ⟨rfl, rfl, hnext, hlast, hunfiltered⟩,
      heof⟩

/-- A call that asks for a block counts none and leaves the range alone, or counts one and moves on from the
block that was next. -/
theorem getBlock_cases (r : SegmentReader) (batch : RowBatch) (g : SegmentGroup)
    (stats : ScanStatistics) :
    ((r.getBlock batch g stats).2.2.2.blocksLoaded = stats.blocksLoaded
        ∧ (r.getBlock batch g stats).2.1.SameRange r
        ∧ (r.cursor.eof = true → (r.getBlock batch g stats).2.1.cursor.eof = true)
        ∧ (r.readers? = none → (r.getBlock batch g stats).2.1.readers? = none))
      ∨ ((r.getBlock batch g stats).2.2.2.blocksLoaded = stats.blocksLoaded + 1
        ∧ r.cursor.eof = false ∧ r.readers? ≠ none
        ∧ ∃ r' : SegmentReader, (r.getBlock batch g stats).2.1 = r'.advance (r.cursor.next + 1)
          ∧ r'.SameRange r ∧ r'.cursor.eof = r.cursor.eof) := by
  rw [getBlock]
  cases heof : r.cursor.eof with
  | true => exact .inl ⟨rfl, .refl r, fun _ => heof, id⟩
  | false =>
    rw [if_neg (by decide)]
    have hgoes : ∀ p : Prop, false = true → p := fun p h => absurd h Bool.false_ne_true
    rcases r.segment? with _ | s
    · exact .inl ⟨rfl, .refl r, hgoes _, id⟩
    rcases hreaders : r.readers? with _ | t
    · exact .inl ⟨rfl, .refl r, hgoes _, fun _ => hreaders⟩
    have hmade : ∀ p : Prop, some t = none → p := fun p h => absurd h (Option.some_ne_none t)
    obtain ⟨hrange, heof'⟩ := positionColumns_sameRange r
      ⟨r.context.options.backend, g.files.content s.file⟩ s t batch
    dsimp only
    rcases hposition : r.positionColumns ⟨r.context.options.backend, g.files.content s.file⟩ s t batch with
      ⟨e | _, r₁⟩ <;> rw [hposition] at hrange heof'
    · dsimp only
      split
      · exact .inl ⟨rfl, ⟨hrange.segment, hrange.blocks, hrange.next, hrange.last, hrange.unfiltered⟩,
          hgoes _, hmade _⟩
      · exact .inl ⟨rfl, hrange, hgoes _, hmade _⟩
    · dsimp only
      rcases loadBlock_cases r₁ ⟨r.context.options.backend, g.files.content s.file⟩ s
        (r₁.readers?.getD []) batch with
        ⟨e, r₂, batch', hload, hrange', heof''⟩ | ⟨rows, r₂, batch', hload, hrange', heof''⟩ <;>
        rw [hload]
      · exact .inl ⟨rfl, hrange'.trans hrange, hgoes _, hmade _⟩
      · rw [hrange.next]
        exact .inr ⟨rfl, rfl, hmade _, r₂, rfl, hrange'.trans hrange, heof''.trans (heof'.trans heof)⟩

/-- The readers scan the same segment in the same way. -/
structure SameSource (r' r : SegmentReader) : Prop where
  segmentId : r'.segmentId = r.segmentId
  context : r'.context = r.context
  segment : r'.segment? = r.segment?

theorem SameSource.trans {r'' : SegmentReader} (h : r''.SameSource r') (h' : r'.SameSource r) : r''.SameSource r :=
  ⟨h.segmentId.trans h'.segmentId, h.context.trans h'.context, h.segment.trans h'.segment⟩

theorem positionColumns_sameSource (r : SegmentReader) (file : SegmentFile) (s : OpenSegment) (t : ReaderTable)
    (batch : RowBatch) : (r.positionColumns file s t batch).2.SameSource r := by
  rw [positionColumns]
  split
  · rcases seekColumns file s r.cursor.next batch.columnIds t with ⟨_ | _, t'⟩ <;> exact ⟨rfl, rfl, rfl⟩
  · exact ⟨rfl, rfl, rfl⟩

theorem loadBlock_sameSource (r : SegmentReader) (file : SegmentFile) (s : OpenSegment) (t : ReaderTable)
    (batch : RowBatch) : (r.loadBlock file s t batch).2.1.SameSource r := by
  rw [loadBlock]
  rcases readColumns file (rowsToLoad s r.cursor.current batch.capacity) batch.columns 0 t batch with
    ⟨e | _, t', batch'⟩ <;> exact ⟨rfl, rfl, rfl⟩

/-- A call that asks for a block stays with the segment. -/
theorem getBlock_sameSource (r : SegmentReader) (batch : RowBatch) (g : SegmentGroup) (stats : ScanStatistics) :
    (r.getBlock batch g stats).2.1.SameSource r := by
  rw [getBlock]
  split
  · exact ⟨rfl, rfl, rfl⟩
  split
  · exact ⟨rfl, rfl, rfl⟩
  · exact ⟨rfl, rfl, rfl⟩
  rename_i s t _ _
  have hposition := positionColumns_sameSource r ⟨r.context.options.backend, g.files.content s.file⟩ s t batch
  dsimp only
  split <;> rename_i r₁ heq <;> rw [heq] at hposition
  · split
    · exact ⟨hposition.segmentId, hposition.context, hposition.segment⟩
    · exact hposition
  · have hload := (loadBlock_sameSource r₁ ⟨r.context.options.backend, g.files.content s.file⟩ s
      (r₁.readers?.getD []) batch).trans hposition
    split <;> exact hload

theorem seekRange_sameSource (r : SegmentReader) (s : OpenSegment) (first last : Nat) (unfiltered : Bool)
    (g : SegmentGroup) (stats : ScanStatistics) :
    (r.seekRange s first last unfiltered g stats).2.1.SameSource r := by
  rw [seekRange]
  dsimp only
  split
  · exact ⟨rfl, rfl, rfl⟩
  split
  · exact ⟨rfl, rfl, rfl⟩
  split <;> exact ⟨rfl, rfl, rfl⟩

/-- A seek stays with the segment. -/
theorem seekToBlock_sameSource (r : SegmentReader) (first last : Nat) (unfiltered : Bool) (g : SegmentGroup)
    (stats : ScanStatistics) : (r.seekToBlock first last unfiltered g stats).2.1.SameSource r := by
  rw [seekToBlock]
  split
  · exact ⟨rfl, rfl, rfl⟩
  rename_i s hsegment
  split
  · exact seekRange_sameSource r s first last unfiltered g stats
  split
  · exact ⟨rfl, rfl, rfl⟩
  · exact (seekRange_sameSource _ s first last unfiltered g stats).trans ⟨rfl, rfl, rfl⟩

/-! ### Seeks -/

/-- A seek: the reader that is sent, and where to. -/
structure Seek where
  reader : SegmentReader
  first : Nat
  last : Nat
  unfiltered : Bool
  group : SegmentGroup
  stats : ScanStatistics

namespace Seek

/-- What comes of the seek. -/
def outcome (q : Seek) : Except StorageError ScanPosition × SegmentReader × ScanStatistics :=
  q.reader.seekToBlock q.first q.last q.unfiltered q.group q.stats

/-- The seek is answered. -/
def Succeeds (q : Seek) : Prop := ∃ p, q.outcome.1 = .ok p

/-- The last block that the seek asks for and the segment has. -/
def lastBlock (q : Seek) (o : OpenSegment) : Nat := min q.last (o.indexes.blockCount - 1)

/-- What pruning finds for the seek. -/
def pruning (q : Seek) (o : OpenSegment) : Except StorageError PruneState :=
  (q.reader.pruneRequest o q.group).prune q.first (q.lastBlock o)

/-- The seek asks for the block, and does not exclude it. -/
def Admits (q : Seek) (o : OpenSegment) (b : Nat) : Prop :=
  q.first ≤ b ∧ b ≤ q.lastBlock o
    ∧ (q.unfiltered = false → ∃ p, q.pruning o = .ok p ∧ p.blocks.get b ≠ .excluded)

end Seek

/-- Where a reader stands after a seek in the segment. -/
inductive Standing (r : SegmentReader) (o : OpenSegment) (q : Seek) : Prop
  /-- The scan is at its end. -/
  | atEnd (eof : r.cursor.eof = true)
  /-- The next block is one of those asked for. -/
  | within (succeeds : q.Succeeds) (unfiltered : r.cursor.unfiltered = q.unfiltered)
      (last : r.cursor.last = q.lastBlock o) (admits : q.Admits o r.cursor.next)
      (blocks : ∀ p, q.unfiltered = false → q.pruning o = .ok p → r.blocks? = some p.blocks)
  /-- The range was refused, but the reader is to load the blocks up to its end all the same. -/
  | astray (fails : ¬q.Succeeds) (invalid : q.lastBlock o < q.first)
      (last : r.cursor.last = q.lastBlock o) (next : r.cursor.next ≤ r.cursor.last)
      (blocks : r.blocks? = none)

variable {q : Seek}

/-- Moving on from a block of a range that was asked for. -/
theorem standing_advance {block : Nat} (hsucceeds : q.Succeeds)
    (hunfiltered : r.cursor.unfiltered = q.unfiltered) (hlast : r.cursor.last = q.lastBlock o)
    (hfirst : q.first ≤ block)
    (hblocks : q.unfiltered = false → ∃ p, q.pruning o = .ok p ∧ r.blocks? = some p.blocks) :
    (r.advance block).Standing o q := by
  obtain ⟨n, hadvance, hle, hincluded⟩ := exists_advance r block
  rw [hadvance]
  by_cases hpast : r.cursor.last < n
  · exact .atEnd (by simp [hpast])
  · refine .within hsucceeds hunfiltered hlast ⟨by simp only; omega, by simp only; omega, fun hfilter => ?_⟩
      fun p hfilter hp => ?_
    · obtain ⟨p, hp, hmap⟩ := hblocks hfilter
      exact ⟨p, hp, hincluded p.blocks hmap (hunfiltered.trans hfilter) (by omega)⟩
    · obtain ⟨p', hp', hmap⟩ := hblocks hfilter
      obtain rfl : p = p' := Except.ok.inj (hp.symm.trans hp')
      exact hmap

/-- A range that ends before it starts is refused, and the reader keeps its end. -/
theorem seekRange_invalid (r : SegmentReader) (g : SegmentGroup) {first last : Nat}
    (hcount : o.indexes.blockCount ≠ 0) (hinvalid : min last (o.indexes.blockCount - 1) < first)
    (stats : ScanStatistics) :
    ∃ e, r.seekRange o first last false g stats
      = (.error e, { r with
          blocks? := none
          cursor := ⟨r.cursor.current, 0, min last (o.indexes.blockCount - 1), false, false, true⟩ },
          stats) := by
  refine ⟨.argument (.blockRange first (min last (o.indexes.blockCount - 1)) o.indexes.blockCount), ?_⟩
  simp only [seekRange, hcount, if_false, Bool.false_eq_true, PruneRequest.prune, pruneRequest, hinvalid,
    decide_true, Bool.true_or, if_true]

/-- A seek that is answered leaves the reader at a block that it asked for, or at the end. One that is
refused leaves it astray. -/
theorem seekRange_standing (hreader : r.context = q.reader.context)
    (houtcome : q.outcome = r.seekRange o q.first q.last q.unfiltered q.group q.stats) :
    q.outcome.2.1.Standing o q ∧ q.outcome.2.1.segment? = r.segment? := by
  by_cases hcount : o.indexes.blockCount = 0
  · rw [houtcome]
    simp only [seekRange, hcount, if_true]
    exact ⟨.atEnd rfl, trivial⟩
  by_cases hvalid : q.unfiltered = false → q.first ≤ q.lastBlock o
  · obtain ⟨stats', hseek⟩ := seekRange_eq r q.group q.last q.unfiltered hcount hvalid q.stats
    have hmoved := houtcome.trans hseek
    have hsucceeds : q.Succeeds := ⟨_, congrArg Prod.fst hmoved⟩
    rw [hmoved]
    refine ⟨standing_advance hsucceeds rfl rfl (Nat.le_refl q.first) fun hfilter => ?_, rfl⟩
    have hlast : q.lastBlock o < (q.reader.pruneRequest o q.group).indexes.blockCount := by
      show min q.last (o.indexes.blockCount - 1) < o.indexes.blockCount
      omega
    refine ⟨_, PruneRequest.prune_eq (hvalid hfilter) hlast, ?_⟩
    have hrequest : r.pruneRequest o q.group = q.reader.pruneRequest o q.group := by
      rw [pruneRequest, pruneRequest, hreader]
    rw [ranged, hfilter, hrequest]
    rfl
  · obtain ⟨hfilter, hinvalid⟩ := Classical.not_imp.mp hvalid
    obtain ⟨e, hseek⟩ := seekRange_invalid r q.group hcount (Nat.lt_of_not_le hinvalid) q.stats
    rw [hfilter, hseek] at houtcome
    rw [houtcome]
    refine ⟨.astray ?_ (Nat.lt_of_not_le hinvalid) rfl (Nat.zero_le _) rfl, rfl⟩
    rintro ⟨p, hp⟩
    rw [houtcome] at hp
    cases hp

/-- A seek goes to its range, once the segment is open and the column readers are made. -/
theorem Seek.outcome_cases (q : Seek) :
    (q.outcome.2.1 = q.reader ∧ (q.reader.segment? = none ∨ q.reader.readers? = none))
      ∨ ∃ (o : OpenSegment) (r : SegmentReader), q.reader.segment? = some o
        ∧ r.context = q.reader.context ∧ r.segment? = q.reader.segment?
        ∧ q.outcome = r.seekRange o q.first q.last q.unfiltered q.group q.stats := by
  rw [outcome, seekToBlock]
  cases hsegment : q.reader.segment? with
  | none => exact .inl ⟨rfl, .inl rfl⟩
  | some o =>
    dsimp only
    cases hreaders : q.reader.readers? with
    | some t => exact .inr ⟨o, q.reader, rfl, rfl, hsegment, rfl⟩
    | none =>
      dsimp only
      cases q.reader.makeReaders o q.group.schema with
      | error e => exact .inl ⟨rfl, .inr rfl⟩
      | ok t =>
        exact .inr ⟨o, { q.reader with segment? := some o, readers? := some t }, rfl, rfl, rfl, rfl⟩

theorem SameRange.standing (h : r'.SameRange r) (heof : r.cursor.eof = true → r'.cursor.eof = true)
    (hr : r.Standing o q) : r'.Standing o q := by
  cases hr with
  | atEnd eof => exact .atEnd (heof eof)
  | within succeeds unfiltered last admits blocks =>
    exact .within succeeds (h.unfiltered.trans unfiltered) (h.last.trans last) (h.next ▸ admits)
      fun p hfilter hp => h.blocks.trans (blocks p hfilter hp)
  | astray fails invalid last next blocks =>
    exact .astray fails invalid (h.last.trans last) (by rwa [h.next, h.last]) (h.blocks.trans blocks)

/-- Moving on from the next block. -/
theorem Standing.advance (hr : r.Standing o q) : (r.advance (r.cursor.next + 1)).Standing o q := by
  cases hr with
  | atEnd eof =>
    obtain ⟨n, hadvance, -, -⟩ := exists_advance r (r.cursor.next + 1)
    rw [hadvance]
    exact .atEnd (by simp [eof])
  | within succeeds unfiltered last admits blocks =>
    refine standing_advance succeeds unfiltered last (Nat.le_succ_of_le admits.1) fun hfilter => ?_
    obtain ⟨p, hp, -⟩ := admits.2.2 hfilter
    exact ⟨p, hp, blocks p hfilter hp⟩
  | astray fails invalid last next blocks =>
    obtain ⟨n, hadvance, -, -⟩ := exists_advance r (r.cursor.next + 1)
    rw [hadvance]
    by_cases hpast : r.cursor.last < n
    · exact .atEnd (by simp [hpast])
    · exact .astray fails invalid last (Nat.le_of_not_lt hpast) blocks

/-- A reader that asks for a block stands where it did. -/
theorem getBlock_standing (hr : r.Standing o q) (batch : RowBatch) (g : SegmentGroup)
    (stats : ScanStatistics) :
    (r.getBlock batch g stats).2.1.Standing o q
      ∧ (r.getBlock batch g stats).2.1.segment? = r.segment? := by
  rcases getBlock_cases r batch g stats with
    ⟨-, hrange, heof, -⟩ | ⟨-, -, -, r', hadvance, hrange, heof⟩
  · exact ⟨hrange.standing heof hr, hrange.segment⟩
  · have hr' := (hrange.standing (fun h => heof.trans h) hr).advance
    rw [hrange.next] at hr'
    obtain ⟨n, hmoved, -, -⟩ := exists_advance r' (r.cursor.next + 1)
    exact ⟨hadvance ▸ hr', by rw [hadvance, hmoved]; exact hrange.segment⟩

/-! ### Sessions -/

/-- A call of a reader. -/
inductive Call
  | init (fillCache : Bool) (group : SegmentGroup) (cache : IndexCache) (stats : ScanStatistics)
  | seek (first last : Nat) (unfiltered : Bool) (group : SegmentGroup) (stats : ScanStatistics)
  | get (batch : RowBatch) (group : SegmentGroup) (stats : ScanStatistics)

/-- The group that a call is made to. -/
def Call.group : Call → SegmentGroup
  | .init _ g _ _ => g
  | .seek _ _ _ g _ => g
  | .get _ g _ => g

/-- A reader, and the seek it was last sent on. -/
structure Session where
  reader : SegmentReader
  seek? : Option Seek

/-- Starting to read a segment fails and leaves the reader as it was, or leaves it without column readers. -/
theorem init_cases (r : SegmentReader) (fillCache : Bool) (g : SegmentGroup) (cache : IndexCache)
    (stats : ScanStatistics) :
    ((∃ e, (r.init fillCache g cache stats).result = .error e)
        ∧ (r.init fillCache g cache stats).reader = r)
      ∨ ((r.init fillCache g cache stats).result = .ok ()
        ∧ (r.init fillCache g cache stats).reader.readers? = none) := by
  rw [init]
  split
  · exact .inl ⟨⟨_, rfl⟩, rfl⟩
  split
  · exact .inl ⟨⟨_, rfl⟩, rfl⟩
  split
  · exact .inl ⟨⟨_, rfl⟩, rfl⟩
  dsimp only
  split
  · exact .inl ⟨⟨_, rfl⟩, rfl⟩
  · exact .inr ⟨rfl, rfl⟩

namespace Session

/-- What a call makes of a session. -/
def call (h : Session) : Call → Session
  | .init fillCache g cache stats => ⟨(h.reader.init fillCache g cache stats).reader, h.seek?⟩
  | .seek first last unfiltered g stats =>
    let q : Seek := ⟨h.reader, first, last, unfiltered, g, stats⟩
    ⟨q.outcome.2.1, some q⟩
  | .get batch g stats => ⟨(h.reader.getBlock batch g stats).2.1, h.seek?⟩

/-- What calls make of a new reader, one after the other. -/
def run (segmentId : UInt32) (context : ReadContext) (calls : List Call) : Session :=
  calls.foldl call ⟨make segmentId context, none⟩

/-- The reader stands where the last seek has left it, or the blocks after. -/
def Stands (h : Session) : Prop :=
  h.reader.readers? ≠ none →
    ∃ o q, h.reader.segment? = some o ∧ h.seek? = some q ∧ h.reader.Standing o q

theorem stands_call {h : Session} (hstands : h.Stands) (c : Call) : (h.call c).Stands := by
  intro hreaders
  cases c with
  | init fillCache g cache stats =>
    rcases init_cases h.reader fillCache g cache stats with ⟨-, hsame⟩ | ⟨-, hnone⟩
    · simp only [call, hsame] at hreaders ⊢
      exact hstands hreaders
    · exact absurd hnone hreaders
  | seek first last unfiltered g stats =>
    let q : Seek := ⟨h.reader, first, last, unfiltered, g, stats⟩
    change q.outcome.2.1.readers? ≠ none at hreaders
    rcases q.outcome_cases with ⟨hsame, hnone⟩ | ⟨o, r, hsegment, hcontext, hopened, houtcome⟩
    · rw [hsame] at hreaders
      rcases hnone with hnone | hnone
      · obtain ⟨o, -, hsome, -⟩ := hstands hreaders
        rw [hnone] at hsome
        cases hsome
      · exact absurd hnone hreaders
    · obtain ⟨hstanding, hkept⟩ := seekRange_standing hcontext houtcome
      exact ⟨o, q, hkept.trans (hopened.trans hsegment), rfl, hstanding⟩
  | get batch g stats =>
    have hmade : h.reader.readers? ≠ none := fun hnone => hreaders (by
      rcases getBlock_cases h.reader batch g stats with ⟨-, -, -, hkept⟩ | ⟨-, -, hmade, -⟩
      · exact hkept hnone
      · exact absurd hnone hmade)
    obtain ⟨o, q, hsegment, hseek, hstanding⟩ := hstands hmade
    obtain ⟨hstanding', hsegment'⟩ := getBlock_standing hstanding batch g stats
    exact ⟨o, q, hsegment'.trans hsegment, hseek, hstanding'⟩

theorem stands_run (segmentId : UInt32) (context : ReadContext) (calls : List Call) :
    (run segmentId context calls).Stands := by
  have hcalls : ∀ h : Session, h.Stands → (calls.foldl call h).Stands := by
    induction calls with
    | nil => exact fun h hstands => hstands
    | cons c calls ih => exact fun h hstands => ih (h.call c) (stands_call hstands c)
  exact hcalls _ fun hmade => absurd rfl hmade

/-- The block that a session loads when it is asked for one, if it counts one more block then. -/
def loadedBlock? (h : Session) (batch : RowBatch) (g : SegmentGroup) (stats : ScanStatistics) :
    Option Nat :=
  if (h.reader.getBlock batch g stats).2.2.2.blocksLoaded = stats.blocksLoaded then none
  else some h.reader.cursor.next

/-- Whatever calls were made, a block that is loaded is not past the end of the range last asked for. It is
one of the blocks of that range that were not excluded if the seek was answered, and only then. -/
theorem loadedBlock_admitted_iff (segmentId : UInt32) (context : ReadContext) (calls : List Call)
    {batch : RowBatch} {g : SegmentGroup} {stats : ScanStatistics} {b : Nat}
    (hloaded : (run segmentId context calls).loadedBlock? batch g stats = some b) :
    ∃ o q, (run segmentId context calls).reader.segment? = some o
      ∧ (run segmentId context calls).seek? = some q
      ∧ b ≤ q.lastBlock o ∧ (q.Admits o b ↔ q.Succeeds) := by
  rw [loadedBlock?, Option.ite_none_left_eq_some] at hloaded
  obtain ⟨hcounted, hnext⟩ := hloaded
  obtain rfl := Option.some.inj hnext
  rcases getBlock_cases (run segmentId context calls).reader batch g stats with
    ⟨hsame, -⟩ | ⟨-, heof, hmade, -⟩
  · exact absurd hsame hcounted
  · obtain ⟨o, q, hsegment, hseek, hstanding⟩ := stands_run segmentId context calls hmade
    refine ⟨o, q, hsegment, hseek, ?_⟩
    cases hstanding with
    | atEnd eof =>
      rw [heof] at eof
      cases eof
    | within succeeds unfiltered last admits blocks =>
      exact ⟨admits.2.1, iff_of_true admits succeeds⟩
    | astray fails invalid last next blocks =>
      have hbefore : (run segmentId context calls).reader.cursor.next ≤ q.lastBlock o := last ▸ next
      refine ⟨hbefore, iff_of_false (fun admits => ?_) fails⟩
      exact absurd (Nat.lt_of_lt_of_le invalid admits.1) (Nat.not_lt.mpr hbefore)

end Session

/-! ### A range past the end -/

variable {s : WrittenSegment} {file : FileId} {ids : List ColumnId}

/-- A range past the end of the segment is refused, and the reader is about to load the first block. -/
theorem seekToBlock_past (hr : r.Opened g s file o) (hfits : s.Fits) (hlossless : s.Lossless)
    {first last : Nat} (hblocks : s.blocks ≠ []) (hfirst : s.blocks.length ≤ first)
    (hlast : s.blocks.length ≤ last + 1) (ids : List ColumnId) (stats : ScanStatistics) :
    ∃ e r', r.seekToBlock first last false g stats = (.error e, r', stats) ∧ r'.context = r.context
      ∧ r'.Between g s file o ids 0 := by
  obtain ⟨t, ht, hseek⟩ := seekToBlock_of hr hfits hlossless first last false stats
  have hcount := hr.written.indexes.blockCount
  have hpos := List.length_pos_iff.mpr hblocks
  have hend : min last (o.indexes.blockCount - 1) = s.blocks.length - 1 := by omega
  have hpast : min last (o.indexes.blockCount - 1) < first := by omega
  obtain ⟨e, hinvalid⟩ := seekRange_invalid { r with readers? := some t } g (by omega) hpast stats
  rw [hend] at hinvalid
  refine ⟨e, _, hseek.trans hinvalid, rfl, hr.segment, hr.opened, hr.written, hr.hosts.bytes, rfl, ?_, ?_,
    fun m hm => absurd hm.symm (Option.some_ne_none m), t, rfl, ht,
    fun hneeds => absurd hneeds.symm Bool.false_ne_true⟩
  · show s.blocks.length - 1 + 1 = s.blocks.length
    omega
  · rw [decide_eq_false (Nat.not_le.mpr hpos)]

/-- A block is counted when it is loaded. -/
theorem blocksLoaded_getBlock (hr : r.Between g s file o ids 0) (hfits : s.Fits) (hblocks : s.blocks ≠ [])
    (hids : ids ⊆ r.context.used) (hnodup : ids.Nodup) (hdefaults : AcceptsDefaults s ids)
    {batch : RowBatch} (hbatch : batch.columnIds = ids) (htyped : Typed s batch.columns)
    (hcapacity : s.options.rowsPerBlock.toNat ≤ batch.capacity) (stats : ScanStatistics) :
    (r.getBlock batch g stats).2.2.2.blocksLoaded = stats.blocksLoaded + 1 := by
  obtain ⟨r', batch', stats', hget, hr', -⟩ := getBlock_between hr hfits
    (List.length_pos_iff.mpr hblocks) hids hnodup hdefaults hbatch htyped hcapacity stats
  rcases getBlock_cases r batch g stats with ⟨-, hrange, -⟩ | ⟨hcounted, -⟩
  · have hnext := hrange.next
    rw [hget, hr'.next, hr.next] at hnext
    cases hnext
  · exact hcounted

namespace Session

theorem run_init (segmentId : UInt32) (context : ReadContext) (fillCache : Bool) (g : SegmentGroup)
    (cache : IndexCache) (stats : ScanStatistics) :
    (run segmentId context [.init fillCache g cache stats]).reader
      = ((make segmentId context).init fillCache g cache stats).reader := rfl

/-- A reader that is initialised and then sent to a range. -/
theorem run_init_seek {segmentId : UInt32} {context : ReadContext} {fillCache : Bool}
    {g g' : SegmentGroup} {cache : IndexCache} {stats stats' stats'' : ScanStatistics} {first last : Nat}
    {unfiltered : Bool} {result : Except StorageError ScanPosition}
    (hseek : ((make segmentId context).init fillCache g cache stats).reader.seekToBlock first last
      unfiltered g' stats' = (result, r, stats'')) :
    (run segmentId context [.init fillCache g cache stats,
        .seek first last unfiltered g' stats']).reader = r
      ∧ ∃ q, (run segmentId context [.init fillCache g cache stats,
          .seek first last unfiltered g' stats']).seek? = some q
        ∧ q.first = first ∧ q.last = last ∧ (q.Succeeds ↔ ∃ p, result = .ok p) := by
  refine ⟨congrArg (fun x => x.2.1) hseek, _, rfl, rfl, rfl, ?_⟩
  rw [Seek.Succeeds, Seek.outcome]
  exact exists_congr fun p => iff_of_eq (congrArg (fun x => x.1 = .ok p) hseek)

theorem loadedBlock?_of_between {h : Session} (hr : h.reader.Between g s file o ids 0) (hfits : s.Fits)
    (hblocks : s.blocks ≠ []) (hids : ids ⊆ h.reader.context.used) (hnodup : ids.Nodup)
    (hdefaults : AcceptsDefaults s ids) {batch : RowBatch} (hbatch : batch.columnIds = ids)
    (htyped : Typed s batch.columns) (hcapacity : s.options.rowsPerBlock.toNat ≤ batch.capacity)
    (stats : ScanStatistics) : h.loadedBlock? batch g stats = some 0 := by
  have hcounted := blocksLoaded_getBlock hr hfits hblocks hids hnodup hdefaults hbatch htyped hcapacity stats
  rw [loadedBlock?, hcounted, hr.next, if_neg (Nat.succ_ne_self stats.blocksLoaded)]

/-- The values and keys of the small segment. -/
def sampleBatch : RowBatch :=
  ⟨[⟨1, .float64, .empty .float64⟩, ⟨0, .int32, .empty .int32⟩], 2, 0, .needsRowFilter⟩

/-- The values and keys are loaded by a session that is about to load the first block. -/
theorem loadedBlock?_sampleBatch {h : Session} (hreader : h.reader = r)
    (hcontext : r.context = sampleContext) (hr : r.Between g .sample file o [1, 0] 0)
    (stats : ScanStatistics) : h.loadedBlock? sampleBatch g stats = some 0 := by
  subst hreader
  have hids : [1, 0] ⊆ h.reader.context.used := by
    rw [hcontext]
    decide
  have hdefaults : AcceptsDefaults WrittenSegment.sample [1, 0] := fun cid hcid habsent =>
    absurd hcid habsent
  have htyped : Typed WrittenSegment.sample sampleBatch.columns := by
    simp only [sampleBatch, Typed, List.forall_mem_cons]
    exact ⟨⟨_, rfl, rfl⟩, ⟨_, rfl, rfl⟩, List.forall_mem_nil _⟩
  exact loadedBlock?_of_between hr WrittenSegment.fits_sample (by decide +kernel) hids (by decide)
    hdefaults rfl htyped (by decide) stats

theorem init_sample : ((make 0 sampleContext).init true (.single .sample) .empty .zero).result = .ok () := by
  have hcache : (make 0 sampleContext).context.cached = true →
      IndexCache.empty.Agrees ((SegmentGroup.single .sample).segmentPath 0) .sample :=
    fun hcached => absurd hcached Bool.false_ne_true
  have hanswerable : Answerable (make 0 sampleContext).context WrittenSegment.sample.schema :=
    ⟨rfl, List.all_eq_true.mp rfl, List.all_eq_true.mp rfl⟩
  exact (init_result_iff (SegmentGroup.hosts_single .sample) WrittenSegment.fits_sample
    WrittenSegment.lossless_sample hcache true .zero).mpr hanswerable

theorem opened_sample :
    let opened := (make 0 sampleContext).init true (.single .sample) .empty .zero
    ∃ o, opened.reader.Opened opened.group .sample 0 o ∧ opened.reader.context = sampleContext := by
  have hcache : (make 0 sampleContext).context.cached = true →
      IndexCache.empty.Agrees ((SegmentGroup.single .sample).segmentPath 0) .sample :=
    fun hcached => absurd hcached Bool.false_ne_true
  obtain ⟨o, hopened, hcontext, -⟩ := init_opened (SegmentGroup.hosts_single .sample)
    WrittenSegment.fits_sample WrittenSegment.lossless_sample hcache init_sample
  exact ⟨o, hopened, hcontext⟩

theorem loadedBlock_admitted_iff_sample :
    let opened := (make 0 sampleContext).init true (.single .sample) .empty .zero
    let h := run 0 sampleContext
      [.init true (.single .sample) .empty .zero, .seek 0 7 false opened.group opened.stats]
    h.loadedBlock? sampleBatch opened.group .zero = some 0
      ∧ ∃ o q, h.reader.segment? = some o ∧ h.seek? = some q ∧ q.first = 0 ∧ q.last = 7
        ∧ q.Admits o 0 := by
  obtain ⟨o, hopened, hcontext⟩ := opened_sample
  obtain ⟨r, stats, hseek, hcontext', hstart⟩ := seekToBlock_all hopened WrittenSegment.fits_sample
    WrittenSegment.lossless_sample (by rw [hcontext]; rfl) (by rw [hcontext]; rfl) 7 (by decide +kernel)
    false [1, 0] _
  have hbetween := hstart.resolve_left fun h => absurd h.1 (by decide +kernel)
  obtain ⟨hreader, q, hsent, hfirst, hlast, hsucceeds⟩ := run_init_seek hseek
  have hloaded := loadedBlock?_sampleBatch hreader (hcontext'.trans hcontext) hbetween .zero
  obtain ⟨o', q', hsegment, hasked, -, hadmits⟩ := loadedBlock_admitted_iff 0 sampleContext _ hloaded
  obtain rfl : q = q' := Option.some.inj (hsent.symm.trans hasked)
  exact ⟨hloaded, o', q, hsegment, hasked, hfirst, hlast, hadmits.mpr (hsucceeds.mpr ⟨_, rfl⟩)⟩

/-- The range from the third block on is refused, since there are two, and then the first one is loaded. -/
theorem loadedBlock_of_refused :
    let opened := (make 0 sampleContext).init true (.single .sample) .empty .zero
    let h := run 0 sampleContext
      [.init true (.single .sample) .empty .zero, .seek 2 7 false opened.group opened.stats]
    h.loadedBlock? sampleBatch opened.group .zero = some 0
      ∧ ∃ q, h.seek? = some q ∧ ¬q.Succeeds ∧ q.first = 2 ∧ q.last = 7 ∧ ∀ o, ¬q.Admits o 0 := by
  obtain ⟨o, hopened, hcontext⟩ := opened_sample
  have hpast : WrittenSegment.sample.blocks.length ≤ 2 := by decide +kernel
  have hend : WrittenSegment.sample.blocks.length ≤ 7 + 1 := by decide +kernel
  obtain ⟨e, r, hseek, hcontext', hbetween⟩ := seekToBlock_past hopened WrittenSegment.fits_sample
    WrittenSegment.lossless_sample (by decide +kernel) hpast hend [1, 0]
    ((make 0 sampleContext).init true (.single .sample) .empty .zero).stats
  obtain ⟨hreader, q, hsent, hfirst, hlast, hsucceeds⟩ := run_init_seek hseek
  have hloaded := loadedBlock?_sampleBatch hreader (hcontext'.trans hcontext) hbetween .zero
  refine ⟨hloaded, q, hsent, fun h => ?_, hfirst, hlast, fun o hadmits => ?_⟩
  · obtain ⟨p, hp⟩ := hsucceeds.mp h
    cases hp
  · exact absurd (hfirst ▸ hadmits.1) (by decide)

end Session

end SegmentReader

end SegmentStore
