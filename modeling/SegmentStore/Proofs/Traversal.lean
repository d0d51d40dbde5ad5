import SegmentStore.Proofs.Ledger
import SegmentStore.Proofs.Tracking

/-!
# The blocks that a scan visits

A scan goes through a range block by block. Where it stands is kept as the number of the next block, a flag for
the end, and the flag that the columns have to be positioned.

* `SegmentReader.turn` is what a call for a block does, and `SegmentReader.getBlock_turn` what comes of it.
* `SegmentReader.ahead` are the blocks that a scan has still to load. A call that loads a block takes the first
  of them: `SegmentReader.Ready.turn_load` is the step and `SegmentReader.Fetches.ahead_eq` the run.
* `SegmentReader.seekToBlock_ahead` says which blocks are ahead after a seek.
* `SegmentReader.fetches_visit` says that the blocks that are loaded after a seek are those that it has left in
  the range, in order, each once, and then the scan is at its end.
-/

namespace SegmentStore

namespace SegmentReader

variable {r r' : SegmentReader} {g : SegmentGroup} {o : OpenSegment} {batch batch' : RowBatch}
variable {stats stats' : ScanStatistics} {p p' : ScanPosition} {first last block : Nat}

/-! ### One call -/

/-- What a call for a block does. -/
inductive Turn where
  /-- Nothing: the scan is at its end. -/
  | rest
  /-- It loads the block at which the columns stand, or to which they were led. -/
  | load (block : Nat)
  /-- It ends the scan: a column that was to be positioned has no more data. -/
  | stop
  /-- It fails. -/
  | fail
  deriving DecidableEq

/-- The block that a call loads, if any. -/
def Turn.block? : Turn → Option Nat
  | .load b => some b
  | _ => none

/-- The file that the calls of a reader read. -/
def fileOf (r : SegmentReader) (o : OpenSegment) (g : SegmentGroup) : SegmentFile :=
  ⟨r.context.options.backend, g.files.content o.file⟩

/-- What a call for a block does, from the outcome of positioning the columns and of reading them. -/
def turn (r : SegmentReader) (batch : RowBatch) (g : SegmentGroup) : Turn :=
  if r.cursor.eof then .rest
  else
    match r.segment?, r.readers? with
    | some o, some t =>
      match r.positionColumns (r.fileOf o g) o t batch with
      | (.error e, _) => if e = .dataEof then .stop else .fail
      | (.ok (), r') =>
        match r'.loadBlock (r.fileOf o g) o (r'.readers?.getD []) batch with
        | (.error _, _) => .fail
        | (.ok _, _) => .load r'.cursor.current
    | _, _ => .fail

/-- Columns that are positioned stand at the next block. -/
theorem current_of_positionColumns {f : SegmentFile} {t : ReaderTable}
    (h : r.positionColumns f o t batch = (.ok (), r')) : r'.cursor.current = r.cursor.next := by
  rw [positionColumns] at h
  split at h
  · rcases hseek : seekColumns f o r.cursor.next batch.columnIds t with ⟨_ | _, t'⟩ <;>
      rw [hseek] at h
    · cases h
    · obtain rfl : _ = r' := congrArg Prod.snd h
      rfl
  · rename_i hstay
    obtain rfl : r = r' := congrArg Prod.snd h
    rw [Bool.or_eq_true, not_or, decide_eq_true_iff, not_not] at hstay
    exact hstay.2.symm

/-- A block that is loaded has as many rows as it should, and leads to the next one. -/
theorem loadBlock_ok {f : SegmentFile} {t : ReaderTable} {rows : Nat}
    (h : r.loadBlock f o t batch = (.ok rows, r', batch')) :
    rows = rowsToLoad o r.cursor.current batch.capacity
      ∧ ∃ r₁ : SegmentReader, r' = r₁.advance (r.cursor.next + 1) ∧ r₁.SameRange r
        ∧ r₁.cursor.eof = r.cursor.eof := by
  have hrows : rows = rowsToLoad o r.cursor.current batch.capacity := by
    rw [loadBlock] at h
    rcases hread : readColumns f (rowsToLoad o r.cursor.current batch.capacity) batch.columns 0 t batch with
      ⟨e | _, t', b⟩ <;> rw [hread] at h
    · cases h
    · exact (Except.ok.inj (congrArg Prod.fst h)).symm
  refine ⟨hrows, ?_⟩
  rcases loadBlock_cases r f o t batch with ⟨e, r₁, b, hload, -⟩ | ⟨rows', r₁, b, hload, hrange, heof⟩
  · rw [hload] at h
    cases h
  · rw [hload] at h
    exact ⟨r₁, (congrArg (fun x => x.2.1) h).symm, hrange, heof⟩

/-- What comes of a call for a block, by what it does. -/
def Outcome (r : SegmentReader) (batch : RowBatch) (g : SegmentGroup) (stats : ScanStatistics) :
    Turn → Prop
  | .rest => r.cursor.eof = true ∧ r.getBlock batch g stats = (.ok r.cursor.position, r, batch, stats)
  | .load b => r.cursor.eof = false ∧ b = r.cursor.next
      ∧ ∃ (o : OpenSegment) (r₁ : SegmentReader) (batch' : RowBatch) (traffic : Traffic),
        r.segment? = some o ∧ r₁.SameRange r ∧ r₁.cursor.eof = false
        ∧ r.getBlock batch g stats = (.ok (r₁.advance (b + 1)).cursor.position, r₁.advance (b + 1), batch',
            (stats.addTraffic traffic).addBlock (rowsToLoad o b batch.capacity))
  | .stop => r.cursor.eof = false
      ∧ ∃ (r₁ : SegmentReader) (traffic : Traffic), r₁.SameRange r ∧ r₁.cursor.eof = true
        ∧ r.getBlock batch g stats = (.ok r₁.cursor.position, r₁, batch, stats.addTraffic traffic)
  | .fail => ∀ x, (r.getBlock batch g stats).1 ≠ .ok x

/-- At the end of the scan a call changes nothing. -/
theorem getBlock_of_eof (heof : r.cursor.eof = true) (batch : RowBatch) (g : SegmentGroup)
    (stats : ScanStatistics) : r.getBlock batch g stats = (.ok r.cursor.position, r, batch, stats) := by
  rw [getBlock, if_pos heof]

/-- A call that cannot position its columns fails, or ends the scan if they have no more data. -/
theorem getBlock_unpositioned {t : ReaderTable} {e : StorageError} (heof : r.cursor.eof = false)
    (ho : r.segment? = some o) (hreaders : r.readers? = some t)
    (hposition : r.positionColumns (r.fileOf o g) o t batch = (.error e, r')) (stats : ScanStatistics) :
    r.getBlock batch g stats
      = if e = .dataEof then
          (.ok ⟨r'.cursor.next, true⟩, { r' with cursor := { r'.cursor with eof := true } }, batch,
            stats.addTraffic (trafficSince t (r'.readers?.getD [])))
        else (.error e, r', batch, stats.addTraffic (trafficSince t (r'.readers?.getD []))) := by
  rw [fileOf] at hposition
  rw [getBlock, heof, ho, hreaders, if_neg (by decide)]
  simp only [hposition]
  rfl

theorem getBlock_turn (r : SegmentReader) (batch : RowBatch) (g : SegmentGroup)
    (stats : ScanStatistics) : r.Outcome batch g stats (r.turn batch g) := by
  rw [turn]
  cases heof : r.cursor.eof with
  | true => exact ⟨heof, getBlock_of_eof heof batch g stats⟩
  | false =>
    rw [if_neg (by decide)]
    cases hsegment : r.segment? with
    | none =>
      intro x hx
      rw [getBlock, heof, hsegment, if_neg (by decide)] at hx
      cases hx
    | some o =>
      cases hreaders : r.readers? with
      | none =>
        intro x hx
        rw [getBlock, heof, hsegment, hreaders, if_neg (by decide)] at hx
        cases hx
      | some t =>
        dsimp only
        obtain ⟨hrange, hkept⟩ := positionColumns_sameRange r (r.fileOf o g) o t batch
        rcases hposition : r.positionColumns (r.fileOf o g) o t batch with ⟨e | _, r₁⟩ <;>
          rw [hposition] at hrange hkept
        · have hget := getBlock_unpositioned heof hsegment hreaders hposition stats
          by_cases hend : e = .dataEof
          · rw [if_pos hend] at hget
            simp only [if_pos hend]
            let r₂ : SegmentReader := { r₁ with cursor := { r₁.cursor with eof := true } }
            have hrange' : r₂.SameRange r :=
              ⟨hrange.segment, hrange.blocks, hrange.next, hrange.last, hrange.unfiltered⟩
            exact ⟨heof, r₂, _, hrange', rfl, hget⟩
          · rw [if_neg hend] at hget
            simp only [if_neg hend]
            intro x hx
            rw [hget] at hx
            cases hx
        · dsimp only
          have hcurrent := current_of_positionColumns hposition
          rcases hload : r₁.loadBlock (r.fileOf o g) o (r₁.readers?.getD []) batch with ⟨e | rows, r₂, batch'⟩
          · intro x hx
            rw [getBlock_eq heof hsegment hreaders hposition hload] at hx
            cases hx
          · obtain ⟨hrows, r₃, rfl, hrange', heof'⟩ := loadBlock_ok hload
            have hnext : r₁.cursor.next = r₁.cursor.current := hrange.next.trans hcurrent.symm
            rw [hnext] at hload
            subst hrows
            exact ⟨heof, hcurrent, o, r₃, batch', _, hsegment, hrange'.trans hrange,
              heof'.trans (hkept.trans heof), getBlock_eq heof hsegment hreaders hposition hload stats⟩

/-! ### What is ahead -/

/-- The scan goes past a block of its range without loading it. -/
def leavesOut (r : SegmentReader) (b : Nat) : Bool :=
  !r.cursor.unfiltered && r.blocks?.any fun m => m.get b = .excluded

/-- The blocks of a range that the scan does not leave out. -/
def within (r : SegmentReader) (first last : Nat) : List Nat :=
  (PruneRequest.range first last).filter fun b => !r.leavesOut b

/-- The blocks that a scan has still to load, in ascending order. -/
def ahead (r : SegmentReader) : List Nat :=
  if r.cursor.eof then [] else r.within r.cursor.next r.cursor.last

/-- The scan is at its end, or the next block is one to be loaded. -/
def Ready (r : SegmentReader) : Prop :=
  r.cursor.eof = false → r.cursor.next ≤ r.cursor.last ∧ r.leavesOut r.cursor.next = false

theorem within_cons {b : Nat} (hle : b ≤ last) :
    r.within b last = if r.leavesOut b then r.within (b + 1) last else b :: r.within (b + 1) last := by
  have hrange : PruneRequest.range b last = b :: PruneRequest.range (b + 1) last := by
    rw [PruneRequest.range, PruneRequest.range, show last + 1 - b = (last + 1 - (b + 1)) + 1 from by omega,
      List.range'_succ]
  rw [within, hrange, List.filter_cons]
  cases r.leavesOut b <;> rfl

theorem within_eq_nil {b : Nat} (hlt : last < b) : r.within b last = [] := by
  rw [within, PruneRequest.range, show last + 1 - b = 0 from by omega, List.range'_zero, List.filter_nil]

/-- The blocks that a filtered scan goes past are left out. -/
theorem within_firstIncluded {m : BlockMap} (hblocks : r.blocks? = some m)
    (hfilter : r.cursor.unfiltered = false) (last block fuel : Nat) :
    r.within (firstIncluded m last block fuel) last = r.within block last := by
  have hout : ∀ b, r.leavesOut b = decide (m.get b = .excluded) := fun b => by
    rw [leavesOut, hfilter, hblocks]
    rfl
  induction fuel generalizing block with
  | zero => rfl
  | succ fuel ih =>
    rw [firstIncluded]
    by_cases hskip : block ≤ last ∧ m.get block = .excluded
    · rw [if_pos hskip, ih, within_cons hskip.1, hout, decide_eq_true hskip.2, if_pos rfl]
    · rw [if_neg hskip]

/-- Moving on from a block goes past blocks that are left out, to one that is not or past the end. -/
theorem advance_within (r : SegmentReader) (block : Nat) :
    ∃ n, r.advance block = { r with cursor :=
        { r.cursor with next := n, eof := r.cursor.eof || decide (r.cursor.last < n) } }
      ∧ r.within n r.cursor.last = r.within block r.cursor.last
      ∧ (n ≤ r.cursor.last → r.leavesOut n = false) := by
  cases hblocks : r.blocks? with
  | none =>
    refine ⟨block, by rw [advance, hblocks], rfl, fun _ => ?_⟩
    rw [leavesOut, hblocks, Option.any_none, Bool.and_false]
  | some m =>
    cases hunfiltered : r.cursor.unfiltered with
    | true =>
      refine ⟨block, by rw [advance, hblocks, hunfiltered], rfl, fun _ => ?_⟩
      rw [leavesOut, hunfiltered, Bool.not_true, Bool.false_and]
    | false =>
      obtain ⟨-, hget⟩ := firstIncluded_spec m r.cursor.last (Nat.le_refl (r.cursor.last + 1 - block))
      refine ⟨_, by rw [advance, hblocks, hunfiltered], within_firstIncluded hblocks hunfiltered _ _ _,
        fun hle => ?_⟩
      rw [leavesOut, hblocks, Option.any_some, decide_eq_false (hget hle), Bool.and_false]

/-- What is ahead after moving on from a block: what the range has left from there on. -/
theorem ahead_advance (heof : r.cursor.eof = false) (block : Nat) :
    (r.advance block).ahead = r.within block r.cursor.last ∧ (r.advance block).Ready := by
  obtain ⟨n, hadvance, hwithin, hout⟩ := advance_within r block
  rw [hadvance, ← hwithin]
  by_cases hpast : r.cursor.last < n
  · refine ⟨?_, fun hgoes => absurd hgoes ?_⟩
    · rw [within_eq_nil hpast, ahead]
      simp [hpast]
    · simp [hpast]
  · refine ⟨?_, fun _ => ⟨Nat.le_of_not_lt hpast, hout (Nat.le_of_not_lt hpast)⟩⟩
    rw [ahead]
    simp only [heof, hpast, decide_false, Bool.or_self, Bool.false_eq_true, if_false]
    rfl

theorem Ready.ahead_eq_nil_iff (hr : r.Ready) : r.ahead = [] ↔ r.cursor.eof = true := by
  rw [ahead]
  cases heof : r.cursor.eof with
  | true => simp
  | false =>
    obtain ⟨hle, hout⟩ := hr heof
    rw [if_neg (by decide), within_cons hle, hout]
    simp

theorem SameRange.within (h : r'.SameRange r) (first last : Nat) :
    r'.within first last = r.within first last := by
  simp only [SegmentReader.within, leavesOut, h.blocks, h.unfiltered]

/-- A call that loads a block takes the first of those ahead, and is then about to load the next of them. -/
theorem Ready.turn_load (hr : r.Ready) (hrange : r'.SameRange r) (heof : r.cursor.eof = false)
    (heof' : r'.cursor.eof = false) :
    r.ahead = r.cursor.next :: (r'.advance (r.cursor.next + 1)).ahead
      ∧ (r'.advance (r.cursor.next + 1)).Ready := by
  obtain ⟨hahead, hready⟩ := ahead_advance heof' (r.cursor.next + 1)
  obtain ⟨hle, hout⟩ := hr heof
  refine ⟨?_, hready⟩
  rw [hahead, hrange.within, hrange.last, ahead, heof, if_neg (by decide), within_cons hle, hout]
  rfl

/-! ### A run of calls -/

/-- A call for a block: the position that was known before it, the batch to be filled, and what it did. -/
structure Fetch where
  known : ScanPosition
  batch : RowBatch
  turn : Turn

/-- Calls for blocks are made one after the other, for any batches, and all succeed. -/
inductive Fetches : ScanPosition → SegmentReader → ScanStatistics → List Fetch →
    ScanPosition → SegmentReader → ScanStatistics → Prop
  | none {p : ScanPosition} {r : SegmentReader} {stats : ScanStatistics} : Fetches p r stats [] p r stats
  | call {p p' p'' : ScanPosition} {r r' r'' : SegmentReader} {stats stats' stats'' : ScanStatistics}
      {batch batch' : RowBatch} {g : SegmentGroup} {fetches : List Fetch}
      (hget : r.getBlock batch g stats = (.ok p', r', batch', stats'))
      (hrest : Fetches p' r' stats' fetches p'' r'' stats'') :
      Fetches p r stats (⟨p, batch, r.turn batch g⟩ :: fetches) p'' r'' stats''

/-- The blocks that some calls have loaded, in the order in which they did. -/
def loaded (fetches : List Fetch) : List Nat := fetches.filterMap fun c => c.turn.block?

/-- Some call has ended the scan, since a column had no more data. -/
def Stopped (fetches : List Fetch) : Prop := ∃ c ∈ fetches, c.turn = .stop

variable {fetches : List Fetch}

/-- What some calls make of a scan that is about to load the next block. -/
structure Visited (r r' : SegmentReader) (p' : ScanPosition) (fetches : List Fetch) : Prop where
  position : p' = r'.cursor.position
  ready : r'.Ready
  /-- The blocks that were loaded were the first ahead, and the others still are. -/
  ahead : ∃ rest, r.ahead = loaded fetches ++ rest ∧ (¬Stopped fetches → rest = r'.ahead)
  stopped : Stopped fetches → r'.cursor.eof = true
  /-- Each block was announced by the call before. -/
  announced : ∀ c ∈ fetches, ∀ b, c.turn = .load b → c.known = ⟨b, false⟩
  /-- Until the end, each call has loaded a block. -/
  progress : r'.cursor.eof = false → (loaded fetches).length = fetches.length

/-- From the end of the scan on, calls do nothing. -/
theorem Fetches.rest (hrun : Fetches p r stats fetches p' r' stats') (hposition : p = r.cursor.position)
    (heof : r.cursor.eof = true) :
    p' = p ∧ r' = r ∧ stats' = stats ∧ ∀ c ∈ fetches, c.turn = .rest := by
  induction hrun with
  | none =>
    refine ⟨rfl, rfl, rfl, fun c hc => ?_⟩
    cases hc
  | @call p p₁ p' r r₁ r' stats stats₁ stats' batch batch₁ g fetches hget hrest ih =>
    have hrests : r.turn batch g = .rest := by rw [turn, if_pos heof]
    have hturn := getBlock_turn r batch g stats
    rw [hrests] at hturn
    have hsame := hget.symm.trans hturn.2
    simp only [Prod.mk.injEq, Except.ok.injEq] at hsame
    obtain ⟨rfl, rfl, -, rfl⟩ := hsame
    obtain ⟨rfl, rfl, rfl, hall⟩ := ih rfl heof
    exact ⟨hposition.symm, rfl, rfl, List.forall_mem_cons.mpr ⟨hrests, hall⟩⟩

theorem loaded_eq_nil (hall : ∀ c ∈ fetches, c.turn = .rest) : loaded fetches = [] := by
  rw [loaded, List.filterMap_eq_nil_iff]
  intro c hc
  rw [hall c hc]
  rfl

theorem not_stopped (hall : ∀ c ∈ fetches, c.turn = .rest) : ¬Stopped fetches := by
  rintro ⟨c, hc, hstop⟩
  rw [hall c hc] at hstop
  cases hstop

/-- Calls that do nothing have visited nothing. -/
theorem visited_of_rest (hposition : p = r.cursor.position) (hr : r.Ready) (heof : r.cursor.eof = true)
    (hall : ∀ c ∈ fetches, c.turn = .rest) : Visited r r p fetches where
  position := hposition
  ready := hr
  ahead := ⟨r.ahead, by rw [loaded_eq_nil hall]; rfl, fun _ => rfl⟩
  stopped := fun hstopped => absurd hstopped (not_stopped hall)
  announced := by
    intro c hc b hb
    rw [hall c hc] at hb
    cases hb
  progress := fun hgoes => absurd (heof.symm.trans hgoes) (by decide)

/-- A call that has ended the scan leaves what was ahead. -/
theorem visited_of_stop (heof : r'.cursor.eof = true) (hall : ∀ c ∈ fetches, c.turn = .rest) :
    Visited r r' r'.cursor.position (⟨p, batch, .stop⟩ :: fetches) := by
  have hstopped : Stopped (⟨p, batch, .stop⟩ :: fetches) := ⟨_, List.mem_cons_self, rfl⟩
  have hnone : loaded (⟨p, batch, .stop⟩ :: fetches) = [] := by
    show loaded fetches = []
    exact loaded_eq_nil hall
  have hannounced : ∀ c ∈ (⟨p, batch, .stop⟩ :: fetches : List Fetch), ∀ b, c.turn ≠ .load b := by
    refine List.forall_mem_cons.mpr ⟨fun b hb => ?_, fun c hc b hb => ?_⟩
    · cases hb
    · rw [hall c hc] at hb
      cases hb
  exact {
    position := rfl
    ready := fun hgoes => absurd (heof.symm.trans hgoes) (by decide)
    ahead := ⟨r.ahead, by rw [hnone]; rfl, fun hgoes => absurd hstopped hgoes⟩
    stopped := fun _ => heof
    announced := fun c hc b hb => absurd hb (hannounced c hc b)
    progress := fun hgoes => absurd (heof.symm.trans hgoes) (by decide) }

/-- A call that loads a block has taken the first of those ahead, and the calls after it visit the others. -/
theorem Visited.load {r₂ : SegmentReader} (h : Visited (r₂.advance (r.cursor.next + 1)) r' p' fetches)
    (hr : r.Ready) (hrange : r₂.SameRange r) (heof : r.cursor.eof = false) (heof₂ : r₂.cursor.eof = false)
    (hposition : p = r.cursor.position) :
    Visited r r' p' (⟨p, batch, .load r.cursor.next⟩ :: fetches) := by
  obtain ⟨hlast, hready, ⟨rest, hrest, hleft⟩, hstopped, hannounced, hprogress⟩ := h
  have hstops : Stopped (⟨p, batch, .load r.cursor.next⟩ :: fetches) ↔ Stopped fetches := by
    rw [Stopped, Stopped, List.exists_mem_cons_iff]
    exact or_iff_right fun hstop => by cases hstop
  have hcons : loaded (⟨p, batch, .load r.cursor.next⟩ :: fetches) = r.cursor.next :: loaded fetches := rfl
  refine ⟨hlast, hready, ⟨rest, ?_, fun hgoes => hleft (mt hstops.mpr hgoes)⟩, fun h => hstopped (hstops.mp h), ?_,
    fun hgoes => ?_⟩
  · rw [(hr.turn_load hrange heof heof₂).1, hrest, hcons]
    rfl
  · refine List.forall_mem_cons.mpr ⟨fun b hb => ?_, hannounced⟩
    obtain rfl := Turn.load.inj hb
    rw [hposition, ScanCursor.position, heof]
  · rw [hcons, List.length_cons, List.length_cons, hprogress hgoes]

theorem Fetches.visited (hrun : Fetches p r stats fetches p' r' stats') (hposition : p = r.cursor.position)
    (hr : r.Ready) : Visited r r' p' fetches := by
  -- the induction is on the calls; what is ahead shrinks from the front
  induction hrun with
  | none =>
    refine ⟨hposition, hr, ⟨_, rfl, fun _ => rfl⟩, ?_, ?_, fun _ => rfl⟩
    · rintro ⟨c, hc, -⟩
      cases hc
    · intro c hc
      cases hc
  | @call p p₁ p' r r₁ r' stats stats₁ stats' batch batch₁ g fetches hget hrest ih =>
    have hturn := getBlock_turn r batch g stats
    cases hdone : r.turn batch g with
    | rest =>
      rw [hdone] at hturn
      have hrun : Fetches p r stats (⟨p, batch, .rest⟩ :: fetches) p' r' stats' := hdone ▸ .call hget hrest
      obtain ⟨rfl, rfl, -, hall⟩ := hrun.rest hposition hturn.1
      exact visited_of_rest hposition hr hturn.1 hall
    | load b =>
      rw [hdone] at hturn
      obtain ⟨heof, rfl, o, r₂, batch', traffic, -, hrange, heof', hloads⟩ := hturn
      have hsame := hget.symm.trans hloads
      simp only [Prod.mk.injEq, Except.ok.injEq] at hsame
      obtain ⟨rfl, rfl, -, -⟩ := hsame
      exact (ih rfl (hr.turn_load hrange heof heof').2).load hr hrange heof heof' hposition
    | stop =>
      rw [hdone] at hturn
      obtain ⟨heof, r₂, traffic, hrange, heof', hstops⟩ := hturn
      have hsame := hget.symm.trans hstops
      simp only [Prod.mk.injEq, Except.ok.injEq] at hsame
      obtain ⟨rfl, rfl, -, -⟩ := hsame
      obtain ⟨rfl, rfl, -, hall⟩ := hrest.rest rfl heof'
      exact visited_of_stop heof' hall
    | fail =>
      rw [hdone] at hturn
      exact absurd (congrArg Prod.fst hget) (hturn p₁)

/-! ### The blocks after a seek -/

/-- A seek to a valid range counts what pruning has counted, if it prunes. -/
theorem seekRange_counted (r : SegmentReader) (g : SegmentGroup) (last : Nat) (unfiltered : Bool)
    (hcount : o.indexes.blockCount ≠ 0)
    (hvalid : unfiltered = false → first ≤ min last (o.indexes.blockCount - 1))
    (stats : ScanStatistics) :
    (r.seekRange o first last unfiltered g stats).2.2
      = if unfiltered then stats
        else stats.addFiltered
          ((r.pruneRequest o g).pruned first (min last (o.indexes.blockCount - 1))).deleted
          ((r.pruneRequest o g).pruned first (min last (o.indexes.blockCount - 1))).ruledOut := by
  cases unfiltered with
  | true =>
    rw [seekRange, if_neg hcount]
    rfl
  | false =>
    have hlast : min last (o.indexes.blockCount - 1) < (r.pruneRequest o g).indexes.blockCount := by
      show min last (o.indexes.blockCount - 1) < o.indexes.blockCount
      omega
    have hprune := PruneRequest.prune_eq (hvalid rfl) hlast
    rw [pruneRequest] at hprune
    simp only [seekRange, hcount, if_false, Bool.false_eq_true, pruneRequest, hprune]

namespace Seek

variable {q : Seek} {stats₀ : ScanStatistics} {r₀ : SegmentReader}

/-- Pruning has excluded the block. Without a filter no block is. -/
def excludes (q : Seek) (o : OpenSegment) (b : Nat) : Bool :=
  !q.unfiltered &&
    match q.pruning o with
    | .ok s => s.blocks.get b = .excluded
    | .error _ => true

/-- The blocks of the range that are not excluded, in ascending order. -/
def survivors (q : Seek) (o : OpenSegment) : List Nat :=
  (List.range o.indexes.blockCount).filter fun b =>
    decide (q.first ≤ b ∧ b ≤ q.lastBlock o) && !q.excludes o b

/-- The survivors are found by going through the range. -/
theorem survivors_eq (hcount : o.indexes.blockCount ≠ 0) :
    q.survivors o = (PruneRequest.range q.first (q.lastBlock o)).filter fun b => !q.excludes o b := by
  have hlast : q.lastBlock o < o.indexes.blockCount := by
    show min q.last (o.indexes.blockCount - 1) < o.indexes.blockCount
    omega
  rw [survivors, BlockMap.filter_range_eq hlast fun b hb => by rw [decide_eq_false hb, Bool.false_and]]
  refine List.filter_congr fun b hb => ?_
  rw [decide_eq_true (PruneRequest.mem_range.mp hb), Bool.true_and]

/-- What a seek that is answered leaves, and what it has counted. -/
structure Answered (q : Seek) (o : OpenSegment) (p : ScanPosition) (r₀ : SegmentReader)
    (stats₀ : ScanStatistics) : Prop where
  position : p = r₀.cursor.position
  segment : r₀.segment? = some o
  ready : r₀.Ready
  ahead : r₀.ahead = q.survivors o
  unpruned : q.unfiltered = true → stats₀ = q.stats
  pruned : q.unfiltered = false → o.indexes.blockCount ≠ 0 →
    ∃ s, q.pruning o = .ok s ∧ r₀.blocks? = some s.blocks
      ∧ stats₀ = q.stats.addFiltered s.deleted s.ruledOut

/-- A seek that is answered went to its range, with the column readers made. -/
theorem outcome_of_ok (hseek : q.outcome = (.ok p, r₀, stats₀)) :
    ∃ (o : OpenSegment) (r : SegmentReader), q.reader.segment? = some o ∧ r.context = q.reader.context
      ∧ r.segment? = some o
      ∧ r.seekRange o q.first q.last q.unfiltered q.group q.stats = (.ok p, r₀, stats₀) := by
  rw [outcome, seekToBlock] at hseek
  cases hsegment : q.reader.segment? with
  | none =>
    rw [hsegment] at hseek
    cases hseek
  | some o =>
    rw [hsegment] at hseek
    dsimp only at hseek
    cases hreaders : q.reader.readers? with
    | some t =>
      rw [hreaders] at hseek
      exact ⟨o, q.reader, rfl, rfl, hsegment, hseek⟩
    | none =>
      rw [hreaders] at hseek
      dsimp only at hseek
      cases hmake : q.reader.makeReaders o q.group.schema with
      | error e =>
        rw [hmake] at hseek
        cases hseek
      | ok t =>
        rw [hmake] at hseek
        exact ⟨o, { q.reader with segment? := some o, readers? := some t }, rfl, rfl, rfl, hseek⟩

/-- A seek to a valid range answers with the first survivor, and counts what pruning has. -/
theorem answered_of_valid {r : SegmentReader} (hcontext : r.context = q.reader.context)
    (hopened : r.segment? = some o) (hcount : o.indexes.blockCount ≠ 0)
    (hvalid : q.unfiltered = false → q.first ≤ q.lastBlock o)
    (hrange : r.seekRange o q.first q.last q.unfiltered q.group q.stats = (.ok p, r₀, stats₀)) :
    q.Answered o p r₀ stats₀ := by
  let s := (r.pruneRequest o q.group).pruned q.first (q.lastBlock o)
  obtain ⟨stats', hseek⟩ := seekRange_eq r q.group q.last q.unfiltered hcount hvalid q.stats
  have hstats := seekRange_counted r q.group q.last q.unfiltered hcount hvalid q.stats
  rw [hrange] at hseek hstats
  change (_, _, _) = (_, (r.ranged (q.lastBlock o) q.unfiltered s).advance q.first, _) at hseek
  change stats₀ = if q.unfiltered = true then q.stats else q.stats.addFiltered s.deleted s.ruledOut at hstats
  simp only [Prod.mk.injEq, Except.ok.injEq] at hseek
  obtain ⟨hp, hr₀, -⟩ := hseek
  have hpruning : q.unfiltered = false → q.pruning o = .ok s := by
    intro hfilter
    have hlast : q.lastBlock o < (r.pruneRequest o q.group).indexes.blockCount := by
      show min q.last (o.indexes.blockCount - 1) < o.indexes.blockCount
      omega
    rw [pruning, ← PruneRequest.prune_eq (hvalid hfilter) hlast, pruneRequest, pruneRequest, hcontext]
  have hout : ∀ b, (r.ranged (q.lastBlock o) q.unfiltered s).leavesOut b = q.excludes o b := by
    intro b
    rw [leavesOut, excludes, ranged]
    cases hunfiltered : q.unfiltered with
    | true => rfl
    | false =>
      rw [hpruning hunfiltered]
      rfl
  obtain ⟨hahead, hready⟩ := ahead_advance (r := r.ranged (q.lastBlock o) q.unfiltered s) rfl q.first
  obtain ⟨n, hadvance, -, -⟩ := exists_advance (r.ranged (q.lastBlock o) q.unfiltered s) q.first
  subst hp hr₀
  refine ⟨rfl, by rw [hadvance]; exact hopened, hready, ?_, fun hunfiltered => ?_, fun hfilter _ => ?_⟩
  · rw [hahead, survivors_eq hcount, SegmentReader.within]
    exact List.filter_congr fun b _ => by rw [hout]
  · rw [hstats, hunfiltered, if_pos rfl]
  · refine ⟨s, hpruning hfilter, ?_, ?_⟩
    · rw [hadvance, hfilter]
      rfl
    · rw [hstats, hfilter, if_neg (by decide)]

theorem answered (hseek : q.outcome = (.ok p, r₀, stats₀)) :
    ∃ o, q.reader.segment? = some o ∧ q.Answered o p r₀ stats₀ := by
  obtain ⟨o, r, hsegment, hcontext, hopened, hrange⟩ := outcome_of_ok hseek
  refine ⟨o, hsegment, ?_⟩
  by_cases hcount : o.indexes.blockCount = 0
  · simp only [seekRange, hcount, if_true, Prod.mk.injEq, Except.ok.injEq] at hrange
    obtain ⟨rfl, rfl, rfl⟩ := hrange
    refine ⟨rfl, hopened, fun h => absurd h Bool.true_eq_false_eq_False, ?_, fun _ => rfl,
      fun _ h => absurd hcount h⟩
    rw [survivors, hcount]
    rfl
  · by_cases hvalid : q.unfiltered = false → q.first ≤ q.lastBlock o
    · exact answered_of_valid hcontext hopened hcount hvalid hrange
    · -- a range that ends before it starts is refused
      obtain ⟨hfilter, hinvalid⟩ := Classical.not_imp.mp hvalid
      obtain ⟨e, hrefused⟩ := seekRange_invalid r q.group hcount (Nat.lt_of_not_le hinvalid) q.stats
      rw [hfilter, hrefused] at hrange
      cases hrange

end Seek

/-! ### The blocks that are visited -/

theorem Seek.length_survivors_le (q : Seek) (o : OpenSegment) :
    (q.survivors o).length ≤ min q.last (o.indexes.blockCount - 1) + 1 - q.first := by
  by_cases hcount : o.indexes.blockCount = 0
  · rw [Seek.survivors, hcount]
    exact Nat.zero_le _
  · rw [Seek.survivors_eq hcount]
    refine Nat.le_trans (List.length_filter_le _ _) ?_
    rw [PruneRequest.range, List.length_range']
    rfl

/-- After a seek that is answered, calls that succeed load the blocks of the range that are not excluded, from
the first of them on, each once and as announced. The scan is at its end when all of them are loaded, and
before only if a column has no more data. It gets there, and then nothing changes. -/
theorem fetches_visit (q : Seek) {r₀ : SegmentReader} {stats₀ : ScanStatistics}
    (hseek : q.outcome = (.ok p, r₀, stats₀)) (hrun : Fetches p r₀ stats₀ fetches p' r' stats') :
    ∃ o, q.reader.segment? = some o
      ∧ loaded fetches <+: q.survivors o ∧ (loaded fetches).Pairwise (· < ·)
      ∧ (loaded fetches).length ≤ min q.last (o.indexes.blockCount - 1) + 1 - q.first
      ∧ (∀ c ∈ fetches, ∀ b, c.turn = .load b → c.known = ⟨b, false⟩)
      ∧ (p'.eof = true ↔ loaded fetches = q.survivors o ∨ Stopped fetches)
      ∧ ((q.survivors o).length ≤ fetches.length → p'.eof = true)
      ∧ (p'.eof = true → ∀ batch g stats, r'.getBlock batch g stats = (.ok p', r', batch, stats)) := by
  obtain ⟨o, hsegment, ha⟩ := q.answered hseek
  obtain ⟨rfl, hready, ⟨rest, hsplit, hleft⟩, hstopped, hannounced, hprogress⟩ :=
    hrun.visited ha.position ha.ready
  rw [ha.ahead] at hsplit
  have hprefix : loaded fetches <+: q.survivors o := ⟨rest, hsplit.symm⟩
  have hlength : (q.survivors o).length = (loaded fetches).length + rest.length := by
    rw [hsplit, List.length_append]
  -- what is not loaded is still ahead, unless a column has ended the scan
  have hend : r'.cursor.eof = true ↔ rest = [] ∨ Stopped fetches := by
    by_cases hs : Stopped fetches
    · exact iff_of_true (hstopped hs) (.inr hs)
    · rw [hleft hs, hready.ahead_eq_nil_iff, or_iff_left hs]
  have hall : loaded fetches = q.survivors o ↔ rest = [] := by
    rw [hsplit, List.self_eq_append_right]
  have hbound := q.length_survivors_le o
  refine ⟨o, hsegment, hprefix, ?_, by omega, hannounced, ?_, fun hlong => ?_, getBlock_of_eof⟩
  · exact List.Pairwise.sublist hprefix.sublist (List.pairwise_lt_range.filter _)
  · rw [hall]
    exact hend
  · cases heof : r'.cursor.eof with
    | true => exact heof
    | false =>
      have hmade := hprogress heof
      have hnone : rest = [] := List.length_eq_zero_iff.mp (by omega)
      exact absurd (hend.mpr (.inl hnone)) (by rw [heof]; decide)

/-! ### A scan that leaves out blocks -/

/-- Keys that are not negative, of which zeros were deleted. Zone maps come from the cache. -/
def pickyContext : ReadContext :=
  ⟨[0], [], some (.ofList [(0, .compare .ge (.int32 0))]), some [⟨1, .ofList [(0, .compare .eq (.int32 0))]⟩],
    .unknown, true, .default⟩

/-- The compressed segment, the header of which was parsed before. -/
def parsedGroup : SegmentGroup := { SegmentGroup.single .runs with metas := [(0, WrittenSegment.runs.info)] }

/-- A cache with the zone map of the keys. -/
def zoneCache : IndexCache :=
  let key : Column := ⟨10, "key", .int32, true, false, .none, none⟩
  let entries := key.zoneEntries WrittenSegment.runs.options [] (WrittenSegment.runs.columnBlocks 0)
  (IndexCache.empty.insert ⟨parsedGroup.segmentPath 0, 10, .rowIndex⟩ (ZoneMap.encode entries)).2

/-- Room for a block of keys. -/
def pickyBatch : RowBatch := ⟨[⟨0, .int32, .empty .int32⟩], 6, 0, .needsRowFilter⟩

/-- The first block is deleted and the last one ruled out. One call loads the block between them. -/
theorem fetches_picky {opened : InitResult}
    (hopened : opened = (make 0 pickyContext).init true parsedGroup zoneCache .zero) :
    opened.result = .ok ()
      ∧ ∃ r₀ stats₀ fetches r' stats',
        opened.reader.seekToBlock 0 7 false opened.group .zero = (.ok ⟨1, false⟩, r₀, stats₀)
      ∧ Fetches ⟨1, false⟩ r₀ stats₀ fetches ⟨3, true⟩ r' stats'
      ∧ loaded fetches = [1] ∧ ¬Stopped fetches ∧ (∀ c ∈ fetches, c.batch.capacity = 6)
      ∧ stats'.rowsDeleted = 6 ∧ stats'.rowsRuledOut = 5 ∧ stats'.rowsRead = 6 := by
  have hrun : ∀ opened sought, opened = (make 0 pickyContext).init true parsedGroup zoneCache .zero →
      sought = opened.reader.seekToBlock 0 7 false opened.group .zero →
      opened.result = .ok () ∧ sought.1 = .ok ⟨1, false⟩
        ∧ sought.2.1.turn pickyBatch opened.group = .load 1
        ∧ (sought.2.1.getBlock pickyBatch opened.group sought.2.2).1 = .ok ⟨3, true⟩
        ∧ (sought.2.1.getBlock pickyBatch opened.group sought.2.2).2.2.2.rowsDeleted = 6
        ∧ (sought.2.1.getBlock pickyBatch opened.group sought.2.2).2.2.2.rowsRuledOut = 5
        ∧ (sought.2.1.getBlock pickyBatch opened.group sought.2.2).2.2.2.rowsRead = 6 := by
    intro opened sought hopened hsought
    rw [hsought, hopened]
    decide +kernel
  rcases hseek : opened.reader.seekToBlock 0 7 false opened.group .zero with ⟨answer, r₀, stats₀⟩
  obtain ⟨hresult, hanswer, hturn, hreply, hcounters⟩ := hrun opened _ hopened hseek.symm
  obtain rfl : answer = .ok ⟨1, false⟩ := hanswer
  rcases hget : r₀.getBlock pickyBatch opened.group stats₀ with ⟨reply, r', batch', stats'⟩
  dsimp only at hturn hreply hcounters
  rw [hget] at hreply hcounters
  obtain rfl : reply = .ok ⟨3, true⟩ := hreply
  refine ⟨hresult, r₀, stats₀, _, r', stats', rfl, .call hget .none, ?_, ?_, ?_, hcounters⟩
  · rw [loaded, List.filterMap_cons, hturn]
    rfl
  · rintro ⟨c, hc, hstop⟩
    obtain rfl := List.mem_singleton.mp hc
    cases hturn.symm.trans hstop
  · exact List.forall_mem_singleton.mpr rfl

/-- Of the three blocks of the compressed segment only the second is visited, and the scan is then at its end. -/
theorem fetches_visit_picky :
    let opened := (make 0 pickyContext).init true parsedGroup zoneCache .zero
    let q : Seek := ⟨opened.reader, 0, 7, false, opened.group, .zero⟩
    ∃ r₀ stats₀ fetches r' stats' o, q.outcome = (.ok ⟨1, false⟩, r₀, stats₀)
      ∧ Fetches ⟨1, false⟩ r₀ stats₀ fetches ⟨3, true⟩ r' stats'
      ∧ opened.reader.segment? = some o ∧ q.survivors o = [1] ∧ loaded fetches = [1] := by
  intro opened q
  obtain ⟨-, r₀, stats₀, fetches, r', stats', hseek, hrun, hloaded, hgoes, -⟩ := fetches_picky (Eq.refl opened)
  clear_value opened
  have hsent : q.outcome = (.ok ⟨1, false⟩, r₀, stats₀) := hseek
  obtain ⟨o, hsegment, -, -, -, -, hend, -⟩ := fetches_visit q hsent hrun
  have hall := (hend.mp rfl).resolve_right hgoes
  exact ⟨r₀, stats₀, fetches, r', stats', o, hsent, hrun, hsegment, hall.symm.trans hloaded, hloaded⟩

end SegmentReader

end SegmentStore
