import SegmentStore.Proofs.Likeness
import SegmentStore.Proofs.Numbering
import SegmentStore.Proofs.Traversal

/-!
# A seek forgets the past

What a scan has done to its streams and its cursor before a seek does not show in what it returns after it.

* `SegmentReader.Twins` relates two readers that return the same from now on. Their streams may stand at different
  places only as long as they have to be positioned first. `SegmentReader.getBlock_twins` is the step and
  `SegmentReader.Twins.answers_eq` the run.
* `SegmentReader.Descends` is what calls keep of a reader that was initialised: `SegmentReader.descends_call` is
  the step and `SegmentReader.descends_foldl` the run.
* `SegmentReader.seek_uniform` says that a seek leads all readers that descend from one to the same place, up to
  their streams.
* `SegmentReader.seek_forgets` puts them together.
-/

namespace SegmentStore

/-- The segment has a row index of each column of a scan that it stores. -/
def OpenSegment.RowIndexed (o : OpenSegment) (used : List ColumnId) : Prop :=
  ∀ cid ∈ used, ∀ uid, o.mapping.storedId? cid = some uid →
    ∃ info ∈ o.info.header.streams, info.kind = .rowIndex ∧ info.uniqueId = uid

/-- A segment that was written has a row index of each column that it stores. -/
theorem OpenSegment.Of.rowIndexed {o : OpenSegment} {s : WrittenSegment} {used : List ColumnId}
    (ho : o.Of s used) : o.RowIndexed used := by
  intro cid _ uid huid
  obtain ⟨j, c, -, hc, rfl⟩ := ho.mapping.storedId?_eq_some.mp huid
  have hcontains : s.Contains c.uniqueId .rowIndex
      (ZoneMap.encode (c.zoneEntries s.options [] (s.columnBlocks j))) := ⟨j, c, hc, rfl, rfl⟩
  obtain ⟨l, hl, hname, hkind⟩ := WrittenSegment.exists_located hcontains 0
  have hlisted := List.mem_map_of_mem (f := LocatedStream.info) hl
  rw [StreamInfo.map_info_placeAll] at hlisted
  rw [ho.info]
  exact ⟨l.info, hlisted, hkind, hname⟩

/-! ### Tables of readers -/

namespace ReaderTable

variable {f : SegmentFile} {o : OpenSegment} {t t' u : ReaderTable} {ids done : List ColumnId}
variable {cid : ColumnId} {r r' : ColumnReader}

/-- The tables have readers of the same streams. -/
def SameStreams (t t' : ReaderTable) : Prop :=
  ∀ cid, (t.lookup cid).map (·.home) = (t'.lookup cid).map (·.home)

/-- The readers of some columns are alike. -/
def AlikeAt (ids : List ColumnId) (t t' : ReaderTable) : Prop :=
  ∀ cid ∈ ids, Option.Rel ColumnReader.Alike (t.lookup cid) (t'.lookup cid)

theorem SameStreams.refl (t : ReaderTable) : t.SameStreams t := fun _ => rfl

theorem SameStreams.symm (h : t.SameStreams t') : t'.SameStreams t := fun cid => (h cid).symm

theorem SameStreams.trans (h : t.SameStreams t') (h' : t'.SameStreams u) : t.SameStreams u :=
  fun cid => (h cid).trans (h' cid)

/-- What is found in one of the tables has a counterpart in the other. -/
theorem SameStreams.lookup (h : t.SameStreams t') (cid : ColumnId) :
    (t.lookup cid = none ∧ t'.lookup cid = none)
      ∨ ∃ r r', t.lookup cid = some r ∧ t'.lookup cid = some r' ∧ r.home = r'.home := by
  have hrel := rel_of_map_eq (h cid)
  generalize t.lookup cid = x at hrel
  generalize t'.lookup cid = y at hrel
  cases hrel with
  | none => exact .inl ⟨rfl, rfl⟩
  | some hhome => exact .inr ⟨_, _, rfl, rfl, hhome⟩

/-- A reader that was moved is put back. -/
theorem sameStreams_set (hlookup : t.lookup cid = some r) (hhome : r'.home = r.home) :
    (t.set cid r').SameStreams t := by
  intro a
  rw [lookup_set]
  by_cases ha : a = cid
  · subst ha
    rw [if_pos rfl, hlookup]
    exact congrArg some hhome
  · rw [if_neg ha]

/-- Readers that are alike are put into the tables. -/
theorem AlikeAt.set (h : t.AlikeAt ids t') (hlookup : t.lookup cid = some r) {s s' : ColumnReader}
    (hlookup' : t'.lookup cid = some r') (halike : s.Alike s') :
    (t.set cid s).AlikeAt (cid :: ids) (t'.set cid s') := by
  intro a ha
  rw [lookup_set, lookup_set]
  by_cases hsame : a = cid
  · rw [if_pos hsame, if_pos hsame, hlookup, hlookup']
    exact .some halike
  · rw [if_neg hsame, if_neg hsame]
    exact h a ((List.mem_cons.mp ha).resolve_left hsame)

theorem AlikeAt.refl (ids : List ColumnId) (t : ReaderTable) : t.AlikeAt ids t := by
  intro cid _
  cases t.lookup cid with
  | none => exact .none
  | some r => exact .some (.refl r)

theorem AlikeAt.mono (h : t.AlikeAt ids t') (hsub : done ⊆ ids) : t.AlikeAt done t' :=
  fun cid hcid => h cid (hsub hcid)

/-- Every column with streams has a zone map that says where its blocks start. -/
def Indexed (o : OpenSegment) (t : ReaderTable) : Prop :=
  ∀ cid p, (t.lookup cid).map (·.home) = some (.plain p) →
    (o.mapping.uniqueId? cid).bind o.indexes.zoneMap? ≠ none

theorem Indexed.of_same (h : t.Indexed o) (hsame : t'.SameStreams t) : t'.Indexed o := by
  intro cid p hp
  rw [hsame cid] at hp
  exact h cid p hp

/-- Readers of a column without a zone map are alike, having no streams. -/
theorem Indexed.alike (h : t.Indexed o) (hsame : t.SameStreams t')
    (hzone : (o.mapping.uniqueId? cid).bind o.indexes.zoneMap? = none) :
    Option.Rel ColumnReader.Alike (t.lookup cid) (t'.lookup cid) := by
  rcases hsame.lookup cid with ⟨hnone, hnone'⟩ | ⟨r, r', hr, hr', hhome⟩
  · rw [hnone, hnone']
    exact .none
  · rw [hr, hr']
    rcases ColumnReader.cases_of_home hhome with ⟨p, p', rfl, rfl, -⟩ | ⟨uid, x, rfl, rfl⟩
    · exact absurd hzone (h cid p.home (by rw [hr]; rfl))
    · exact .some (.constant uid x)

/-! ### Which readers have streams -/

/-- The readers of streams are those of some columns that the segment stores. -/
def OfStored (t : ReaderTable) (schema : TabletSchema) (m : ColumnMapping) (cids : List ColumnId) : Prop :=
  ∀ cid p, t.lookup cid = some (.plain p) →
    cid ∈ cids ∧ ∃ column, schema.column? cid = some column ∧ m.isStored column.uniqueId = true

variable {schema : TabletSchema} {m : ColumnMapping} {streams streams' : StreamTable} {used cids : List ColumnId}

theorem stored_of_makeReader {p : PlainReader}
    (h : makeReader schema m streams cid = .ok (.plain p, streams')) :
    ∃ column, schema.column? cid = some column ∧ m.isStored column.uniqueId = true := by
  rw [makeReader] at h
  split at h
  · cases h
  · rename_i column hcolumn
    dsimp only at h
    split at h
    · rename_i hstored
      exact ⟨column, hcolumn, hstored⟩
    · cases h

/-- The readers that are made for some columns have streams only of stored ones. -/
theorem ofStored_make (ht : t.OfStored schema m used) (hcids : cids ⊆ used)
    (h : make schema m cids streams t = .ok t') : t'.OfStored schema m used := by
  induction cids generalizing streams t with
  | nil =>
    obtain rfl := Except.ok.inj h
    exact ht
  | cons cid cids ih =>
    obtain ⟨hcid, hcids⟩ := List.cons_subset.mp hcids
    rw [make] at h
    split at h
    · exact ih ht hcids h
    · rename_i hnew
      rw [Bool.not_eq_true, Option.isSome_eq_false_iff, Option.isNone_iff_eq_none] at hnew
      split at h
      · cases h
      · rename_i r streams' hmake
        refine ih ?_ hcids h
        intro a p hp
        rw [lookup_concat hnew] at hp
        split at hp
        · rename_i hsame
          subst hsame
          obtain rfl := Option.some.inj hp
          exact ⟨hcid, stored_of_makeReader hmake⟩
        · exact ht a p hp

end ReaderTable

namespace ScanCursor

/-- The columns stand at the start of the block to be loaded next. -/
def Settled (c : ScanCursor) : Prop := c.needsSeek = false ∧ c.next = c.current

/-- The cursor once the columns are positioned. -/
def settle (c : ScanCursor) : ScanCursor := { c with current := c.next, needsSeek := false }

/-- The cursor once `rows` rows of a block were loaded: the columns stand behind the block, or it is not known where
they stand. -/
def passed (c : ScanCursor) (o : OpenSegment) (rows : Nat) : ScanCursor :=
  if rows = o.rowsPerBlock then { c with current := c.current + 1 } else { c with needsSeek := true }

end ScanCursor

namespace SegmentReader

open ReaderTable

variable {f : SegmentFile} {o : OpenSegment} {t t' : ReaderTable} {ids done : List ColumnId}
variable {batch : RowBatch} {block rows : Nat}

/-! ### Positioning and reading columns -/

theorem seekColumns_same (f : SegmentFile) (o : OpenSegment) (block : Nat) (ids : List ColumnId)
    (t : ReaderTable) : (seekColumns f o block ids t).2.SameStreams t := by
  induction ids generalizing t with
  | nil => exact .refl t
  | cons cid ids ih =>
    rw [seekColumns]
    split
    · exact ih t
    · rename_i z _
      split
      · exact .refl t
      · rename_i r hlookup
        have hhome := r.seek_home f (z.entries[block]?.getD default).positions
        dsimp only
        split <;> rename_i hseek <;> rw [hseek] at hhome
        · exact (ih _).trans (sameStreams_set hlookup hhome)
        · exact sameStreams_set hlookup hhome

/-- Columns that are positioned are alike, wherever they stood. The induction is on the columns that are left, those
before them being alike already. -/
theorem seekColumns_converges (f : SegmentFile) (block : Nat) (ids : List ColumnId) (ht : t.Indexed o)
    (hsame : t.SameStreams t') (hdone : t.AlikeAt done t') :
    Converge (AlikeAt (ids.reverse ++ done)) (seekColumns f o block ids t) (seekColumns f o block ids t') := by
  induction ids generalizing t t' done with
  | nil => exact ⟨rfl, fun _ _ => hdone⟩
  | cons cid ids ih =>
    rw [List.reverse_cons, List.append_assoc, List.singleton_append, seekColumns, seekColumns]
    cases hzone : (o.mapping.uniqueId? cid).bind o.indexes.zoneMap? with
    | none =>
      have hmore : t.AlikeAt (cid :: done) t' := by
        intro a ha
        rcases List.mem_cons.mp ha with rfl | ha
        · exact ht.alike hsame hzone
        · exact hdone a ha
      exact ih ht hsame hmore
    | some z =>
      dsimp only
      rcases hsame.lookup cid with ⟨hnone, hnone'⟩ | ⟨r, r', hr, hr', hhome⟩
      · rw [hnone, hnone']
        exact .error rfl
      · rw [hr, hr']
        dsimp only
        have hkept := r.seek_home f (z.entries[block]?.getD default).positions
        have hkept' := r'.seek_home f (z.entries[block]?.getD default).positions
        rcases (ColumnReader.seek_converges f hhome (z.entries[block]?.getD default).positions).cases with
          ⟨e, s, s', hseek, hseek'⟩ | ⟨⟨⟩, s, s', hseek, hseek', halike⟩ <;>
          rw [hseek] at hkept <;> rw [hseek'] at hkept' <;> rw [hseek, hseek']
        · have huid : s.uniqueId = s'.uniqueId :=
            ColumnReader.uniqueId_eq (hkept.trans (hhome.trans hkept'.symm))
          exact .error (by rw [huid])
        · have hset := sameStreams_set hr hkept
          have hset' := sameStreams_set hr' hkept'
          exact ih (ht.of_same hset) (hset.trans (hsame.trans hset'.symm)) (hdone.set hr hr' halike)

theorem readColumns_same (f : SegmentFile) (rows : Nat) (cs : List BatchColumn) (i : Nat) (t : ReaderTable)
    (batch : RowBatch) : (readColumns f rows cs i t batch).2.1.SameStreams t := by
  induction cs generalizing i t batch with
  | nil => exact .refl t
  | cons c cs ih =>
    rw [readColumns]
    split
    · exact .refl t
    · rename_i r hlookup
      have hhome := r.nextVector_home f c.type rows
      split <;> rename_i hread <;> rw [hread] at hhome
      · exact sameStreams_set hlookup hhome
      · exact (ih _ _ _).trans (sameStreams_set hlookup hhome)

/-- Columns that are alike fill a batch alike, and are alike again. -/
theorem readColumns_agrees (f : SegmentFile) (rows : Nat) {cs : List BatchColumn}
    (hcs : cs.map (·.id) ⊆ ids) (i : Nat) (h : t.AlikeAt ids t') (batch : RowBatch) :
    Agree (fun x y : ReaderTable × RowBatch => x.1.AlikeAt ids y.1 ∧ x.2 = y.2)
      (readColumns f rows cs i t batch) (readColumns f rows cs i t' batch) := by
  induction cs generalizing i t t' batch with
  | nil => exact ⟨rfl, h, rfl⟩
  | cons c cs ih =>
    obtain ⟨hc, hcs⟩ := List.cons_subset.mp hcs
    have hrel := h c.id hc
    rw [readColumns, readColumns]
    generalize hr : t.lookup c.id = r? at hrel
    generalize hr' : t'.lookup c.id = r?' at hrel
    cases hrel with
    | none => exact ⟨rfl, h, rfl⟩
    | @some r r' halike =>
      obtain ⟨result, s, s', hread, hread', halike'⟩ :=
        (ColumnReader.nextVector_agrees f c.type rows halike).exists_eq
      have hset := (h.set hr hr' halike').mono (List.subset_cons_self c.id ids)
      dsimp only
      rw [hread, hread']
      cases result with
      | error e => exact ⟨rfl, hset, rfl⟩
      | ok v => exact ih hcs (i + 1) hset (batch.setVector i v)

/-! ### Two readers of one segment -/

variable {x r r' : SegmentReader} {t₀ : ReaderTable} {blocks? : Option BlockMap} {c : ScanCursor} {n : Nat}
variable {g : SegmentGroup} {stats : ScanStatistics} {schema : TabletSchema}

/-- What calls change of a reader: the readers of its columns, the dispositions and the cursor. -/
def moved (x : SegmentReader) (t : ReaderTable) (blocks? : Option BlockMap) (c : ScanCursor) : SegmentReader :=
  { x with readers? := some t, blocks?, cursor := c }

/-- The columns of two scans, one at the cursor `c`, the other at the same cursor but for its current block `n`.
They stand at the same places unless they have to be positioned before they are read. -/
structure Abreast (t₀ : ReaderTable) (ids : List ColumnId) (c : ScanCursor) (n : Nat) (t t' : ReaderTable) :
    Prop where
  left : t.SameStreams t₀
  right : t'.SameStreams t₀
  current : c.needsSeek = false → n = c.current
  alike : c.Settled → t.AlikeAt ids t'

/-- Two readers that return the same from now on, for batches of some columns. -/
def Twins (x : SegmentReader) (t₀ : ReaderTable) (ids : List ColumnId) (r r' : SegmentReader) : Prop :=
  ∃ t t' blocks? c n, r = x.moved t blocks? c ∧ r' = x.moved t' blocks? { c with current := n }
    ∧ Abreast t₀ ids c n t t'

theorem positionColumns_of_settled (hsettled : c.Settled) (x : SegmentReader) (blocks? : Option BlockMap)
    (f : SegmentFile) (o : OpenSegment) (t : ReaderTable) (batch : RowBatch) :
    (x.moved t blocks? c).positionColumns f o t batch = (.ok (), x.moved t blocks? c.settle) := by
  obtain ⟨hneeds, hnext⟩ := hsettled
  obtain ⟨current, next, last, eof, unfiltered, needsSeek⟩ := c
  obtain rfl : needsSeek = false := hneeds
  obtain rfl : next = current := hnext
  rw [positionColumns, moved, if_neg (by simp)]
  rfl

theorem positionColumns_of_unsettled (hunsettled : ¬c.Settled) (x : SegmentReader)
    (blocks? : Option BlockMap) (f : SegmentFile) (o : OpenSegment) (t : ReaderTable) (batch : RowBatch) :
    (x.moved t blocks? c).positionColumns f o t batch
      = match seekColumns f o c.next batch.columnIds t with
        | (.ok (), t') => (.ok (), x.moved t' blocks? c.settle)
        | (.error e, t') => (.error e, x.moved t' blocks? c) := by
  have hmove : (c.needsSeek || decide (c.next ≠ c.current)) = true := by
    by_contra hstay
    rw [Bool.or_eq_true, not_or, decide_eq_true_iff, not_not, Bool.not_eq_true] at hstay
    exact hunsettled hstay
  rw [positionColumns, moved, if_pos hmove]
  dsimp only
  rcases seekColumns f o c.next batch.columnIds t with ⟨e | _, t'⟩ <;> rfl

/-- Positioning fails for both readers, or leaves their columns alike. -/
theorem Abreast.positionColumns (h : Abreast t₀ ids c n t t') (h₀ : t₀.Indexed o) (x : SegmentReader)
    (blocks? : Option BlockMap) (f : SegmentFile) (hbatch : batch.columnIds = ids) :
    ∃ t₁ t₁', t₁.SameStreams t₀ ∧ t₁'.SameStreams t₀
      ∧ ((∃ e, ¬c.Settled
          ∧ (x.moved t blocks? c).positionColumns f o t batch = (.error e, x.moved t₁ blocks? c)
          ∧ (x.moved t' blocks? { c with current := n }).positionColumns f o t' batch
            = (.error e, x.moved t₁' blocks? { c with current := n }))
        ∨ t₁.AlikeAt ids t₁'
          ∧ (x.moved t blocks? c).positionColumns f o t batch = (.ok (), x.moved t₁ blocks? c.settle)
          ∧ (x.moved t' blocks? { c with current := n }).positionColumns f o t' batch
            = (.ok (), x.moved t₁' blocks? c.settle)) := by
  by_cases hsettled : c.Settled
  · have hsettled' : ({ c with current := n } : ScanCursor).Settled :=
      ⟨hsettled.1, hsettled.2.trans (h.current hsettled.1).symm⟩
    exact ⟨t, t', h.left, h.right, .inr ⟨h.alike hsettled,
      positionColumns_of_settled hsettled x blocks? f o t batch,
      positionColumns_of_settled hsettled' x blocks? f o t' batch⟩⟩
  have hunsettled' : ¬({ c with current := n } : ScanCursor).Settled := by
    intro hsettled'
    exact hsettled ⟨hsettled'.1, hsettled'.2.trans (h.current hsettled'.1)⟩
  have hnone : t.AlikeAt [] t' := fun a ha => nomatch ha
  have hconverges := seekColumns_converges f c.next ids (h₀.of_same h.left) (h.left.trans h.right.symm) hnone
  have hleft := (seekColumns_same f o c.next ids t).trans h.left
  have hright := (seekColumns_same f o c.next ids t').trans h.right
  rw [positionColumns_of_unsettled hsettled, positionColumns_of_unsettled hunsettled', hbatch]
  rcases hconverges.cases with ⟨e, t₁, t₁', hseek, hseek'⟩ | ⟨a, t₁, t₁', hseek, hseek', halike⟩ <;>
    rw [hseek] at hleft <;> rw [hseek'] at hright <;>
    refine ⟨t₁, t₁', hleft, hright, ?_⟩
  · refine .inl ⟨e, hsettled, ?_, ?_⟩
    · rw [hseek]
    · show (match seekColumns f o c.next ids t' with
        | (.ok (), t') => _
        | (.error e, t') => _) = _
      rw [hseek']
  · refine .inr ⟨fun a ha => halike a (by simpa using ha), ?_, ?_⟩
    · rw [hseek]
    · show (match seekColumns f o c.next ids t' with
        | (.ok (), t') => _
        | (.error e, t') => _) = _
      rw [hseek']
      rfl

/-- The disposition that a block is loaded with. -/
def statusOf (blocks? : Option BlockMap) (block : Nat) : Disposition :=
  match blocks? with
  | some m => m.get block
  | none => .needsRowFilter

theorem loadBlock_moved (x : SegmentReader) (u : ReaderTable) (blocks? : Option BlockMap) (c : ScanCursor)
    (f : SegmentFile) (o : OpenSegment) (t : ReaderTable) (batch : RowBatch) :
    (x.moved u blocks? c).loadBlock f o t batch
      = match readColumns f (rowsToLoad o c.current batch.capacity) batch.columns 0 t batch with
        | (.error e, t', batch') => (.error e, x.moved t' blocks? c, batch')
        | (.ok (), t', batch') =>
          let c' := c.passed o (rowsToLoad o c.current batch.capacity)
          (.ok (rowsToLoad o c.current batch.capacity),
            x.moved t' blocks? ((x.moved u blocks? c').advance (c'.next + 1)).cursor,
            { batch' with
              size := rowsToLoad o c.current batch.capacity
              status := statusOf blocks? c.current }) := rfl

/-- Columns that are alike are loaded alike. -/
theorem loadBlock_twins (hleft : t.SameStreams t₀) (hright : t'.SameStreams t₀) (halike : t.AlikeAt ids t')
    (x : SegmentReader) (u u' : ReaderTable) (blocks? : Option BlockMap) (c : ScanCursor) (f : SegmentFile)
    (o : OpenSegment) (hbatch : batch.columnIds = ids) :
    ∃ result r r' batch', (x.moved u blocks? c).loadBlock f o t batch = (result, r, batch')
      ∧ (x.moved u' blocks? c).loadBlock f o t' batch = (result, r', batch')
      ∧ r.cursor = r'.cursor ∧ Twins x t₀ ids r r' := by
  subst hbatch
  rw [loadBlock_moved, loadBlock_moved]
  generalize rowsToLoad o c.current batch.capacity = rows
  have hkept := (readColumns_same f rows batch.columns 0 t batch).trans hleft
  have hkept' := (readColumns_same f rows batch.columns 0 t' batch).trans hright
  obtain ⟨result, ⟨t₁, batch₁⟩, ⟨t₁', batch₁'⟩, hread, hread', halike₁, hsame⟩ :=
    (readColumns_agrees f rows (List.Subset.refl _) 0 halike batch).exists_eq
  obtain rfl : batch₁ = batch₁' := hsame
  rw [hread] at hkept
  rw [hread'] at hkept'
  rw [hread, hread']
  cases result with
  | error e =>
    exact ⟨_, _, _, _, rfl, rfl, rfl, t₁, t₁', blocks?, c, c.current, rfl, rfl, hkept, hkept', fun _ => rfl,
      fun _ => halike₁⟩
  | ok _ =>
    exact ⟨_, _, _, _, rfl, rfl, rfl, t₁, t₁', blocks?, _, _, rfl, rfl, hkept, hkept', fun _ => rfl,
      fun _ => halike₁⟩

/-- A call for a block returns the same from twins, and leaves twins. -/
theorem getBlock_twins (h : Twins x t₀ ids r r') (ho : x.segment? = some o) (h₀ : t₀.Indexed o)
    (hbatch : batch.columnIds = ids) (g : SegmentGroup) (stats stats' : ScanStatistics) :
    ∃ answer r₁ r₁' batch' s s', r.getBlock batch g stats = (answer, r₁, batch', s)
      ∧ r'.getBlock batch g stats' = (answer, r₁', batch', s') ∧ Twins x t₀ ids r₁ r₁' := by
  obtain ⟨t, t', blocks?, c, n, rfl, rfl, hstep⟩ := h
  let first := x.moved t blocks? c
  let second := x.moved t' blocks? { c with current := n }
  by_cases heof : c.eof = true
  · have hget := getBlock_of_eof (r := first) heof batch g stats
    have hget' := getBlock_of_eof (r := second) heof batch g stats'
    exact ⟨_, _, _, _, _, _, hget, hget', t, t', blocks?, c, n, rfl, rfl, hstep⟩
  rw [Bool.not_eq_true] at heof
  -- both calls position their columns, or neither does, and both fail to or neither does
  obtain ⟨t₁, t₁', hleft, hright, hposition⟩ :=
    hstep.positionColumns h₀ x blocks? (x.fileOf o g) hbatch
  rcases hposition with ⟨e, hunsettled, hfails, hfails'⟩ | ⟨halike, hgoes, hgoes'⟩
  · have hget := getBlock_unpositioned (r := first) heof ho rfl hfails stats
    have hget' := getBlock_unpositioned (r := second) heof ho rfl hfails' stats'
    have hstep' : ∀ eof, Abreast t₀ ids { c with eof } n t₁ t₁' := fun eof =>
      ⟨hleft, hright, hstep.current, fun hsettled => absurd hsettled hunsettled⟩
    by_cases hend : e = .dataEof
    · rw [if_pos hend] at hget hget'
      exact ⟨_, _, _, _, _, _, hget, hget', t₁, t₁', blocks?, { c with eof := true }, n, rfl, rfl,
        hstep' true⟩
    · rw [if_neg hend] at hget hget'
      exact ⟨_, _, _, _, _, _, hget, hget', t₁, t₁', blocks?, c, n, rfl, rfl, hstep' c.eof⟩
  · obtain ⟨result, r₂, r₂', batch', hload, hload', hcursor, htwins⟩ :=
      loadBlock_twins hleft hright halike x t₁ t₁' blocks? c.settle (x.fileOf o g) o hbatch
    have hget := getBlock_eq (r := first) heof ho rfl hgoes hload stats
    have hget' := getBlock_eq (r := second) heof ho rfl hgoes' hload' stats'
    rw [← hcursor] at hget'
    exact ⟨_, _, _, _, _, _, hget, hget', htwins⟩

/-! ### What is returned -/

/-- What a reader returns for batches that it is given one after the other. -/
def answers (g : SegmentGroup) :
    SegmentReader → ScanStatistics → List RowBatch → List (Except StorageError ScanPosition × RowBatch)
  | _, _, [] => []
  | r, stats, batch :: batches =>
    let (answer, r', batch', stats') := r.getBlock batch g stats
    (answer, batch') :: answers g r' stats' batches

/-- What a reader returns for a seek, and for the batches that it is given after it. -/
def replies (r : SegmentReader) (first last : Nat) (unfiltered : Bool) (g : SegmentGroup)
    (stats : ScanStatistics) (batches : List RowBatch) :
    Except StorageError ScanPosition × List (Except StorageError ScanPosition × RowBatch) :=
  let (answer, r', stats') := r.seekToBlock first last unfiltered g stats
  (answer, r'.answers g stats' batches)

theorem replies_fst {first last : Nat} {unfiltered : Bool} {answer : Except StorageError ScanPosition}
    {stats' : ScanStatistics} (h : r.seekToBlock first last unfiltered g stats = (answer, r', stats'))
    (batches : List RowBatch) : (r.replies first last unfiltered g stats batches).1 = answer := by
  rw [replies, h]

/-- Twins return the same for batches of the columns that they are twins for. -/
theorem Twins.answers_eq (h : Twins x t₀ ids r r') (ho : x.segment? = some o) (h₀ : t₀.Indexed o)
    {batches : List RowBatch} (hbatches : ∀ b ∈ batches, b.columnIds = ids) (g : SegmentGroup)
    (stats stats' : ScanStatistics) : r.answers g stats batches = r'.answers g stats' batches := by
  induction batches generalizing r r' stats stats' with
  | nil => rfl
  | cons batch batches ih =>
    obtain ⟨hbatch, hbatches⟩ := List.forall_mem_cons.mp hbatches
    obtain ⟨answer, r₁, r₁', batch', s, s', hget, hget', htwins⟩ :=
      getBlock_twins h ho h₀ hbatch g stats stats'
    rw [answers, answers, hget, hget']
    exact congrArg ((answer, batch') :: ·) (ih htwins hbatches s s')

/-! ### What calls keep -/

/-- The reader that was initialised, or one that has moved the column readers that were made for it. -/
inductive Descends (x : SegmentReader) (made : Except StorageError ReaderTable) : SegmentReader → Prop
  | unmoved : Descends x made x
  | moved {t₀ t : ReaderTable} {blocks? : Option BlockMap} {c : ScanCursor} (hmade : made = .ok t₀)
      (hsame : t.SameStreams t₀) : Descends x made (x.moved t blocks? c)

/-- A call that goes on with an open segment, of a table with the given schema. -/
def Call.Scans (schema : TabletSchema) : Call → Prop
  | .init .. => False
  | .seek _ _ _ g _ => g.schema = schema
  | .get .. => True

/-- Where a seek leads does not depend on where the reader stood. The block at which the columns are positioned is
kept, but they have to be positioned again. -/
theorem seekRange_uniform (x : SegmentReader) (o : OpenSegment) (first last : Nat) (unfiltered : Bool)
    (g : SegmentGroup) :
    ∃ (answer : Except StorageError ScanPosition) (blocks? : Option BlockMap) (c : ScanCursor),
      c.needsSeek = true ∧ ∀ t before? b stats, ∃ stats',
        (x.moved t before? b).seekRange o first last unfiltered g stats
          = (answer, x.moved t blocks? { c with current := b.current }, stats') := by
  by_cases hcount : o.indexes.blockCount = 0
  · refine ⟨.ok ⟨first, true⟩, none, ⟨0, first, 0, true, unfiltered, true⟩, rfl, ?_⟩
    intro t before? b stats
    refine ⟨stats, ?_⟩
    rw [seekRange, if_pos hcount]
    rfl
  let final := min last (o.indexes.blockCount - 1)
  let ranged : ScanCursor := ⟨0, 0, final, false, unfiltered, true⟩
  cases unfiltered with
  | true =>
    let c := ((x.moved [] none ranged).advance first).cursor
    refine ⟨.ok c.position, none, c, rfl, fun t before? b stats => ⟨stats, ?_⟩⟩
    rw [seekRange, if_neg hcount]
    rfl
  | false =>
    cases hprune : (x.pruneRequest o g).prune first final with
    | error e =>
      refine ⟨.error e, none, ranged, rfl, fun t before? b stats => ⟨stats, ?_⟩⟩
      rw [seekRange, if_neg hcount]
      dsimp only
      rw [if_neg Bool.false_ne_true]
      split
      · rename_i h
        obtain rfl := Except.error.inj (hprune.symm.trans h)
        rfl
      · rename_i h
        cases hprune.symm.trans h
    | ok p =>
      let c := ((x.moved [] (some p.blocks) ranged).advance first).cursor
      refine ⟨.ok c.position, some p.blocks, c, rfl, fun t before? b stats =>
        ⟨stats.addFiltered p.deleted p.ruledOut, ?_⟩⟩
      rw [seekRange, if_neg hcount]
      dsimp only
      rw [if_neg Bool.false_ne_true]
      split
      · rename_i h
        cases hprune.symm.trans h
      · rename_i h
        obtain rfl := Except.ok.inj (hprune.symm.trans h)
        rfl

/-- A seek leads all readers that descend from one to the same place, up to their streams. -/
theorem seek_uniform (ho : x.segment? = some o) (hnone : x.readers? = none)
    (hmake : x.makeReaders o g.schema = .ok t₀) (first last : Nat) (unfiltered : Bool) :
    ∃ (answer : Except StorageError ScanPosition) (blocks? : Option BlockMap) (c : ScanCursor),
      c.needsSeek = true ∧ ∀ r stats, Descends x (.ok t₀) r → ∃ t n stats', t.SameStreams t₀
        ∧ r.seekToBlock first last unfiltered g stats
          = (answer, x.moved t blocks? { c with current := n }, stats') := by
  obtain ⟨answer, blocks?, c, hneeds, hseek⟩ := seekRange_uniform x o first last unfiltered g
  refine ⟨answer, blocks?, c, hneeds, fun r stats hr => ?_⟩
  cases hr with
  | unmoved =>
    obtain ⟨stats', hseek⟩ := hseek t₀ x.blocks? x.cursor stats
    refine ⟨t₀, x.cursor.current, stats', .refl t₀, ?_⟩
    rw [seekToBlock, ho, hnone]
    dsimp only
    rw [hmake, ← ho]
    exact hseek
  | @moved t₀' t before? b hmade hsame =>
    obtain rfl : t₀ = t₀' := Except.ok.inj hmade
    obtain ⟨stats', hseek⟩ := hseek t before? b stats
    refine ⟨t, b.current, stats', hsame, ?_⟩
    rw [seekToBlock, moved, ho]
    dsimp only
    rw [← ho]
    exact hseek

/-- Where the readers of the columns cannot be made, seeks fail and change nothing. -/
theorem seekToBlock_of_unmade (ho : x.segment? = some o) (hnone : x.readers? = none) {e : StorageError}
    (hmake : x.makeReaders o g.schema = .error e) (first last : Nat) (unfiltered : Bool)
    (stats : ScanStatistics) : x.seekToBlock first last unfiltered g stats = (.error e, x, stats) := by
  rw [seekToBlock, ho, hnone]
  dsimp only
  rw [hmake]

/-- Where the readers of the columns are not made, calls for blocks change nothing. -/
theorem getBlock_of_unmade (ho : x.segment? = some o) (hnone : x.readers? = none) (batch : RowBatch)
    (g : SegmentGroup) :
    ∃ answer, ∀ stats, x.getBlock batch g stats = (answer, x, batch, stats) := by
  by_cases heof : x.cursor.eof = true
  · exact ⟨_, getBlock_of_eof heof batch g⟩
  · refine ⟨.error (.argument .notSeeked), fun stats => ?_⟩
    rw [getBlock, if_neg heof, ho, hnone]

theorem answers_of_unmade (ho : x.segment? = some o) (hnone : x.readers? = none) (g : SegmentGroup)
    (stats stats' : ScanStatistics) (batches : List RowBatch) :
    x.answers g stats batches = x.answers g stats' batches := by
  induction batches with
  | nil => rfl
  | cons batch batches ih =>
    obtain ⟨answer, hget⟩ := getBlock_of_unmade ho hnone batch g
    rw [answers, answers, hget, hget]
    exact congrArg ((answer, batch) :: ·) ih

/-- A reader that was moved is its own twin. -/
theorem twins_self (hsame : t.SameStreams t₀) (x : SegmentReader) (ids : List ColumnId)
    (blocks? : Option BlockMap) (c : ScanCursor) :
    Twins x t₀ ids (x.moved t blocks? c) (x.moved t blocks? c) :=
  ⟨t, t, blocks?, c, c.current, rfl, rfl, hsame, hsame, fun _ => rfl, fun _ => .refl ids t⟩

/-- A call that goes on with the segment makes the readers of the columns, or moves those that were made. -/
theorem descends_call (ho : x.segment? = some o) (hnone : x.readers? = none)
    (h₀ : ∀ t₀, x.makeReaders o schema = .ok t₀ → t₀.Indexed o) {s : Session}
    (hs : Descends x (x.makeReaders o schema) s.reader) {call : Call} (hcall : call.Scans schema) :
    Descends x (x.makeReaders o schema) (s.call call).reader := by
  cases call with
  | init fillCache g cache stats => exact absurd hcall id
  | seek first last unfiltered g stats =>
    obtain rfl : g.schema = schema := hcall
    show Descends x _ (s.reader.seekToBlock first last unfiltered g stats).2.1
    generalize s.reader = r at hs
    cases hmake : x.makeReaders o g.schema with
    | error e =>
      rw [hmake] at hs
      cases hs with
      | unmoved =>
        rw [seekToBlock_of_unmade ho hnone hmake]
        exact .unmoved
      | moved hmade _ => cases hmade
    | ok t₀ =>
      rw [hmake] at hs
      obtain ⟨answer, blocks?, c, -, hseek⟩ := seek_uniform ho hnone hmake first last unfiltered
      obtain ⟨t, n, stats', hsame, hseek⟩ := hseek r stats hs
      rw [hseek]
      exact .moved rfl hsame
  | get batch g stats =>
    show Descends x _ (s.reader.getBlock batch g stats).2.1
    generalize s.reader = r at hs
    cases hs with
    | unmoved =>
      obtain ⟨answer, hget⟩ := getBlock_of_unmade ho hnone batch g
      rw [hget]
      exact .unmoved
    | @moved t₀ t blocks? c hmade hsame =>
      -- where the readers go is seen from a pair of twins that are one reader
      obtain ⟨answer, r₁, r₁', batch', s', s'', hget, -, htwins⟩ :=
        getBlock_twins (twins_self hsame x batch.columnIds blocks? c) ho (h₀ t₀ hmade) rfl g stats stats
      obtain ⟨t₁, t₁', blocks₁?, c₁, n, rfl, -, hstep⟩ := htwins
      rw [hget]
      exact .moved hmade hstep.left

theorem descends_foldl (ho : x.segment? = some o) (hnone : x.readers? = none)
    (h₀ : ∀ t₀, x.makeReaders o schema = .ok t₀ → t₀.Indexed o) {calls : List Call}
    (hcalls : ∀ c ∈ calls, c.Scans schema) {s : Session}
    (hs : Descends x (x.makeReaders o schema) s.reader) :
    Descends x (x.makeReaders o schema) (calls.foldl Session.call s).reader := by
  induction calls generalizing s with
  | nil => exact hs
  | cons c calls ih =>
    obtain ⟨hcall, hcalls⟩ := List.forall_mem_cons.mp hcalls
    exact ih hcalls (descends_call ho hnone h₀ hs hcall)

/-! ### Forgetting -/

/-- The readers that are made for a segment with zone maps know where the blocks start. -/
theorem indexed_of_init {fillCache : Bool} {cache : IndexCache}
    (hinit : (r.init fillCache g cache stats).result = .ok ())
    (ho : (r.init fillCache g cache stats).reader.segment? = some o) (hindexed : o.RowIndexed r.context.used)
    (hmake : (r.init fillCache g cache stats).reader.makeReaders o g.schema = .ok t₀) : t₀.Indexed o := by
  obtain ⟨o', q, hopened, hreader, -⟩ := init_ok hinit
  have hsegment := ho
  rw [hreader] at hsegment hmake
  obtain rfl : o' = o := Option.some.inj hsegment
  obtain ⟨-, hmade⟩ := made_of_makeReaders hmake
  have hstored := ofStored_make (t := []) (fun _ _ h => nomatch h) (List.Subset.refl _) hmade
  intro cid p hp
  obtain ⟨reader, hlookup, hhome⟩ := Option.map_eq_some_iff.mp hp
  cases reader with
  | constant uid v => cases hhome
  | plain p' =>
    obtain ⟨hcid, column, hcolumn, huid⟩ := hstored cid p' hlookup
    have hid : o'.mapping.uniqueId? cid = some column.uniqueId := by
      rw [ColumnMapping.uniqueId?_of_build hopened.mapped, hcolumn]
      rfl
    have hstoredId : o'.mapping.storedId? cid = some column.uniqueId := by
      rw [ColumnMapping.storedId?, hid, Option.filter_some, if_pos huid]
    obtain ⟨info, hinfo, hkind, hname⟩ := hindexed cid hcid column.uniqueId hstoredId
    rw [hid]
    exact zoneMap?_of_init hinit ho hcid hstoredId hinfo hkind hname

/-- Whatever was done with a reader since it was initialised, a seek and the calls for the same columns after it
return what they return from the reader that was just initialised. -/
theorem seek_forgets {fillCache : Bool} {cache : IndexCache}
    (hinit : (r.init fillCache g cache stats).result = .ok ())
    (ho : (r.init fillCache g cache stats).reader.segment? = some o) (hindexed : o.RowIndexed r.context.used)
    {calls : List Call} (hcalls : ∀ c ∈ calls, c.Scans g.schema) {g' : SegmentGroup}
    (hschema : g'.schema = g.schema) (first last : Nat) (unfiltered : Bool) {batches : List RowBatch}
    (hbatches : ∀ b ∈ batches, b.columnIds = ids) (stats' stats'' : ScanStatistics) :
    (calls.foldl Session.call ⟨(r.init fillCache g cache stats).reader, none⟩).reader.replies first last
        unfiltered g' stats' batches
      = (r.init fillCache g cache stats).reader.replies first last unfiltered g' stats'' batches := by
  have h₀ : ∀ t₀, (r.init fillCache g cache stats).reader.makeReaders o g.schema = .ok t₀ → t₀.Indexed o :=
    fun _ hmake => indexed_of_init hinit ho hindexed hmake
  have hnone : (r.init fillCache g cache stats).reader.readers? = none := by
    obtain ⟨o', q, -, hreader, -⟩ := init_ok hinit
    rw [hreader]
  generalize (r.init fillCache g cache stats).reader = x at ho h₀ hnone ⊢
  have hdescends := descends_foldl ho hnone h₀ hcalls (s := ⟨x, none⟩) .unmoved
  generalize (calls.foldl Session.call ⟨x, none⟩).reader = r₁ at hdescends ⊢
  rw [← hschema] at hdescends h₀
  cases hmake : x.makeReaders o g'.schema with
  | error e =>
    rw [hmake] at hdescends
    -- no seek has succeeded, so the reader is the one that was initialised
    cases hdescends with
    | unmoved =>
      rw [replies, replies, seekToBlock_of_unmade ho hnone hmake, seekToBlock_of_unmade ho hnone hmake]
      dsimp only
      rw [answers_of_unmade ho hnone g' stats' stats'']
    | moved hmade _ => cases hmade
  | ok t₀ =>
    rw [hmake] at hdescends
    obtain ⟨answer, blocks?, c, hneeds, hseek⟩ := seek_uniform ho hnone hmake first last unfiltered
    obtain ⟨t, n, s, hsame, hseek₁⟩ := hseek r₁ stats' hdescends
    obtain ⟨t', n', s', hsame', hseek₂⟩ := hseek x stats'' .unmoved
    rw [replies, replies, hseek₁, hseek₂]
    have htwins : Twins x t₀ ids (x.moved t blocks? { c with current := n })
        (x.moved t' blocks? { c with current := n' }) := by
      have hunsettled : c.needsSeek ≠ false := by
        rw [hneeds]
        decide
      exact ⟨t, t', blocks?, { c with current := n }, n', rfl, rfl, hsame, hsame',
        fun hplaced => absurd hplaced hunsettled, fun hsettled => absurd hsettled.1 hunsettled⟩
    exact congrArg (answer, ·) (htwins.answers_eq ho (h₀ t₀ hmake) hbatches g' s s')

theorem scans_load (hschema : g.schema = schema) (batch : RowBatch) :
    ∀ c ∈ [Call.seek 0 7 false g .zero, .get batch g .zero], c.Scans schema :=
  List.forall_mem_cons.mpr ⟨hschema, List.forall_mem_singleton.mpr trivial⟩

/-- A seek to the blocks of the small segment. -/
theorem sought_sample (stats : ScanStatistics) :
    let opened := (make 0 sampleContext).init true (.single .sample) .empty .zero
    ∃ o r₀ stats₀, opened.reader.segment? = some o ∧ o.Of .sample sampleContext.used
      ∧ opened.reader.seekToBlock 0 7 false opened.group stats = (.ok r₀.cursor.position, r₀, stats₀) := by
  obtain ⟨o, hopened, hcontext⟩ := Session.opened_sample
  obtain ⟨r₀, stats₀, hseek, -⟩ := seekToBlock_all hopened WrittenSegment.fits_sample
    WrittenSegment.lossless_sample (by rw [hcontext]; rfl) (by rw [hcontext]; rfl) 7 (by decide +kernel) false [1, 0]
    stats
  have hwritten := hopened.written
  rw [hcontext] at hwritten
  exact ⟨o, r₀, stats₀, hopened.segment, hwritten, hseek⟩

/-- The first block of the small segment was loaded. A seek goes back to it, and both blocks are loaded as by a
reader that was just initialised. -/
theorem seek_forgets_sample :
    let opened := (make 0 sampleContext).init true (.single .sample) .empty .zero
    let calls : List Call :=
      [.seek 0 7 false opened.group .zero, .get Session.sampleBatch opened.group .zero]
    let batches := [Session.sampleBatch, Session.sampleBatch]
    let used := (calls.foldl Session.call ⟨opened.reader, none⟩).reader
    (∃ p, (opened.reader.replies 0 7 false opened.group .zero batches).1 = .ok p)
      ∧ used.replies 0 7 false opened.group .zero batches
        = opened.reader.replies 0 7 false opened.group .zero batches := by
  obtain ⟨o, r₀, stats₀, hopened, hof, hseek⟩ := sought_sample .zero
  obtain ⟨-, -, -, -, hschema⟩ := init_ok Session.init_sample
  have hbatches : ∀ b ∈ [Session.sampleBatch, Session.sampleBatch], b.columnIds = [1, 0] :=
    List.forall_mem_cons.mpr ⟨rfl, List.forall_mem_singleton.mpr rfl⟩
  exact ⟨⟨_, replies_fst hseek _⟩, seek_forgets Session.init_sample hopened hof.rowIndexed
    (scans_load hschema Session.sampleBatch) hschema 0 7 false hbatches .zero .zero⟩

end SegmentReader

end SegmentStore
