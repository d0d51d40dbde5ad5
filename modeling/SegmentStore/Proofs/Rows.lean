import SegmentStore.Proofs.Columns

/-!
# What the writer of a segment holds

* `SegmentWriter.appendAll` adds rows that must all be taken.
* `SegmentWriter.Holds` describes a writer by the rows of its finished blocks and of the block begun, column
  by column.
* `SegmentWriter.holds_make` starts it, `SegmentWriter.holds_appendRow` is the step and
  `SegmentWriter.holds_appendAll` the run.
* `SegmentWriter.finish_eq` is the header and the file of the finished segment.
-/

namespace SegmentStore

/-- Steps that must all succeed give the list of their results. -/
theorem mapM_eq_ok {ε α β : Type} {f : α → Except ε β} {xs : List α} {ys : List β} :
    xs.mapM f = .ok ys ↔ xs.map f = ys.map .ok := by
  induction xs generalizing ys with
  | nil => cases ys <;> simp [pure, Except.pure]
  | cons x xs ih =>
    rw [List.mapM_cons, List.map_cons]
    cases hx : f x with
    | error e => cases ys <;> simp [bind, Except.bind]
    | ok y =>
      cases hxs : xs.mapM f with
      | error e =>
        have hne : ∀ zs, xs.map f ≠ List.map Except.ok zs := fun zs h => by
          simp [ih.mpr h] at hxs
        cases ys <;> simp [bind, Except.bind, hne]
      | ok zs =>
        have hzs := ih.mp hxs
        cases ys with
        | nil => simp [bind, Except.bind, pure, Except.pure]
        | cons y' ys =>
          rw [List.map_cons, List.cons.injEq, hzs]
          have hinj : List.map (Except.ok (ε := ε)) zs = List.map Except.ok ys ↔ zs = ys :=
            List.map_inj_right fun a b h => Except.ok.inj h
          simp [bind, Except.bind, pure, Except.pure, hinj]

theorem exists_of_mapM {ε α β : Type} {f : α → Except ε β} {xs : List α} {ys : List β}
    (h : xs.mapM f = .ok ys) : ∀ x ∈ xs, ∃ y ∈ ys, f x = .ok y := by
  rw [mapM_eq_ok] at h
  intro x hx
  have hmem := List.mem_map_of_mem (f := f) hx
  rw [h] at hmem
  obtain ⟨y, hy, heq⟩ := List.mem_map.mp hmem
  exact ⟨y, hy, heq.symm⟩

theorem exists_mapM {ε α β : Type} {f : α → Except ε β} {xs : List α}
    (h : ∀ x ∈ xs, ∃ y, f x = .ok y) : ∃ ys, xs.mapM f = .ok ys := by
  induction xs with
  | nil => exact ⟨[], rfl⟩
  | cons x xs ih =>
    obtain ⟨y, hy⟩ := h x List.mem_cons_self
    obtain ⟨ys, hys⟩ := ih fun z hz => h z (List.mem_cons_of_mem x hz)
    refine ⟨y :: ys, ?_⟩
    rw [mapM_eq_ok] at hys ⊢
    rw [List.map_cons, List.map_cons, hy, hys]

/-- The value of a row in a column. -/
def rowCell (j : Nat) (row : List Value) : Value := row[j]?.getD .null

namespace SegmentWriter

/-- Adds rows, all of which must be taken. -/
def appendAll (w : SegmentWriter) : List (List Value) → Except StorageError SegmentWriter
  | [] => .ok w
  | row :: rows =>
    match w.appendRow row with
    | (.error e, _) => .error e
    | (.ok (), w) => appendAll w rows

/-- Where no row is refused, all rows are added. -/
theorem appendAll_eq {w : SegmentWriter} {rows : List (List Value)}
    (h : (w.appendAll rows).isOk = true) : w.appendAll rows = .ok (w.appendRows rows) := by
  induction rows generalizing w with
  | nil => rfl
  | cons row rows ih =>
    rw [appendAll] at h ⊢
    rw [appendRows, List.foldl_cons]
    rcases hrow : w.appendRow row with ⟨_ | _, w'⟩
    · rw [hrow] at h
      cases h
    · rw [hrow] at h
      exact ih h

/-- A writer of the columns `cols` that has finished the blocks `done` and begun a block with
`current`. -/
structure Holds (w : SegmentWriter) (o : WriterOptions) (cols : List Column)
    (done : List (List (List Value))) (current : List (List Value)) : Prop where
  options : w.options = o
  rowCount : w.rowCount = (done.flatten ++ current).length
  rowsInBlock : w.rowsInBlock = current.length
  length : w.columns.length = cols.length
  columns : ∀ (j : Nat) (c : Column) (cw : ColumnWriter), cols[j]? = some c → w.columns[j]? = some cw →
    cw.Holds o c (done.map (List.map (rowCell j))) (current.map (rowCell j))
  widths : ∀ row ∈ done.flatten ++ current, row.length = cols.length

variable {w w' : SegmentWriter} {o : WriterOptions} {cols : List Column}
variable {done : List (List (List Value))} {current : List (List Value)} {row : List Value}

/-! ### The start -/

/-- The wanted columns are those of the table, in the wanted order. -/
theorem exists_columns {schema : TabletSchema} {cids : List ColumnId} {ws : List ColumnWriter}
    {f : ColumnId → Except StorageError ColumnWriter}
    (hf : ∀ cid, f cid
      = (schema.column? cid).elim (.error (.invalidColumn cid)) fun c => .ok (columnWriter o c))
    (h : cids.mapM f = .ok ws) :
    ∃ cols : List Column, cids.map schema.column? = cols.map some
      ∧ ws = cols.map (columnWriter o) := by
  rw [mapM_eq_ok] at h
  induction cids generalizing ws with
  | nil =>
    obtain rfl : ws = [] := by simpa [eq_comm] using h
    exact ⟨[], rfl, rfl⟩
  | cons cid cids ih =>
    cases ws with
    | nil => simp at h
    | cons w ws =>
      rw [List.map_cons, List.map_cons, List.cons.injEq, hf] at h
      obtain ⟨hhead, htail⟩ := h
      obtain ⟨cols, hcols, hwriters⟩ := ih htail
      rcases hcid : schema.column? cid with _ | c
      · simp [hcid] at hhead
      · have hw : columnWriter o c = w := by simpa [hcid] using hhead
        exact ⟨c :: cols, by rw [List.map_cons, List.map_cons, hcols, hcid],
          by rw [List.map_cons, hwriters, hw]⟩

/-- A writer is made only of columns that the table has, with parameters that its filters can use. -/
theorem holds_make {schema : TabletSchema} {cids : List ColumnId}
    (h : make schema cids o = .ok w) :
    ∃ cols, cids.map schema.column? = cols.map some ∧ w.Holds o cols [] []
      ∧ 0 < o.rowsPerBlock.toNat
      ∧ (o.bloomColumns ≠ [] →
          BloomFilter.validParameters o.bloomBits.toNat o.bloomHashes.toNat = true) := by
  unfold make at h
  by_cases hrows : o.rowsPerBlock = 0
  · simp [hrows, bind, Except.bind, throw, throwThe, MonadExceptOf.throw] at h
  by_cases hbloom : !o.bloomColumns.isEmpty
      && !BloomFilter.validParameters o.bloomBits.toNat o.bloomHashes.toNat
  · simp [hrows, hbloom, bind, Except.bind, throw, throwThe, MonadExceptOf.throw] at h
  simp only [hrows, hbloom, if_false, Bool.false_eq_true, bind, Except.bind, pure, Except.pure] at h
  split at h
  · cases h
  · rename_i ws hmap
    obtain ⟨cols, hcols, hwriters⟩ :=
      exists_columns (fun cid => by cases schema.column? cid <;> rfl) hmap
    obtain rfl : (⟨o, ws, 0, 0⟩ : SegmentWriter) = w := by simpa using h
    refine ⟨cols, hcols, ⟨rfl, rfl, rfl, by simp [hwriters], ?_, by simp⟩, ?_, ?_⟩
    · intro j c cw hc hcw
      have hw : columnWriter o c = cw := by simpa [hwriters, hc] using hcw
      exact hw ▸ ColumnWriter.holds_columnWriter o c
    · have hne : o.rowsPerBlock.toNat ≠ 0 := fun hz => hrows (UInt32.toNat_inj.mp hz)
      omega
    · intro hne
      simpa [hne] using hbloom

/-! ### One row -/

/-- A row that is taken adds its values to the columns, none of which refuses. -/
theorem appendValues_ok {ws ws' : List ColumnWriter} {vs : List Value}
    (hlength : vs.length = ws.length) (h : appendValues ws vs = (.ok (), ws')) :
    ws'.length = ws.length
      ∧ ∀ (j : Nat) (w : ColumnWriter) (v : Value), ws[j]? = some w → vs[j]? = some v →
          w.fault? v = none ∧ ws'[j]? = some (w.add v) := by
  induction ws generalizing vs ws' with
  | nil =>
    obtain rfl : ws' = [] := by cases vs <;> simpa [appendValues, eq_comm] using h
    simp
  | cons w ws ih =>
    cases vs with
    | nil => simp at hlength
    | cons v vs =>
      rw [appendValues] at h
      cases hfault : w.fault? v with
      | some fault => simp [hfault] at h
      | none =>
        simp only [hfault, Prod.mk.injEq] at h
        obtain ⟨hresult, rfl⟩ := h
        have hlength' : vs.length = ws.length := by simpa using hlength
        obtain ⟨hlen, hrest⟩ := ih hlength' (Prod.ext hresult rfl)
        refine ⟨by simp [hlen], fun j x y hx hy => ?_⟩
        cases j with
        | zero =>
          obtain rfl : w = x := by simpa using hx
          obtain rfl : v = y := by simpa using hy
          exact ⟨hfault, rfl⟩
        | succ j => exact hrest j x y (by simpa using hx) (by simpa using hy)

/-- A row that is taken does the same to each column. -/
theorem appendRow_ok (h : w.appendRow row = (.ok (), w')) :
    row.length = w.columns.length ∧ w'.options = w.options ∧ w'.rowCount = w.rowCount + 1
      ∧ w'.rowsInBlock
          = (if w.rowsInBlock + 1 = w.options.rowsPerBlock.toNat then 0 else w.rowsInBlock + 1)
      ∧ w'.columns.length = w.columns.length
      ∧ ∀ (j : Nat) (c : ColumnWriter) (v : Value), w.columns[j]? = some c → row[j]? = some v →
          c.fault? v = none
          ∧ w'.columns[j]? = some (c.step w.options.rowsPerBlock.toNat w.rowsInBlock v) := by
  obtain ⟨options, columns, rowCount, rowsInBlock⟩ := w
  rw [appendRow] at h
  by_cases hlength : row.length = columns.length
  · simp only [hlength, ne_eq, not_true_eq_false, if_false] at h
    have hstart : (startBlock columns rowsInBlock).length = columns.length := by
      rw [startBlock]
      split <;> simp
    rcases happend : appendValues (startBlock columns rowsInBlock) row with ⟨result, ws⟩
    cases result with
    | error e => simp [happend] at h
    | ok u =>
      obtain ⟨hws, hstep⟩ := appendValues_ok (hlength.trans hstart.symm) happend
      rw [happend] at h
      simp only [Prod.mk.injEq, true_and] at h
      have hadded : ∀ (j : Nat) (c : ColumnWriter) (v : Value), columns[j]? = some c →
          row[j]? = some v → c.fault? v = none
          ∧ ws[j]? = some ((if rowsInBlock = 0 then c.startBlock else c).add v) := by
        intro j c v hc hv
        by_cases hzero : rowsInBlock = 0
        · have hc' : (startBlock columns rowsInBlock)[j]? = some c.startBlock := by
            rw [startBlock, if_pos hzero, List.getElem?_map, hc, Option.map_some]
          rw [if_pos hzero]
          exact hstep j _ v hc' hv
        · have hc' : (startBlock columns rowsInBlock)[j]? = some c := by
            rw [startBlock, if_neg hzero, hc]
          rw [if_neg hzero]
          exact hstep j _ v hc' hv
      by_cases hfull : rowsInBlock + 1 = options.rowsPerBlock.toNat
      · rw [if_pos hfull] at h
        subst h
        refine ⟨hlength, rfl, rfl, by rw [if_pos hfull]; rfl, ?_, fun j c v hc hv => ?_⟩
        · simp [finishBlock, hws, hstart]
        · obtain ⟨hfault, hget⟩ := hadded j c v hc hv
          refine ⟨hfault, ?_⟩
          rw [ColumnWriter.step, if_pos hfull, finishBlock, List.getElem?_map, hget, Option.map_some]
      · rw [if_neg hfull] at h
        subst h
        refine ⟨hlength, rfl, rfl, by rw [if_neg hfull], by simp [hws, hstart], fun j c v hc hv => ?_⟩
        obtain ⟨hfault, hget⟩ := hadded j c v hc hv
        exact ⟨hfault, by rw [ColumnWriter.step, if_neg hfull, hget]⟩
  · simp [hlength] at h

/-- A row goes to the block that has begun, which is put away once it is full. -/
theorem holds_appendRow (hw : w.Holds o cols done current) (h : w.appendRow row = (.ok (), w')) :
    w'.Holds o cols (cutStep o.rowsPerBlock.toNat (done, current) row).1
      (cutStep o.rowsPerBlock.toNat (done, current) row).2 := by
  obtain ⟨hlength, hoptions, hcount, hin, hcolumns, hstep⟩ := appendRow_ok h
  have hflat := cutStep_flatten o.rowsPerBlock.toNat (done, current) row
  rw [hw.options, hw.rowsInBlock] at hstep hin
  refine ⟨hoptions.trans hw.options, ?_, ?_, hcolumns.trans hw.length, ?_, ?_⟩
  · rw [hflat, hcount, hw.rowCount]
    simp [Nat.add_assoc]
  · rw [hin, cutStep]
    simp only [List.length_append, List.length_singleton]
    split <;> simp
  · intro j c cw hc hcw
    have hj : j < w.columns.length := by
      rw [hw.length]
      exact (List.getElem?_eq_some_iff.mp hc).1
    have hrow : row[j]? = some row[j] := List.getElem?_eq_getElem (hlength ▸ hj)
    obtain ⟨hfault, hget⟩ := hstep j w.columns[j] row[j] (List.getElem?_eq_getElem hj) hrow
    have hcolumn := hw.columns j c w.columns[j] hc (List.getElem?_eq_getElem hj)
    have hnext := ColumnWriter.holds_step o.rowsPerBlock.toNat hcolumn hfault
    have hcell : rowCell j row = row[j] := by rw [rowCell, hrow, Option.getD_some]
    rw [List.length_map] at hnext
    rw [hget, Option.some.injEq] at hcw
    rw [← hcw]
    have hcut : ∀ s : List (List (List Value)) × List (List Value),
        cutStep o.rowsPerBlock.toNat (s.1.map (List.map (rowCell j)), s.2.map (rowCell j)) row[j]
          = ((cutStep o.rowsPerBlock.toNat s row).1.map (List.map (rowCell j)),
              (cutStep o.rowsPerBlock.toNat s row).2.map (rowCell j)) := by
      intro s
      simp only [cutStep, List.length_append, List.length_map, List.length_singleton]
      split <;> simp [hcell]
    rwa [hcut (done, current)] at hnext
  · intro x hx
    rw [hflat] at hx
    rcases List.mem_append.mp hx with hx | hx
    · exact hw.widths x hx
    · rw [List.mem_singleton.mp hx, hlength, hw.length]

/-! ### All rows -/

/-- The blocks are the pieces into which the rows are cut. -/
theorem holds_appendAll (before : List (List Value)) {rows : List (List Value)}
    (hw : w.Holds o cols (cut o.rowsPerBlock.toNat before).1 (cut o.rowsPerBlock.toNat before).2)
    (h : w.appendAll rows = .ok w') :
    w'.Holds o cols (cut o.rowsPerBlock.toNat (before ++ rows)).1
      (cut o.rowsPerBlock.toNat (before ++ rows)).2 := by
  induction rows generalizing w before with
  | nil =>
    obtain rfl : w = w' := by simpa [appendAll] using h
    rwa [List.append_nil]
  | cons row rows ih =>
    rw [appendAll] at h
    rcases happend : w.appendRow row with ⟨result, next⟩
    cases result with
    | error e => simp [happend] at h
    | ok u =>
      rw [happend] at h
      have hnext := holds_appendRow hw happend
      rw [← cut_concat] at hnext
      have hrest := ih (before ++ [row]) hnext h
      rwa [List.append_assoc, List.singleton_append] at hrest

/-- The writer with the last block put away. -/
def closed (w : SegmentWriter) : SegmentWriter := if 0 < w.rowsInBlock then w.finishBlock else w

theorem holds_closed (hw : w.Holds o cols done current) :
    w.closed.Holds o cols (done ++ if current = [] then [] else [current]) [] := by
  rw [closed, hw.rowsInBlock]
  by_cases hempty : current = []
  · subst hempty
    rw [List.length_nil, if_neg (Nat.lt_irrefl 0), if_pos rfl, List.append_nil]
    exact hw
  · have hflat : (done ++ [current]).flatten ++ [] = done.flatten ++ current := by simp
    rw [if_pos (List.length_pos_iff.mpr hempty), if_neg hempty]
    refine ⟨hw.options, ?_, rfl, by simp [finishBlock, hw.length], ?_, ?_⟩
    · rw [hflat]
      exact hw.rowCount
    · intro j c cw hc hcw
      rw [finishBlock, List.getElem?_map, Option.map_eq_some_iff] at hcw
      obtain ⟨open', hopen, rfl⟩ := hcw
      have hfinished := ColumnWriter.holds_finishBlock (hw.columns j c open' hc hopen)
        (by simpa using hempty)
      simpa using hfinished
    · rw [hflat]
      exact hw.widths

end SegmentWriter

end SegmentStore
