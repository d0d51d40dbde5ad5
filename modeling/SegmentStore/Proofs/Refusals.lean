import SegmentStore.Proofs.Layout

/-!
# Rows that are refused

A row goes to the columns one after the other, so a row that the first column refuses leaves nothing behind,
while one that a later column refuses leaves its values in the columns before.

* `SegmentWriter.taken` are the rows of a run that the writer takes, `SegmentWriter.LeavesTrace` says which
  of the others leave values behind.
* `SegmentWriter.begun` puts aside where a block would start: it is all that a row without trace changes
  (`SegmentWriter.begun_appendRow_of_refused`), and the file does not show it
  (`SegmentWriter.finish_begun`).
* `SegmentWriter.HeadHolds` counts the bytes of the first column, where a trace is seen, and
  `SegmentWriter.headHolds_of_finish_eq` reads them off the finished file.
* `SegmentWriter.finish_appendRows_eq_iff` says that a run gives the file of the rows it takes exactly if no
  row leaves a trace.
-/

namespace SegmentStore

open Decoder StreamWriter

/-! ### What a refusal depends on -/

namespace ColumnWriter

/-- What decides whether a column takes a value. -/
def shape (w : ColumnWriter) : StoredColumn × Bool := (w.column, w.present?.isNone)

@[simp]
theorem shape_startBlock (w : ColumnWriter) : w.startBlock.shape = w.shape := rfl

@[simp]
theorem shape_finishBlock (w : ColumnWriter) : w.finishBlock.shape = w.shape := rfl

@[simp]
theorem shape_add (w : ColumnWriter) (v : Value) : (w.add v).shape = w.shape := by
  obtain ⟨column, present?, data, zoneMap, statistic, positions, bloom?⟩ := w
  cases present? <;> rfl

theorem fault?_congr {w w' : ColumnWriter} (h : w.shape = w'.shape) (v : Value) :
    w.fault? v = w'.fault? v := by
  obtain ⟨hcolumn, hpresent⟩ := Prod.mk.inj h
  rw [fault?, fault?, hcolumn, hpresent]

end ColumnWriter

namespace SegmentWriter

/-- What decides whether the columns take a row. -/
def shape (w : SegmentWriter) : List (StoredColumn × Bool) := w.columns.map ColumnWriter.shape

variable {w w' : SegmentWriter} {row : List Value} {rows : List (List Value)}

theorem map_shape_startBlock (ws : List ColumnWriter) (n : Nat) :
    (startBlock ws n).map ColumnWriter.shape = ws.map ColumnWriter.shape := by
  rw [startBlock]
  split
  · rw [List.map_map]
    exact List.map_congr_left fun w _ => ColumnWriter.shape_startBlock w
  · rfl

theorem map_shape_appendValues (ws : List ColumnWriter) (vs : List Value) :
    (appendValues ws vs).2.map ColumnWriter.shape = ws.map ColumnWriter.shape := by
  induction ws generalizing vs with
  | nil => cases vs <;> rfl
  | cons w ws ih =>
    cases vs with
    | nil => rfl
    | cons v vs =>
      rw [appendValues]
      cases w.fault? v with
      | some fault => rfl
      | none => simp only [List.map_cons, ColumnWriter.shape_add, ih]

theorem appendValues_congr {ws ws' : List ColumnWriter}
    (h : ws.map ColumnWriter.shape = ws'.map ColumnWriter.shape) (vs : List Value) :
    (appendValues ws vs).1 = (appendValues ws' vs).1 := by
  induction ws generalizing ws' vs with
  | nil =>
    obtain rfl : ws' = [] := by simpa [eq_comm] using h
    rfl
  | cons w ws ih =>
    cases ws' with
    | nil => simp at h
    | cons w' ws' =>
      obtain ⟨hhead, htail⟩ := List.cons.inj h
      cases vs with
      | nil => rfl
      | cons v vs =>
        rw [appendValues, appendValues, ColumnWriter.fault?_congr hhead v]
        cases w'.fault? v with
        | some fault => rfl
        | none => exact ih htail vs

/-- A row of the right length goes through the columns, and a block that is full is put away. -/
theorem appendRow_eq (hlength : row.length = w.columns.length) :
    w.appendRow row =
      match appendValues (startBlock w.columns w.rowsInBlock) row with
      | (.error e, ws) => (.error e, { w with columns := ws })
      | (.ok (), ws) =>
        (.ok (), if w.rowsInBlock + 1 = w.options.rowsPerBlock.toNat then
            finishBlock ⟨w.options, ws, w.rowCount + 1, w.rowsInBlock + 1⟩
          else ⟨w.options, ws, w.rowCount + 1, w.rowsInBlock + 1⟩) := by
  obtain ⟨options, columns, rowCount, rowsInBlock⟩ := w
  rewrite [appendRow, if_neg (not_not.mpr hlength)]
  rcases appendValues (startBlock columns rowsInBlock) row with ⟨_ | _, ws⟩ <;> rfl

theorem appendRow_of_length_ne (hlength : row.length ≠ w.columns.length) :
    w.appendRow row = (.error (.argument (.rowLength row.length w.columns.length)), w) := by
  obtain ⟨options, columns, rowCount, rowsInBlock⟩ := w
  simp only [appendRow, hlength, ne_eq, not_false_eq_true, if_true]

/-- No row changes what decides about the next. -/
@[simp]
theorem shape_appendRow (w : SegmentWriter) (row : List Value) :
    (w.appendRow row).2.shape = w.shape := by
  by_cases hlength : row.length = w.columns.length
  · have hvalues := map_shape_appendValues (startBlock w.columns w.rowsInBlock) row
    rw [map_shape_startBlock] at hvalues
    rw [appendRow_eq hlength]
    rcases happend : appendValues (startBlock w.columns w.rowsInBlock) row with ⟨_ | _, ws⟩
    · rw [happend] at hvalues
      exact hvalues
    · rw [happend] at hvalues
      simp only
      split
      · rw [shape, shape, ← hvalues, finishBlock, List.map_map]
        exact List.map_congr_left fun w _ => ColumnWriter.shape_finishBlock w
      · exact hvalues
  · rw [appendRow_of_length_ne hlength]

theorem length_of_shape (h : w.shape = w'.shape) : w.columns.length = w'.columns.length := by
  simpa [shape] using congrArg List.length h

/-- Writers whose columns have the same shapes take the same rows. -/
theorem appendRow_fst_congr (h : w.shape = w'.shape) (row : List Value) :
    (w.appendRow row).1 = (w'.appendRow row).1 := by
  have hcolumns := length_of_shape h
  by_cases hlength : row.length = w.columns.length
  · have hshape : (startBlock w.columns w.rowsInBlock).map ColumnWriter.shape
        = (startBlock w'.columns w'.rowsInBlock).map ColumnWriter.shape := by
      rw [map_shape_startBlock, map_shape_startBlock]
      exact h
    have hvalues := appendValues_congr hshape row
    rw [appendRow_eq hlength, appendRow_eq (hlength.trans hcolumns)]
    rcases happend : appendValues (startBlock w.columns w.rowsInBlock) row with ⟨_ | _, ws⟩ <;>
      rcases happend' : appendValues (startBlock w'.columns w'.rowsInBlock) row with ⟨_ | _, ws'⟩ <;>
      simp [happend, happend'] at hvalues ⊢
    exact hvalues
  · rw [appendRow_of_length_ne hlength, appendRow_of_length_ne (by rwa [← hcolumns]), hcolumns]

/-! ### The rows that are taken -/

/-- The rows of a run that the writer takes. -/
def taken (w : SegmentWriter) : List (List Value) → List (List Value)
  | [] => []
  | row :: rows =>
    match w.appendRow row with
    | (.ok (), w) => row :: taken w rows
    | (.error _, w) => taken w rows

/-- The row is refused, but not by the first column: the columns before the one that refuses it have taken
their values. -/
def LeavesTrace (w : SegmentWriter) (row : List Value) : Prop :=
  row.length = w.columns.length ∧ (w.appendRow row).1 ≠ .ok ()
    ∧ ∃ c v, w.columns.head? = some c ∧ row.head? = some v ∧ c.fault? v = none

theorem LeavesTrace.congr (h : w.shape = w'.shape) (htrace : w.LeavesTrace row) :
    w'.LeavesTrace row := by
  obtain ⟨hlength, hrefused, c, v, hc, hv, hfault⟩ := htrace
  refine ⟨hlength.trans (length_of_shape h), appendRow_fst_congr h row ▸ hrefused, ?_⟩
  have hhead := congrArg List.head? h
  rw [shape, shape, List.head?_map, List.head?_map, hc, Option.map_some, eq_comm,
    Option.map_eq_some_iff] at hhead
  obtain ⟨c', hc', hshape⟩ := hhead
  exact ⟨c', v, hc', hv, ColumnWriter.fault?_congr hshape v ▸ hfault⟩

/-- The rows that were taken are all taken again, by themselves. -/
theorem appendAll_taken (h : w'.shape = w.shape) (rows : List (List Value)) :
    w'.appendAll (w.taken rows) = .ok (w'.appendRows (w.taken rows)) := by
  refine appendAll_eq ?_
  induction rows generalizing w w' with
  | nil => rfl
  | cons row rows ih =>
    have hfst := appendRow_fst_congr h row
    have hshape := shape_appendRow w row
    rw [taken]
    rcases hrow : w.appendRow row with ⟨_ | _, next⟩
    · rw [hrow] at hshape
      exact ih (h.trans hshape.symm)
    · rw [hrow] at hfst hshape
      have hshape' := shape_appendRow w' row
      simp only [appendAll]
      rcases hrow' : w'.appendRow row with ⟨_ | _, next'⟩
      · rw [hrow'] at hfst
        cases hfst
      · rw [hrow'] at hshape'
        exact ih (hshape'.trans (h.trans hshape.symm))

/-! ### Where a block would start -/

/-- The writer with the start of the next block noted, should the next row begin one. -/
def begun (w : SegmentWriter) : SegmentWriter :=
  { w with columns := startBlock w.columns w.rowsInBlock }

theorem startBlock_startBlock (ws : List ColumnWriter) (n : Nat) :
    startBlock (startBlock ws n) n = startBlock ws n := by
  by_cases hn : n = 0
  · simp only [startBlock, hn, if_true, List.map_map]
    rfl
  · simp only [startBlock, hn, if_false]

@[simp]
theorem begun_begun (w : SegmentWriter) : w.begun.begun = w.begun := by
  simp only [begun, startBlock_startBlock]

@[simp]
theorem shape_begun (w : SegmentWriter) : w.begun.shape = w.shape :=
  map_shape_startBlock w.columns w.rowsInBlock

/-- A row notes the start of its block anew. -/
theorem begun_appendRow (w : SegmentWriter) (row : List Value) :
    (w.begun.appendRow row).2.begun = (w.appendRow row).2.begun := by
  have hcolumns : w.begun.columns.length = w.columns.length := length_of_shape (shape_begun w)
  by_cases hlength : row.length = w.columns.length
  · have hsame : w.begun.appendRow row = w.appendRow row := by
      rw [appendRow_eq hlength, appendRow_eq (hlength.trans hcolumns.symm)]
      simp only [begun, startBlock_startBlock]
      rfl
    rw [hsame]
  · rw [appendRow_of_length_ne hlength, appendRow_of_length_ne (by rwa [hcolumns]), begun_begun]

/-- A row that is refused without a trace changes at most where a block would start. -/
theorem begun_appendRow_of_refused (hrefused : (w.appendRow row).1 ≠ .ok ())
    (htrace : ¬w.LeavesTrace row) : (w.appendRow row).2.begun = w.begun := by
  by_cases hlength : row.length = w.columns.length
  · have hhead : ∀ c v, w.columns.head? = some c → row.head? = some v → c.fault? v ≠ none :=
      fun c v hc hv hfault => htrace ⟨hlength, hrefused, c, v, hc, hv, hfault⟩
    rw [appendRow_eq hlength] at hrefused ⊢
    rcases hcolumns : w.columns with _ | ⟨c, cs⟩
    · rw [hcolumns] at hrefused
      simp [startBlock, appendValues] at hrefused
    · obtain ⟨v, vs, rfl⟩ : ∃ v vs, row = v :: vs := by
        cases row with
        | nil => simp [hcolumns] at hlength
        | cons v vs => exact ⟨v, vs, rfl⟩
      obtain ⟨c', cs', hstart, hshape⟩ : ∃ c' cs', startBlock (c :: cs) w.rowsInBlock = c' :: cs'
          ∧ c'.shape = c.shape := by
        rw [startBlock]
        split
        · exact ⟨_, _, rfl, ColumnWriter.shape_startBlock c⟩
        · exact ⟨_, _, rfl, rfl⟩
      obtain ⟨fault, hfault⟩ := Option.ne_none_iff_exists'.mp
        (ColumnWriter.fault?_congr hshape v ▸ hhead c v (by rw [hcolumns]; rfl) rfl)
      simp only [hstart, appendValues, hfault]
      rw [← hstart, ← hcolumns]
      exact begun_begun w
  · rw [appendRow_of_length_ne hlength]

/-- The finished file does not show where a block would start. -/
theorem finish_begun (w : SegmentWriter) : w.begun.finish = w.finish := by
  obtain ⟨options, columns, rowCount, rowsInBlock⟩ := w
  by_cases hzero : rowsInBlock = 0
  · subst hzero
    simp only [finish, begun, startBlock, if_true, Nat.lt_irrefl, if_false, List.flatMap_map,
      List.map_map]
    rfl
  · simp only [begun, startBlock, hzero, if_false]

/-- Without traces a run gives the file of the rows that it takes. -/
theorem begun_appendRows (h : w.begun = w'.begun) (htrace : ∀ row ∈ rows, ¬w.LeavesTrace row) :
    (w.appendRows rows).begun = (w'.appendRows (w.taken rows)).begun := by
  induction rows generalizing w w' with
  | nil => exact h
  | cons row rows ih =>
    have hrest : ∀ x ∈ rows, ¬(w.appendRow row).2.LeavesTrace x := fun x hx htraced =>
      htrace x (List.mem_cons_of_mem row hx) (htraced.congr (shape_appendRow w row))
    have hnext : (w.appendRow row).2.begun = (w'.appendRow row).2.begun := by
      rw [← begun_appendRow w, ← begun_appendRow w', h]
    rw [taken, appendRows, List.foldl_cons]
    rcases hrow : w.appendRow row with ⟨e | _, next⟩
    · have hrefused : (w.appendRow row).1 ≠ .ok () := by
        rw [hrow]
        intro h
        cases h
      have hsame := begun_appendRow_of_refused hrefused (htrace row List.mem_cons_self)
      rw [hrow] at hrest hsame
      exact ih (hsame.trans h) hrest
    · rw [hrow] at hrest hnext
      rw [appendRows, List.foldl_cons]
      exact ih hnext hrest

/-! ### The bytes of the first column -/

@[simp]
theorem options_appendRow (w : SegmentWriter) (row : List Value) :
    (w.appendRow row).2.options = w.options := by
  by_cases hlength : row.length = w.columns.length
  · rw [appendRow_eq hlength]
    rcases appendValues (startBlock w.columns w.rowsInBlock) row with ⟨_ | _, ws⟩
    · rfl
    · simp only
      split <;> rfl
  · rw [appendRow_of_length_ne hlength]

/-- The data of the first column are the bytes `bs`. -/
def HeadHolds (w : SegmentWriter) (bs : Bytes) : Prop :=
  ∃ c cs, w.columns = c :: cs
    ∧ c.data = (empty w.options.compressor? w.options.bufferSize.toNat).write bs

/-- The bytes that a row leaves in the first column, whether it is taken or not. -/
def headBytes (w : SegmentWriter) (row : List Value) : Bytes :=
  if row.length = w.columns.length then
    match w.columns.head?, row.head? with
    | some c, some v => if (c.fault? v).isNone then v.stored c.column.type else []
    | _, _ => []
  else []

theorem headBytes_congr (h : w.shape = w'.shape) (row : List Value) :
    w.headBytes row = w'.headBytes row := by
  have hhead := congrArg List.head? h
  rw [shape, shape, List.head?_map, List.head?_map] at hhead
  rw [headBytes, headBytes, length_of_shape h]
  cases hc : w.columns.head? with
  | none =>
    rw [hc, Option.map_none, eq_comm, Option.map_eq_none_iff] at hhead
    rw [hhead]
  | some c =>
    rw [hc, Option.map_some, eq_comm, Option.map_eq_some_iff] at hhead
    obtain ⟨c', hc', hshape⟩ := hhead
    have hcolumn : c'.column = c.column := (Prod.mk.inj hshape).1
    rw [hc']
    cases row.head? with
    | none => rfl
    | some v => simp only [hcolumn, ColumnWriter.fault?_congr hshape]

theorem LeavesTrace.headBytes_ne_nil (htrace : w.LeavesTrace row) : w.headBytes row ≠ [] := by
  obtain ⟨hlength, -, c, v, hc, hv, hfault⟩ := htrace
  rw [headBytes, if_pos hlength, hc, hv]
  simp only [hfault, Option.isNone_none, if_true]
  exact Value.stored_ne_nil

/-- The first column takes its value, or refuses it. -/
theorem headHolds_appendRow {bs : Bytes} (h : w.HeadHolds bs) (row : List Value) :
    (w.appendRow row).2.HeadHolds (bs ++ w.headBytes row) := by
  obtain ⟨c, cs, hcolumns, hdata⟩ := h
  by_cases hlength : row.length = w.columns.length
  · obtain ⟨v, vs, rfl⟩ : ∃ v vs, row = v :: vs := by
      cases row with
      | nil => simp [hcolumns] at hlength
      | cons v vs => exact ⟨v, vs, rfl⟩
    obtain ⟨c', cs', hstart, hshape, hdata'⟩ : ∃ c' cs', startBlock w.columns w.rowsInBlock = c' :: cs'
        ∧ c'.shape = c.shape ∧ c'.data = c.data := by
      rw [startBlock, hcolumns]
      split
      · exact ⟨_, _, rfl, rfl, rfl⟩
      · exact ⟨_, _, rfl, rfl, rfl⟩
    have hbytes : w.headBytes (v :: vs)
        = if (c'.fault? v).isNone then v.stored c'.column.type else [] := by
      have hcolumn : c'.column = c.column := (Prod.mk.inj hshape).1
      rw [headBytes, if_pos hlength, hcolumns, hcolumn, ColumnWriter.fault?_congr hshape]
      rfl
    rw [appendRow_eq hlength, hbytes, hstart, appendValues]
    cases hfault : c'.fault? v with
    | some fault => exact ⟨c', cs', rfl, by simp [hdata', hdata]⟩
    | none =>
      have hadd : (c'.add v).data = (empty w.options.compressor?
          w.options.bufferSize.toNat).write (bs ++ v.stored c'.column.type) := by
        rw [write_append, ← hdata, ← hdata']
        rfl
      simp only [Option.isNone_none, if_true]
      rcases appendValues cs' vs with ⟨_ | _, ws⟩
      · exact ⟨_, ws, rfl, hadd⟩
      · simp only
        split
        · exact ⟨_, _, rfl, hadd⟩
        · exact ⟨_, ws, rfl, hadd⟩
  · rw [appendRow_of_length_ne hlength, headBytes, if_neg hlength, List.append_nil]
    exact ⟨c, cs, hcolumns, hdata⟩

theorem headHolds_appendRows {bs : Bytes} (h : w.HeadHolds bs) (hshape : w.shape = w'.shape)
    (rows : List (List Value)) :
    (w.appendRows rows).HeadHolds (bs ++ rows.flatMap w'.headBytes) := by
  induction rows generalizing w bs with
  | nil => rwa [List.flatMap_nil, List.append_nil]
  | cons row rows ih =>
    have hnext := ih (headHolds_appendRow h row) ((shape_appendRow w row).trans hshape)
    rwa [headBytes_congr hshape, List.append_assoc] at hnext

/-- The rows that are taken leave fewer bytes in the first column than all rows, if one of the others
leaves a trace. -/
theorem length_headBytes_taken (h : w.shape = w'.shape) (rows : List (List Value)) :
    ((w.taken rows).flatMap w'.headBytes).length ≤ (rows.flatMap w'.headBytes).length
      ∧ ((∃ row ∈ rows, w'.LeavesTrace row) →
          ((w.taken rows).flatMap w'.headBytes).length < (rows.flatMap w'.headBytes).length) := by
  induction rows generalizing w with
  | nil =>
    refine ⟨Nat.le_refl _, ?_⟩
    rintro ⟨row, hrow, -⟩
    exact absurd hrow List.not_mem_nil
  | cons row rows ih =>
    have hshape := (shape_appendRow w row).trans h
    have hfst := appendRow_fst_congr h row
    rw [taken, List.flatMap_cons, List.length_append]
    rcases hrow : w.appendRow row with ⟨e | _, next⟩
    · rw [hrow] at hshape
      obtain ⟨hle, hlt⟩ := ih (w := next) hshape
      refine ⟨Nat.le_add_left_of_le hle, ?_⟩
      rintro ⟨x, hx, htrace⟩
      rcases List.mem_cons.mp hx with rfl | hx
      · have hpos := List.length_pos_iff.mpr htrace.headBytes_ne_nil
        simp only
        omega
      · exact Nat.lt_add_left _ (hlt ⟨x, hx, htrace⟩)
    · rw [hrow] at hshape hfst
      obtain ⟨hle, hlt⟩ := ih (w := next) hshape
      simp only [List.flatMap_cons, List.length_append]
      refine ⟨Nat.add_le_add_left hle _, ?_⟩
      rintro ⟨x, hx, htrace⟩
      rcases List.mem_cons.mp hx with rfl | hx
      · exact absurd hfst.symm htrace.2.1
      · exact Nat.add_lt_add_left (hlt ⟨x, hx, htrace⟩) _

end SegmentWriter

/-! ### The finished file -/

/-- Streams that the header describes in the same way are the same, if their bytes are. -/
theorem NamedStream.eq_of_info {ss ts : List NamedStream}
    (hinfo : ss.map NamedStream.info = ts.map NamedStream.info)
    (hbytes : ss.flatMap (fun s => s.2.2) = ts.flatMap fun s => s.2.2)
    (hsize : (ss.flatMap fun s => s.2.2).length < 2 ^ 64) : ss = ts := by
  induction ss generalizing ts with
  | nil => simpa [eq_comm] using hinfo
  | cons s ss ih =>
    cases ts with
    | nil => simp at hinfo
    | cons t ts =>
      obtain ⟨hhead, htail⟩ := List.cons.inj hinfo
      obtain ⟨uid, kind, bs⟩ := s
      obtain ⟨uid', kind', bs'⟩ := t
      obtain ⟨rfl, rfl, hlength⟩ := StreamInfo.mk.inj hhead
      have hsize' := hsize
      rw [hbytes] at hsize'
      simp only [List.flatMap_cons, List.length_append] at hbytes hsize hsize'
      have hnat : (UInt64.ofNat bs.length).toNat = (UInt64.ofNat bs'.length).toNat :=
        congrArg UInt64.toNat hlength
      rw [toNat_ofNat_u64 (by omega), toNat_ofNat_u64 (by omega)] at hnat
      obtain ⟨rfl, hrest⟩ := List.append_inj hbytes hnat
      rw [ih htail hrest (by omega)]

/-- Where compression loses nothing, a stream has one content. -/
theorem WriterOptions.stream_inj {o : WriterOptions} {a b : Bytes}
    (hlossless : Undoes o.compressor? o.decompressor? o.bufferSize.toNat)
    (hsize : (o.stream a).length < 2 ^ 63) (h : o.stream a = o.stream b) : a = b := by
  have hread : ∀ content, o.stream content = o.stream a →
      ((StreamReader.make 0 (UInt64.ofNat (o.stream a).length) o.decompressor?
        o.bufferSize.toNat).readAll ⟨.memory, ⟨(o.stream a).toArray⟩⟩).1 = .ok content := by
    intro content hcontent
    have hnarrow := o.bufferSize.toNat_lt
    have hlength : (UInt64.ofNat (o.stream a).length).toNat = (o.stream a).length :=
      toNat_ofNat_u64 (by omega)
    have hstores : (StreamReader.make 0 (UInt64.ofNat (o.stream a).length) o.decompressor?
        o.bufferSize.toNat).Stores ⟨.memory, ⟨(o.stream a).toArray⟩⟩ o.compressor?
          (pieces (max o.bufferSize.toNat 1) content) := by
      refine ⟨⟨[], [], ?_, rfl⟩, ?_, ?_, ?_, ?_, hlossless⟩
      · rw [List.nil_append, List.append_nil, ← hcontent]
        rfl
      · rw [← hcontent] at hlength ⊢
        exact hlength
      · show 0 + (UInt64.ofNat (o.stream a).length).toNat < 2 ^ 63
        omega
      · exact fun c hc => (length_of_mem_pieces (by omega) hc).2
      · show max o.bufferSize.toNat 1 < 2 ^ 32
        omega
    rw [StreamReader.readAll_stores hstores, pieces_flatten]
  exact Except.ok.inj ((hread a rfl).symm.trans (hread b h.symm))

namespace SegmentWriter

variable {w w' : SegmentWriter}

/-- The first data stream of the file is that of the first column. -/
theorem find?_namedStreams {bs : Bytes} (h : w.HeadHolds bs) :
    (w.namedStreams.find? fun s => decide (s.2.1 = .data)).map (fun s => s.2.2)
      = some (w.options.stream bs) := by
  obtain ⟨c, cs, hcolumns, hdata⟩ := h
  obtain ⟨c', cs', hclosed, hdata'⟩ : ∃ c' cs', w.closed.columns = c' :: cs' ∧ c'.data = c.data := by
    rw [closed]
    split
    · exact ⟨c.finishBlock, cs.map ColumnWriter.finishBlock, by rw [finishBlock, hcolumns]; rfl, rfl⟩
    · exact ⟨c, cs, hcolumns, rfl⟩
  have hfinish : c'.data.finish = w.options.stream bs := by
    rw [hdata', hdata, finish_write, WriterOptions.stream]
  rw [namedStreams, hclosed, List.flatMap_cons, columnStreams, hfinish]
  cases c'.bloom? <;> cases c'.present? <;> rfl

/-- Equal files have first columns of equal bytes. -/
theorem headHolds_of_finish_eq {bs cs : Bytes} (h : w.HeadHolds bs) (h' : w'.HeadHolds cs)
    (hoptions : w'.options = w.options)
    (hlossless : Undoes w.options.compressor? w.options.decompressor?
      w.options.bufferSize.toNat)
    (hsize : w.finish.2.length < 2 ^ 63) (hfinish : w.finish = w'.finish) : bs = cs := by
  have hbytes := congrArg Prod.snd hfinish
  rw [finish_bytes, finish_bytes, hfinish, List.append_cancel_left_eq] at hbytes
  have hinfo : w.namedStreams.map NamedStream.info = w'.namedStreams.map NamedStream.info := by
    rw [← finish_streams, ← finish_streams, hfinish]
  rw [finish_bytes, List.length_append] at hsize
  have hstreams := NamedStream.eq_of_info hinfo hbytes (by omega)
  have hfound := find?_namedStreams h
  rw [hstreams, find?_namedStreams h', hoptions] at hfound
  have hsame := Option.some.inj hfound
  refine (WriterOptions.stream_inj hlossless ?_ hsame.symm)
  -- the stream is part of the file
  have hmem := find?_namedStreams h
  rw [Option.map_eq_some_iff] at hmem
  obtain ⟨s, hs, hstream⟩ := hmem
  have hsub := List.sublist_flatten_of_mem (List.mem_map_of_mem (f := fun s : NamedStream => s.2.2)
    (List.mem_of_find?_eq_some hs))
  rw [hstream, ← List.flatMap_def] at hsub
  have := hsub.length_le
  omega

/-- The first column of a new writer holds nothing. -/
theorem headHolds_make {schema : TabletSchema} {cids : List ColumnId} {options : WriterOptions}
    {start : SegmentWriter} (hmake : make schema cids options = .ok start)
    (hcolumns : start.columns ≠ []) : start.options = options ∧ start.HeadHolds [] := by
  obtain ⟨cols, -, hstart, -, -⟩ := holds_make hmake
  obtain ⟨c, cs, hcs⟩ := List.exists_cons_of_ne_nil hcolumns
  obtain ⟨col, rest, rfl⟩ : ∃ col rest, cols = col :: rest := by
    refine List.exists_cons_of_ne_nil fun h => ?_
    have hlength := hstart.length
    rw [h, hcs] at hlength
    cases hlength
  have hholds := hstart.columns 0 col c rfl (by rw [hcs]; rfl)
  exact ⟨hstart.options, c, cs, hcs, hstart.options ▸ hholds.data⟩

theorem options_appendRows (w : SegmentWriter) (rows : List (List Value)) :
    (w.appendRows rows).options = w.options := by
  induction rows generalizing w with
  | nil => rfl
  | cons row rows ih => exact (ih _).trans (options_appendRow w row)

/-- The rows that a run takes make a segment by themselves. The run gives the file of that segment if each
row that it refuses is refused by its length or by the first column, and only then: a row that a later column
refuses leaves its values in the columns before. -/
theorem finish_appendRows_eq_iff {schema : TabletSchema} {cids : List ColumnId}
    {options : WriterOptions} {start : SegmentWriter} (hmake : make schema cids options = .ok start)
    (rows : List (List Value)) :
    start.appendAll (start.taken rows) = .ok (start.appendRows (start.taken rows))
      ∧ ((∀ row ∈ rows, ¬start.LeavesTrace row) →
          (start.appendRows rows).finish = (start.appendRows (start.taken rows)).finish)
      ∧ (Undoes options.compressor? options.decompressor?
            options.bufferSize.toNat →
          (start.appendRows rows).finish.2.length < 2 ^ 63 →
          (start.appendRows rows).finish = (start.appendRows (start.taken rows)).finish →
          ∀ row ∈ rows, ¬start.LeavesTrace row) := by
  refine ⟨appendAll_taken rfl rows, fun htrace => ?_, fun hlossless hsize hfinish row hrow htrace => ?_⟩
  · rw [← finish_begun, begun_appendRows rfl htrace, finish_begun]
  · have hcolumns : start.columns ≠ [] := by
      obtain ⟨-, -, c, v, hc, -⟩ := htrace
      exact List.ne_nil_of_mem (List.mem_of_head? hc)
    obtain ⟨rfl, hstart⟩ := headHolds_make hmake hcolumns
    -- the first column of the whole run is longer
    have hbytes := headHolds_of_finish_eq (headHolds_appendRows hstart rfl rows)
      (headHolds_appendRows hstart rfl (start.taken rows))
      (by rw [options_appendRows, options_appendRows]) (by rwa [options_appendRows]) hsize hfinish
    have hlength := (length_headBytes_taken (w := start) rfl rows).2 ⟨row, hrow, htrace⟩
    rw [List.append_cancel_left hbytes] at hlength
    exact Nat.lt_irrefl _ hlength

/-- The rows of the small segment between a row that is too short and one whose value is no number. -/
def strayRows : List (List Value) :=
  [.float64 .zero] :: WrittenSegment.sampleRows ++ [[.string "three", .int32 3]]

theorem finish_appendRows_eq_iff_sample :
    (∀ row ∈ strayRows, ¬WrittenSegment.sampleWriter.LeavesTrace row)
      ∧ (WrittenSegment.sampleWriter.appendRows strayRows).finish
          = (WrittenSegment.sampleWriter.appendRows WrittenSegment.sampleRows).finish := by
  have htaken : WrittenSegment.sampleWriter.taken strayRows = WrittenSegment.sampleRows := by
    decide +kernel
  have htrace : ∀ row ∈ strayRows, ¬WrittenSegment.sampleWriter.LeavesTrace row := by
    rintro row hrow ⟨hlength, hrefused, c, v, hc, hv, hfault⟩
    rcases List.mem_append.mp hrow with hrow | hrow
    · rcases List.mem_cons.mp hrow with rfl | hrow
      · cases hlength
      · simp only [WrittenSegment.sampleRows, List.mem_cons, List.not_mem_nil, or_false] at hrow
        obtain rfl | rfl | rfl := hrow <;> exact hrefused rfl
    · obtain rfl := List.mem_singleton.mp hrow
      obtain rfl := Option.some.inj hc
      obtain rfl := Option.some.inj hv
      cases hfault
  obtain ⟨-, hsame, honly⟩ := finish_appendRows_eq_iff WrittenSegment.sample.made strayRows
  have hfinish : (WrittenSegment.sampleWriter.appendRows strayRows).finish
      = (WrittenSegment.sampleWriter.appendRows WrittenSegment.sampleRows).finish := by
    rw [← htaken]
    exact hsame htrace
  have hsize : (WrittenSegment.sampleWriter.appendRows strayRows).finish.2.length < 2 ^ 63 := by
    rw [hfinish]
    exact WrittenSegment.fits_sample.bytes
  exact ⟨honly WrittenSegment.lossless_sample hsize (hsame htrace), hfinish⟩

/-- A row whose second value is no key, and one that is taken. -/
def halfTakenRows : List (List Value) :=
  [[.float64 .zero, .string "seven"], [.float64 ⟨0x3FF0000000000000⟩, .int32 1]]

/-- The value before the one that is refused stays in its column, and the next row is no longer aligned. -/
theorem finish_appendRows_keeps_refused :
    WrittenSegment.sampleWriter.taken halfTakenRows = [[.float64 ⟨0x3FF0000000000000⟩, .int32 1]]
      ∧ (WrittenSegment.sampleWriter.appendRows halfTakenRows).finish
          ≠ (WrittenSegment.sampleWriter.appendRows
              [[.float64 ⟨0x3FF0000000000000⟩, .int32 1]]).finish := by
  refine ⟨by decide +kernel, fun h => ?_⟩
  have hlengths := congrArg (fun file => file.1.streams.map (·.length)) h
  revert hlengths
  decide +kernel

end SegmentWriter

end SegmentStore
