import SegmentStore.Proofs.Readers

/-!
# Loading the blocks of a written segment

* `SegmentReader.seekColumns_of` leads the readers of some columns to a block, wherever they are.
* `SegmentReader.readColumns_of` fills a batch with the next rows, and leaves the readers behind them.
-/

namespace SegmentStore

/-! ### Readers in a table -/

namespace ReaderTable

theorem lookup_set (t : ReaderTable) (cid a : ColumnId) (r : ColumnReader) :
    (t.set cid r).lookup a = if a = cid then (t.lookup cid).map fun _ => r else t.lookup a := by
  induction t with
  | nil => simp [set]
  | cons e t ih =>
    obtain ⟨b, x⟩ := e
    rw [set, List.map_cons]
    change List.lookup a ((if b = cid then (cid, r) else (b, x)) :: set t cid r) = _
    by_cases hb : b = cid
    · subst hb
      rw [if_pos rfl, List.lookup_cons, List.lookup_cons_self, ih, List.lookup_cons]
      by_cases ha : a = b
      · rw [if_pos ha, if_pos ha, beq_iff_eq.mpr ha]
        rfl
      · rw [if_neg ha, if_neg ha, beq_eq_false_iff_ne.mpr ha]
    · rw [if_neg hb, List.lookup_cons, ih, List.lookup_cons, List.lookup_cons]
      have hcid : (cid == b) = false := beq_eq_false_iff_ne.mpr fun h => hb h.symm
      rw [hcid]
      by_cases ha : a = cid
      · have hab : (a == b) = false := beq_eq_false_iff_ne.mpr fun h => hb (h.symm.trans ha)
        rw [if_pos ha, if_pos ha, hab]
      · rw [if_neg ha, if_neg ha]

/-- The readers of some columns have certain rows ahead. -/
def At (t : ReaderTable) (s : WrittenSegment) (f : SegmentFile) (cids : List ColumnId)
    (rows : List (List Value)) : Prop :=
  ∀ cid ∈ cids, ∃ r, t.lookup cid = some r ∧ ColumnReader.At s f cid rows r

variable {t : ReaderTable} {s : WrittenSegment} {f : SegmentFile} {cids ids : List ColumnId}
variable {cid : ColumnId} {r r' : ColumnReader} {rows : List (List Value)}

theorem Of.set (h : t.Of s f cids) (hr : ColumnReader.Of s f cid r) : (t.set cid r).Of s f cids := by
  intro a ha
  obtain ⟨x, hx, hof⟩ := h a ha
  rw [lookup_set]
  by_cases hsame : a = cid
  · subst hsame
    rw [if_pos rfl, hx]
    exact ⟨r, rfl, hr⟩
  · rw [if_neg hsame]
    exact ⟨x, hx, hof⟩

/-- Readers of other columns stay where they are. -/
theorem At.set (h : t.At s f cids rows) (hcid : cid ∉ cids) : (t.set cid r).At s f cids rows := by
  intro a ha
  obtain ⟨x, hx, hat⟩ := h a ha
  have hne : a ≠ cid := fun hsame => hcid (hsame ▸ ha)
  exact ⟨x, by rw [lookup_set, if_neg hne, hx], hat⟩

theorem At.set_self (h : t.At s f cids rows) (hr : ColumnReader.At s f cid rows r) :
    (t.set cid r).At s f cids rows := by
  intro a ha
  obtain ⟨x, hx, hat⟩ := h a ha
  rw [lookup_set]
  by_cases hsame : a = cid
  · subst hsame
    rw [if_pos rfl, hx]
    exact ⟨r, rfl, hr⟩
  · rw [if_neg hsame]
    exact ⟨x, hx, hat⟩

end ReaderTable

/-! ### Going to a block -/

namespace WrittenSegment

variable {s : WrittenSegment}

/-- The rows from a block on. -/
def rowsFrom (s : WrittenSegment) (block : Nat) : List (List Value) := (s.blocks.drop block).flatten

/-- The rows from a block on are those of the block and those from the next block on. -/
theorem rowsFrom_eq {block : Nat} (h : block < s.blocks.length) :
    s.rowsFrom block = s.blocks[block] ++ s.rowsFrom (block + 1) := by
  rw [rowsFrom, List.drop_eq_getElem_cons h, List.flatten_cons]
  rfl

theorem block_ne_nil {b : List (List Value)} (hb : b ∈ s.blocks) : b ≠ [] :=
  List.length_pos_iff.mp (length_of_mem_pieces s.rowsPerBlock_pos hb).1

end WrittenSegment

namespace SegmentReader

variable {s : WrittenSegment} {f : SegmentFile} {o : OpenSegment} {used : List ColumnId}

/-- The reader of a stored column goes to a block by the position in the zone map. -/
theorem seek_of {cid : ColumnId} {r : ColumnReader} {block : Nat} {z : Loaded ZoneMapEntry}
    (hr : ColumnReader.Of s f cid r) (hset : o.indexes.Of s) {c : Column} {j : Nat}
    (hcid : s.cids[j]? = some cid) (hc : s.cols[j]? = some c)
    (hz : o.indexes.zoneMap? c.uniqueId = some z) (hblock : block < s.blocks.length) :
    ∃ r', r.seek f (z.entries[block]?.getD default).positions = (.ok (), r')
      ∧ ColumnReader.At s f cid (s.rowsFrom block) r' := by
  cases hr with
  | absent hnot _ => exact absurd (List.mem_of_getElem? hcid) hnot
  | @stored i d p hi hd htype hpresent hstores =>
    have hij : i = j := by
      obtain ⟨hlt, _⟩ := List.getElem?_eq_some_iff.mp hi
      exact (List.getElem?_inj hlt s.distinctColumns).mp (hi.trans hcid.symm)
    subst hij
    obtain rfl : d = c := Option.some.inj (hd.symm.trans hc)
    obtain ⟨i', d', hi', huid, hentries⟩ := hset.zoneMaps _ z hz
    obtain rfl := WrittenSegment.eq_of_uniqueId hi' hc huid
    obtain rfl : d' = d := Option.some.inj (hi'.symm.trans hc)
    have hlength : block < (s.columnBlocks i').length := by
      rwa [WrittenSegment.length_columnBlocks]
    have hpositions : (z.entries[block]?.getD default).positions
        = d'.blockStart s.options ((s.columnBlocks i').take block).flatten := by
      rw [← Array.getElem?_toList, hentries, Column.getElem_zoneEntries _ hlength]
      rfl
    have hsplit : s.rows.map (rowCell i')
        = ((s.columnBlocks i').take block).flatten ++ (s.rowsFrom block).map (rowCell i') := by
      rw [← WrittenSegment.flatten_columnBlocks, WrittenSegment.rowsFrom, List.map_flatten,
        WrittenSegment.columnBlocks, columnBlocks, List.map_drop, ← List.flatten_append,
        List.take_append_drop]
    have hahead : (s.rowsFrom block).map (rowCell i') ≠ [] := by
      rw [WrittenSegment.rowsFrom_eq hblock]
      simp [WrittenSegment.block_ne_nil (List.getElem_mem hblock)]
    rw [hsplit] at hstores
    obtain ⟨p', hseek, hp', -, htype', hpresent'⟩ := PlainReader.seek_ahead hstores hahead
    rw [← hsplit] at hp'
    refine ⟨.plain p', ?_, .stored hi hd (htype'.trans htype) (hpresent'.trans hpresent) hp'⟩
    rw [hpositions, Column.blockStart, ← hpresent, ← htype, ColumnReader.seek, hseek]

/-- All wanted columns go to a block, wherever they are. -/
theorem seekColumns_of (ho : o.Of s used) {block : Nat} (hblock : block < s.blocks.length)
    {ids : List ColumnId} (hids : ids ⊆ used) {t : ReaderTable} (ht : t.Of s f used)
    {done : List ColumnId} (hdone : t.At s f done (s.rowsFrom block)) :
    ∃ t', seekColumns f o block ids t = (.ok (), t') ∧ t'.Of s f used
      ∧ t'.At s f (done ++ ids) (s.rowsFrom block) := by
  induction ids generalizing t done with
  | nil => exact ⟨t, rfl, ht, by rwa [List.append_nil]⟩
  | cons cid ids ih =>
    obtain ⟨hcid, hrest⟩ := List.cons_subset.mp hids
    obtain ⟨r, hlookup, hr⟩ := ht cid hcid
    have hassoc : ∀ t' : ReaderTable, t'.At s f (done ++ [cid]) (s.rowsFrom block) →
        t'.Of s f used →
        ∃ t'', seekColumns f o block ids t' = (.ok (), t'') ∧ t''.Of s f used
          ∧ t''.At s f (done ++ cid :: ids) (s.rowsFrom block) := by
      intro t' hat hof
      obtain ⟨t'', hseek, hof', hat'⟩ := ih hrest hof hat
      refine ⟨t'', hseek, hof', ?_⟩
      rwa [List.append_assoc, List.singleton_append] at hat'
    rw [seekColumns]
    by_cases hstored : cid ∈ s.cids
    · obtain ⟨j, c, hj, hc⟩ := WrittenSegment.exists_column hstored
      obtain ⟨z, hz⟩ := Option.isSome_iff_exists.mp (ho.zoneMaps cid hcid j _ hj hc)
      obtain ⟨a, ha, hcolumn⟩ := WrittenSegment.getElem?_cols.mp hc
      obtain rfl : cid = a := Option.some.inj (hj.symm.trans ha)
      have hzone : (o.mapping.uniqueId? cid).bind o.indexes.zoneMap? = some z := by
        rw [ho.mapping.uniqueId?_eq, hcolumn]
        exact hz
      obtain ⟨r', hseek, hr'⟩ := seek_of hr ho.indexes hj hc hz hblock
      simp only [hzone, hlookup, hseek]
      refine hassoc (t.set cid r') (fun a ha => ?_) (ht.set hr'.of)
      rcases List.mem_append.mp ha with ha | ha
      · exact hdone.set_self hr' a ha
      · obtain rfl := List.mem_singleton.mp ha
        exact ⟨r', by rw [ReaderTable.lookup_set, if_pos rfl, hlookup]; rfl, hr'⟩
    · cases hr with
      | stored hi _ _ _ _ => exact absurd (List.mem_of_getElem? hi) hstored
      | @absent c hnot hc =>
        have hzone : (o.mapping.uniqueId? cid).bind o.indexes.zoneMap? = none := by
          rw [ho.mapping.uniqueId?_eq, hc, Option.map_some, Option.bind_some]
          cases hz : o.indexes.zoneMap? c.uniqueId with
          | none => rfl
          | some z =>
            obtain ⟨i, d, hi, huid, -⟩ := ho.indexes.zoneMaps _ z hz
            obtain ⟨a, ha, hacol⟩ := WrittenSegment.getElem?_cols.mp hi
            obtain rfl := TabletSchema.column?_inj s.distinctIds hacol hc huid
            exact absurd (List.mem_of_getElem? ha) hstored
        simp only [hzone]
        refine hassoc t (fun a ha => ?_) ht
        rcases List.mem_append.mp ha with ha | ha
        · exact hdone a ha
        · obtain rfl := List.mem_singleton.mp ha
          exact ⟨_, hlookup, .absent hnot hc⟩

/-! ### Reading a block -/

/-- A value that the type accepts is added any number of times. -/
theorem pushTimes_holds {x : Value} {items : List Value} {v : ColumnVector} (hv : v.Holds items)
    (hx : v.type.accepts x = true) (n : Nat) :
    ∃ w, ColumnReader.pushTimes x n v = .ok w ∧ w.Holds (items ++ List.replicate n x)
      ∧ w.type = v.type := by
  induction n generalizing v items with
  | zero => exact ⟨v, rfl, by simpa using hv, rfl⟩
  | succ n ih =>
    obtain ⟨w, hpush, hw, htype⟩ := ColumnVector.push_holds hv hx
    obtain ⟨w', hrest, hw', htype'⟩ := ih hw (by rwa [htype])
    refine ⟨w', ?_, ?_, htype'.trans htype⟩
    · simp only [ColumnReader.pushTimes, hpush, hrest]
    · rwa [List.append_assoc, List.singleton_append, ← List.replicate_succ] at hw'

/-- The default of each column that is not stored is a value of the column. -/
def AcceptsDefaults (s : WrittenSegment) (ids : List ColumnId) : Prop :=
  ∀ cid ∈ ids, cid ∉ s.cids → ∀ c, s.schema.column? cid = some c → c.type.accepts c.default = true

/-- The next rows of a column fill a vector. -/
theorem nextVector_of {cid : ColumnId} {r : ColumnReader} {xs rest : List (List Value)} {c : Column}
    (hr : ColumnReader.At s f cid (xs ++ rest) r) (hc : s.schema.column? cid = some c)
    (hxs : ∀ row ∈ xs, row ∈ s.rows) (hdefaults : AcceptsDefaults s [cid]) :
    ∃ v r', r.nextVector f c.type xs.length = (.ok v, r') ∧ v.Holds (xs.map fun row => s.cell row cid)
      ∧ ColumnReader.At s f cid rest r' := by
  cases hr with
  | @stored j d p hcid hd htype hpresent hahead =>
    obtain ⟨a, ha, hacol⟩ := WrittenSegment.getElem?_cols.mp hd
    obtain rfl : cid = a := Option.some.inj (hcid.symm.trans ha)
    obtain rfl : d = c := Option.some.inj (hacol.symm.trans hc)
    have hcells : (xs.map fun row => s.cell row cid) = xs.map (rowCell j) :=
      List.map_congr_left fun row hrow => WrittenSegment.cell_stored (hxs row hrow) hcid
    rw [List.map_append] at hahead
    obtain ⟨v, p', hread, hv, -, hp', -, htype', hpresent'⟩ :=
      PlainReader.readCells_ahead hahead (ColumnVector.holds_empty d.type)
        ((ColumnVector.type_empty d.type).trans htype.symm)
    rw [List.length_map] at hread
    refine ⟨v, .plain p', ?_, by rwa [hcells], .stored hcid hd (htype'.trans htype)
      (hpresent'.trans hpresent) hp'⟩
    simp only [ColumnReader.nextVector, htype, ne_eq, not_true_eq_false, if_false, hread]
  | @absent d hcid hd =>
    obtain rfl : d = c := Option.some.inj (hd.symm.trans hc)
    have haccepts := hdefaults cid List.mem_cons_self hcid d hd
    obtain ⟨v, hpush, hv, -⟩ := pushTimes_holds (ColumnVector.holds_empty d.type)
      (by rwa [ColumnVector.type_empty]) xs.length
    have hcell : ∀ row ∈ xs, s.cell row cid = d.default := fun row _ =>
      WrittenSegment.cell_absent hcid hd
    have hcells : (xs.map fun row => s.cell row cid) = List.replicate xs.length d.default := by
      rw [List.map_congr_left hcell, List.map_const']
    refine ⟨v, _, ?_, ?_, .absent hcid hd⟩
    · simp only [ColumnReader.nextVector, hpush]
    · rw [hcells]
      simpa using hv

/-- The columns of a batch name columns of the table, with their types. -/
def Typed (s : WrittenSegment) (cs : List BatchColumn) : Prop :=
  ∀ c ∈ cs, ∃ d, s.schema.column? c.id = some d ∧ d.type = c.type

/-- The vectors of some columns hold the cells of some rows. -/
def Filled (s : WrittenSegment) (rows : List (List Value)) (cs : List BatchColumn) : Prop :=
  ∀ c ∈ cs, c.vector.Holds (rows.map fun row => s.cell row c.id)

theorem modify_append {α : Type} (xs ys : List α) (y : α) (g : α → α) :
    (xs ++ y :: ys).modify xs.length g = xs ++ g y :: ys := by
  induction xs with
  | nil => rfl
  | cons x xs ih => rw [List.length_cons, List.cons_append, List.modify_succ_cons, ih, List.cons_append]

/-- The next rows fill the columns of a batch one after the other, and are then behind the readers. -/
theorem readColumns_of {xs rest : List (List Value)} (hxs : ∀ row ∈ xs, row ∈ s.rows)
    (front : List BatchColumn) {cs : List BatchColumn} {t : ReaderTable} {batch : RowBatch}
    (hbatch : batch.columns = front ++ cs) (htyped : Typed s cs)
    (hnodup : ((front ++ cs).map (·.id)).Nodup) (hdefaults : AcceptsDefaults s (cs.map (·.id)))
    (ht : t.Of s f used) (hfront : t.At s f (front.map (·.id)) rest)
    (hcs : t.At s f (cs.map (·.id)) (xs ++ rest)) :
    ∃ t' cs', readColumns f xs.length cs front.length t batch
        = (.ok (), t', { batch with columns := front ++ cs' })
      ∧ t'.Of s f used ∧ t'.At s f ((front ++ cs).map (·.id)) rest
      ∧ Filled s xs cs' ∧ cs'.map (·.id) = cs.map (·.id) ∧ Typed s cs' := by
  induction cs generalizing front t batch with
  | nil =>
    refine ⟨t, [], ?_, ht, ?_, by simp [Filled], rfl, by simp [Typed]⟩
    · rw [readColumns, ← hbatch]
    · rwa [List.append_nil]
  | cons c cs ih =>
    obtain ⟨d, hd, hdtype⟩ := htyped c List.mem_cons_self
    obtain ⟨r, hlookup, hr⟩ := hcs c.id List.mem_cons_self
    obtain ⟨v, r', hnext, hv, hr'⟩ := nextVector_of hr hd hxs
      (fun a ha => hdefaults a (List.mem_singleton.mp ha ▸ List.mem_cons_self))
    rw [hdtype] at hnext
    let c' : BatchColumn := { c with vector := v }
    have hids : ((front ++ [c']) ++ cs).map (·.id) = (front ++ c :: cs).map (·.id) := by simp [c']
    have hne : c.id ∉ cs.map (·.id) := by
      rw [List.map_append, List.nodup_append] at hnodup
      exact (List.nodup_cons.mp hnodup.2.1).1
    have hbatch' : (batch.setVector front.length v).columns = (front ++ [c']) ++ cs := by
      rw [RowBatch.setVector, hbatch, modify_append, List.append_assoc]
      rfl
    have hfront' : ReaderTable.At (t.set c.id r') s f ((front ++ [c']).map (·.id)) rest := by
      rw [List.map_append]
      intro a ha
      rcases List.mem_append.mp ha with ha | ha
      · have hother : a ≠ c.id := by
          rw [List.map_append, List.nodup_append] at hnodup
          exact hnodup.2.2 a ha c.id List.mem_cons_self
        obtain ⟨x, hx, hat⟩ := hfront a ha
        exact ⟨x, by rw [ReaderTable.lookup_set, if_neg hother, hx], hat⟩
      · have hself : a = c.id := List.mem_singleton.mp ha
        subst hself
        exact ⟨r', by rw [ReaderTable.lookup_set, if_pos rfl, hlookup]; rfl, hr'⟩
    have hcs' : t.At s f (cs.map (·.id)) (xs ++ rest) := fun a ha =>
      hcs a (List.mem_cons_of_mem c.id ha)
    obtain ⟨t', cs', hread, hof, hat, hfilled, hcids, htyped'⟩ := ih (front ++ [c']) hbatch'
      (fun e he => htyped e (List.mem_cons_of_mem c he)) (by rwa [hids])
      (fun a ha => hdefaults a (List.mem_cons_of_mem c.id ha)) (ht.set hr'.of) hfront' (hcs'.set hne)
    rw [List.length_append, List.length_singleton] at hread
    refine ⟨t', c' :: cs', ?_, hof, by rwa [hids] at hat, ?_, ?_, ?_⟩
    · rw [readColumns]
      simp only [hlookup, hnext, hread]
      simp [RowBatch.setVector]
    · exact List.forall_mem_cons.mpr ⟨hv, hfilled⟩
    · rw [List.map_cons, List.map_cons, hcids]
    · exact List.forall_mem_cons.mpr ⟨⟨d, hd, hdtype⟩, htyped'⟩

end SegmentReader

end SegmentStore
