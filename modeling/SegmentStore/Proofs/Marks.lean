import Mathlib.Logic.Function.Basic
import SegmentStore.Proofs.Scanning

/-!
# Where the readers of a scan stand

The reader of a column stands behind some number of its rows, its mark. Each reader has its own mark: it
moves when a batch leads the column to a block, and when a batch reads the column.

* `ReaderTable.Marked` relates the readers to their marks. `SegmentReader.makeReaders_marked` says that the
  readers of a scan start at zero.
* `ColumnReader.nextVector_mark` reads rows off one reader, also beyond the last row: it fails then, and the
  reader stands at the end.
* `SegmentReader.seekColumns_marked` leads some readers to a block, `SegmentReader.readColumns_marked` reads
  into the columns of a batch, one after the other. A column that stands twice in a batch goes on where its
  first vector ended.
-/

namespace SegmentStore

/-! ### The ends of a stream -/

namespace StreamReader

variable {f : SegmentFile} {compress? : Option (Bytes → Bytes)} {cs : List Bytes} {s : StreamReader}

/-- The cursor is at the start. -/
def Fresh (s : StreamReader) : Prop := s.pending = [] ∧ s.nextChunk = 0

/-- A stream that was not yet read has everything ahead. -/
theorem delivers_fresh (h : s.Stores f compress? cs) (hfresh : s.Fresh) :
    s.Delivers f compress? cs cs.flatten := by
  refine ⟨h, [], cs, rfl, ?_, ?_⟩
  · rw [hfresh.2]
    rfl
  · rw [hfresh.1, List.nil_append]

/-- Where nothing lies ahead, the cursor is at the end. -/
theorem Delivers.at_end (h : s.Delivers f compress? cs []) (hcs : ∀ c ∈ cs, c ≠ []) :
    s.pending = [] ∧ s.nextChunk = s.length := by
  obtain ⟨hstores, done, rest, hsplit, hnext, hahead⟩ := h
  obtain ⟨hpending, hrest⟩ := List.append_eq_nil_iff.mp hahead.symm
  obtain rfl : rest = [] := by
    cases rest with
    | nil => rfl
    | cons c rest =>
      have hc := hcs c (by rw [hsplit]; exact List.mem_append_right done List.mem_cons_self)
      exact absurd (List.append_eq_nil_iff.mp hrest).1 hc
  rw [List.append_nil] at hsplit
  refine ⟨hpending, UInt64.toNat_inj.mp ?_⟩
  rw [hnext, hstores.length_eq, hsplit]

/-- Nothing is read past the end. -/
theorem read_end {n : Nat} (h : s.Delivers f compress? cs []) (hcs : ∀ c ∈ cs, c ≠ []) (hn : 0 < n) :
    ∃ s', s.read f n = (.error .streamEof, s') ∧ s'.Delivers f compress? cs [] := by
  obtain ⟨hpending, hnext⟩ := h.at_end hcs
  have hsame : { s with pending := s.pending.drop n : StreamReader } = s := by
    rw [hpending, List.drop_nil, ← hpending]
  have hload : s.load f s.nextChunk = .error .streamEof := by
    simp only [load, readChunk, hnext, UInt64.le_refl, if_true]
    rfl
  refine ⟨s, ?_, h⟩
  have hleft : ¬n - (s.pending.take n).length = 0 := by
    rw [hpending, List.take_nil, List.length_nil]
    omega
  simp only [read, readFrom, hsame, hleft, if_false, hload]

theorem readByte_end (h : s.Delivers f compress? cs []) (hcs : ∀ c ∈ cs, c ≠ []) :
    ∃ s', s.readByte f = (.error .streamEof, s') ∧ s'.Delivers f compress? cs [] := by
  obtain ⟨s', hread, hs'⟩ := read_end h hcs Nat.one_pos
  exact ⟨s', by rw [readByte, hread], hs'⟩

end StreamReader

/-! ### The ends of a column -/

namespace PlainReader

variable {f : SegmentFile} {compress? : Option (Bytes → Bytes)} {limit : Nat}
variable {vs : List Value} {r : PlainReader}

theorem fixedWidth_pos (ty : FieldType) : 0 < fixedWidth ty := by
  cases ty <;> decide

/-- The streams of the column are at their starts. -/
def Fresh (r : PlainReader) : Prop := r.data.Fresh ∧ ∀ p, r.present? = some p → p.Fresh

/-- A column that was not yet read has all its values ahead. -/
theorem ahead_fresh (h : r.Stores f compress? limit vs) (hfresh : r.Fresh) :
    r.Ahead f compress? limit vs vs := by
  refine ⟨h, List.Subset.refl vs, ?_, fun p hp => ?_⟩
  · have hdata := StreamReader.delivers_fresh h.data hfresh.1
    rwa [pieces_flatten] at hdata
  · have hpresent := StreamReader.delivers_fresh (h.present p hp) (hfresh.2 p hp)
    rwa [pieces_flatten] at hpresent

theorem ne_nil_of_mem_pieces {data c : Bytes} (hc : c ∈ pieces (max limit 1) data) : c ≠ [] :=
  List.length_pos_iff.mp
    (length_of_mem_pieces (Nat.lt_of_lt_of_le Nat.one_pos (Nat.le_max_right limit 1)) hc).1

/-- No value is read past the last one, and the reader stays there. -/
theorem readCell_end (h : r.Ahead f compress? limit vs []) :
    ∃ s, r.readCell f = (.error .streamEof, s) ∧ s.Ahead f compress? limit vs [] ∧ r.SameColumn s := by
  rcases hp : r.present? with _ | p
  · obtain ⟨d, hread, hd⟩ := StreamReader.read_end h.data (fun c => ne_nil_of_mem_pieces)
      (fixedWidth_pos r.type)
    refine ⟨{ r with data := d }, ?_, ⟨⟨hd.1, h.stores.present, h.stores.nulls, h.stores.accepts,
      h.stores.fits⟩, h.subset, hd, h.present⟩, rfl, rfl, rfl⟩
    simp only [readCell, readNull, hp, readData, hread]
  · obtain ⟨p', hread, hp'⟩ := StreamReader.readByte_end (h.present p hp)
      (fun c => ne_nil_of_mem_pieces)
    have hmoved : ∀ q, some p' = some q →
        q.Delivers f compress? (pieces (max limit 1) (vs.map Value.nullByte)) [] := by
      rintro q hq
      rwa [← Option.some.inj hq]
    refine ⟨{ r with present? := some p' }, ?_, ⟨⟨h.stores.data, fun q hq => (hmoved q hq).1,
      fun hnone => absurd hnone (Option.some_ne_none p'),
      h.stores.accepts, h.stores.fits⟩, h.subset, h.data, hmoved⟩, rfl, rfl, by rw [hp]; rfl⟩
    simp only [readCell, readNull, hp, hread, Except.map]

/-- Where more values are wanted than lie ahead, reading fails at the end of the column. -/
theorem readCells_end {xs items : List Value} {v : ColumnVector} {n : Nat}
    (h : r.Ahead f compress? limit vs xs) (hv : v.Holds items) (hty : v.type = r.type)
    (hn : xs.length < n) :
    ∃ s, r.readCells f n v = (.error .streamEof, s) ∧ s.Ahead f compress? limit vs [] ∧ r.SameColumn s := by
  obtain ⟨n, rfl⟩ : ∃ m, n = m + 1 := ⟨n - 1, by omega⟩
  induction xs generalizing r v items n with
  | nil =>
    obtain ⟨s, hread, hs, hsame⟩ := readCell_end h
    exact ⟨s, by rw [readCells, hread], hs, hsame⟩
  | cons x xs ih =>
    rw [List.length_cons] at hn
    obtain ⟨n, rfl⟩ : ∃ m, n = m + 1 := ⟨n - 1, by omega⟩
    obtain ⟨s, hread, hs, hid, htype, hsome⟩ := readCell_ahead h
    have hx : v.type.accepts x = true := hty ▸ h.stores.accepts x (h.subset List.mem_cons_self)
    obtain ⟨w, hpush, hw, hwtype⟩ := ColumnVector.push_holds hv hx
    obtain ⟨t, hrest, ht, hid', htype', hsome'⟩ := ih hs hw (by rw [hwtype, hty, htype]) n (by omega)
    refine ⟨t, ?_, ht, hid'.trans hid, htype'.trans htype, hsome'.trans hsome⟩
    rw [readCells, hread]
    simp only [hpush, hrest]

end PlainReader

/-! ### Rows by number -/

namespace WrittenSegment

variable {s : WrittenSegment} {cid : ColumnId} {c : Column} {p k : Nat}

variable (s) in
/-- The values of a column in `k` rows from row `p` on. -/
def values (cid : ColumnId) (p k : Nat) : List Value :=
  (List.range k).map fun i => s.cell (s.rows[p + i]?.getD []) cid

variable (s) in
/-- Reading `k` values of a column from row `p` on fails: there are not so many rows, or the column is not
stored and cannot hold its default. -/
def stops (cid : ColumnId) (p k : Nat) : Bool :=
  decide (0 < k) && if cid ∈ s.cids then decide (s.rows.length < p + k)
    else (s.schema.column? cid).any fun c => !c.type.accepts c.default

theorem values_eq (hrows : 0 < k → p + k ≤ s.rows.length) :
    s.values cid p k = ((s.rows.drop p).take k).map fun row => s.cell row cid := by
  refine List.ext_getElem (by simp [values]; omega) fun i hi _ => ?_
  have hlt : i < k := by simpa [values] using hi
  have hrow : p + i < s.rows.length := by omega
  simp [values, List.getElem?_eq_getElem hrow]

/-- A column that is not stored has its default in whatever row. -/
theorem values_absent (hcid : cid ∉ s.cids) (hc : s.schema.column? cid = some c) :
    s.values cid p k = List.replicate k c.default := by
  have hcell : ∀ i ∈ List.range k, s.cell (s.rows[p + i]?.getD []) cid = c.default := fun i _ =>
    cell_absent hcid hc
  rw [values, List.map_congr_left hcell, List.map_const', List.length_range]

theorem rowsFrom_eq_drop {b : Nat} (hb : b < s.blocks.length) :
    s.rowsFrom b = s.rows.drop (b * s.options.rowsPerBlock.toNat) :=
  flatten_drop_pieces hb

end WrittenSegment

/-! ### One column -/

theorem ColumnVector.accepts_of_push {v w : ColumnVector} {x : Value} (h : v.push x = .ok w) :
    v.type.accepts x = true := by
  cases v <;> cases x <;> first | rfl | cases h

namespace ColumnReader

variable {s : WrittenSegment} {f : SegmentFile} {cid : ColumnId} {r : ColumnReader} {c : Column}

/-- The streams of the reader are at their starts. -/
def Fresh : ColumnReader → Prop
  | .plain p => p.Fresh
  | .constant _ _ => True

theorem at_fresh (h : ColumnReader.Of s f cid r) (hfresh : r.Fresh) :
    ColumnReader.At s f cid s.rows r := by
  cases h with
  | stored hcid hc htype hpresent hstores =>
    exact .stored hcid hc htype hpresent (PlainReader.ahead_fresh hstores hfresh)
  | absent hcid hc => exact .absent hcid hc

/-- A stored column with fewer than `k` rows ahead fails, and stands at its end then. -/
theorem nextVector_short {p k : Nat} (hr : ColumnReader.At s f cid (s.rows.drop p) r)
    (hc : s.schema.column? cid = some c) (hstored : cid ∈ s.cids) (hk : 0 < k)
    (hshort : s.rows.length < p + k) :
    ∃ e r', r.nextVector f c.type k = (.error e, r')
      ∧ ColumnReader.At s f cid (s.rows.drop (p + k)) r' := by
  cases hr with
  | absent hcid _ => exact absurd hstored hcid
  | @stored j d q hcid hd htype hpresent hahead =>
    obtain ⟨a, ha, hacol⟩ := WrittenSegment.getElem?_cols.mp hd
    obtain rfl : cid = a := Option.some.inj (hcid.symm.trans ha)
    obtain rfl : d = c := Option.some.inj (hacol.symm.trans hc)
    have hn : ((s.rows.drop p).map (rowCell j)).length < k := by
      rw [List.length_map, List.length_drop]
      omega
    obtain ⟨q', hread, hq', -, htype', hsome⟩ := PlainReader.readCells_end hahead
      (ColumnVector.holds_empty d.type) ((ColumnVector.type_empty d.type).trans htype.symm) hn
    refine ⟨.streamEof, .plain q', ?_, ?_⟩
    · simp only [nextVector, htype, ne_eq, not_true_eq_false, if_false, hread]
    · rw [List.drop_of_length_le hshort.le]
      exact .stored hcid hd (htype'.trans htype) (hsome.trans hpresent) hq'

/-- A stored column with `k` rows ahead gives them. -/
theorem nextVector_ahead {p k : Nat} (hr : ColumnReader.At s f cid (s.rows.drop p) r)
    (hc : s.schema.column? cid = some c) (hstored : cid ∈ s.cids)
    (hrows : 0 < k → p + k ≤ s.rows.length) :
    ∃ v r', r.nextVector f c.type k = (.ok v, r') ∧ v.toList = s.values cid p k
      ∧ ColumnReader.At s f cid (s.rows.drop (p + k)) r' := by
  have hlength : ((s.rows.drop p).take k).length = k := by
    rw [List.length_take, List.length_drop]
    omega
  rw [← List.take_append_drop k (s.rows.drop p), List.drop_drop] at hr
  obtain ⟨v, r', hnext, hv, hr'⟩ := SegmentReader.nextVector_of hr hc
    (fun row hrow => List.mem_of_mem_drop (List.mem_of_mem_take hrow))
    (List.forall_mem_singleton.mpr fun habsent => absurd hstored habsent)
  rw [hlength] at hnext
  refine ⟨v, r', hnext, ?_, hr'⟩
  rw [WrittenSegment.values_eq hrows]
  exact ColumnVector.toList_of_holds hv

theorem pushTimes_fails {x : Value} {v : ColumnVector} (hx : ¬v.type.accepts x = true) (n : Nat) :
    ∃ e, pushTimes x (n + 1) v = .error e := by
  rw [pushTimes]
  cases hpush : v.push x with
  | error e => exact ⟨e, rfl⟩
  | ok w => exact absurd (ColumnVector.accepts_of_push hpush) hx

/-- A column that is not stored gives its default, if it can hold it. -/
theorem nextVector_absent {p k : Nat} (hr : ColumnReader.At s f cid (s.rows.drop p) r)
    (hc : s.schema.column? cid = some c) (habsent : cid ∉ s.cids) :
    ∃ result, r.nextVector f c.type k = (result, r)
      ∧ ColumnReader.At s f cid (s.rows.drop (p + k)) r
      ∧ if s.stops cid p k then ∃ e, result = .error e
        else ∃ v, result = .ok v ∧ v.toList = s.values cid p k := by
  cases hr with
  | stored hcid _ _ _ _ => exact absurd (List.mem_of_getElem? hcid) habsent
  | @absent d hcid hd =>
    obtain rfl : d = c := Option.some.inj (hd.symm.trans hc)
    refine ⟨pushTimes d.default k (.empty d.type), rfl, .absent hcid hd, ?_⟩
    rw [WrittenSegment.values_absent hcid hd]
    have htype := ColumnVector.type_empty d.type
    by_cases haccepts : d.type.accepts d.default = true
    · have hstops : s.stops cid p k = false := by simp [WrittenSegment.stops, habsent, hd, haccepts]
      obtain ⟨v, hpush, hv, -⟩ := SegmentReader.pushTimes_holds (ColumnVector.holds_empty d.type)
        (by rwa [htype]) k
      rw [hstops, if_neg (by decide)]
      exact ⟨v, hpush, by simpa using ColumnVector.toList_of_holds hv⟩
    · cases k with
      | zero =>
        have hstops : s.stops cid p 0 = false := by simp [WrittenSegment.stops]
        rw [hstops, if_neg (by decide)]
        exact ⟨_, rfl, ColumnVector.toList_of_holds (ColumnVector.holds_empty d.type)⟩
      | succ k =>
        have hstops : s.stops cid p (k + 1) = true := by simp [WrittenSegment.stops, habsent, hd, haccepts]
        rw [hstops, if_pos rfl]
        exact pushTimes_fails (by rwa [htype]) k

/-- The reader goes on by `k` rows. It gives their values, unless it fails. -/
theorem nextVector_mark {p : Nat} (k : Nat) (hr : ColumnReader.At s f cid (s.rows.drop p) r)
    (hc : s.schema.column? cid = some c) :
    ∃ result r', r.nextVector f c.type k = (result, r')
      ∧ ColumnReader.At s f cid (s.rows.drop (p + k)) r'
      ∧ if s.stops cid p k then ∃ e, result = .error e
        else ∃ v, result = .ok v ∧ v.toList = s.values cid p k := by
  by_cases hstored : cid ∈ s.cids
  · by_cases hshort : 0 < k ∧ s.rows.length < p + k
    · have hstops : s.stops cid p k = true := by simp [WrittenSegment.stops, hstored, hshort]
      obtain ⟨e, r', hnext, hr'⟩ := nextVector_short hr hc hstored hshort.1 hshort.2
      refine ⟨.error e, r', hnext, hr', ?_⟩
      rw [hstops, if_pos rfl]
      exact ⟨e, rfl⟩
    · have hstops : s.stops cid p k = false := by simpa [WrittenSegment.stops, hstored] using hshort
      have hrows : 0 < k → p + k ≤ s.rows.length := fun hk => by omega
      obtain ⟨v, r', hnext, hv, hr'⟩ := nextVector_ahead hr hc hstored hrows
      refine ⟨.ok v, r', hnext, hr', ?_⟩
      rw [hstops, if_neg (by decide)]
      exact ⟨v, rfl, hv⟩
  · obtain ⟨result, hnext, hr', hresult⟩ := nextVector_absent hr hc hstored
    exact ⟨result, r, hnext, hr', hresult⟩

end ColumnReader

/-! ### All columns -/

/-- How many rows of each column are behind its reader. -/
abbrev Marks := ColumnId → Nat

/-- The row from which the vector at index `i` of a batch is read, if each vector has `k` rows. -/
def Marks.row (m : Marks) (k : Nat) (ids : List ColumnId) (i : Nat) (cid : ColumnId) : Nat :=
  m cid + k * (ids.take i).count cid

namespace StreamTable

/-- Something holds of all streams under their names. -/
def All (t : StreamTable) (P : UniqueId × StreamKind → StreamReader → Prop) : Prop :=
  ∀ name d, t.lookup name = some d → P name d

theorem All.take {t : StreamTable} {P : UniqueId × StreamKind → StreamReader → Prop} (h : t.All P)
    (name : UniqueId × StreamKind) : (t.take name).2.All P := by
  intro name' d hd
  rw [StreamTable.take, lookup_filter_ne] at hd
  split at hd
  · cases hd
  · exact h name' d hd

end StreamTable

/-- Something holds of the streams of a reader, under the names that they have as streams of a table column. -/
def ColumnReader.Drawn (schema : TabletSchema) (cid : ColumnId) (P : UniqueId × StreamKind → StreamReader → Prop) :
    ColumnReader → Prop
  | .plain p => ∃ c, schema.column? cid = some c ∧ P (c.uniqueId, .data) p.data
    ∧ ∀ q, p.present? = some q → P (c.uniqueId, .present) q
  | .constant _ _ => True

namespace ReaderTable

variable {s : WrittenSegment} {f : SegmentFile} {t : ReaderTable} {used : List ColumnId} {m : Marks}

/-- The readers stand at their marks. -/
def Marked (t : ReaderTable) (s : WrittenSegment) (f : SegmentFile) (used : List ColumnId) (m : Marks) :
    Prop :=
  ∀ cid ∈ used, ∃ r, t.lookup cid = some r ∧ ColumnReader.At s f cid (s.rows.drop (m cid)) r

theorem Marked.of (h : t.Marked s f used m) : t.Of s f used := fun cid hcid => by
  obtain ⟨r, hlookup, hr⟩ := h cid hcid
  exact ⟨r, hlookup, hr.of⟩

/-- One reader moves to another mark. -/
theorem Marked.set (h : t.Marked s f used m) {cid : ColumnId} {r : ColumnReader} {p : Nat}
    (hr : ColumnReader.At s f cid (s.rows.drop p) r) :
    (t.set cid r).Marked s f used (Function.update m cid p) := by
  intro a ha
  obtain ⟨x, hlookup, hx⟩ := h a ha
  rw [lookup_set]
  by_cases hsame : a = cid
  · subst hsame
    rw [if_pos rfl, hlookup, Function.update_self]
    exact ⟨r, rfl, hr⟩
  · rw [if_neg hsame, Function.update_of_ne hsame]
    exact ⟨x, hlookup, hx⟩

theorem drawn_makeReader {schema : TabletSchema} {mapping : ColumnMapping} {streams streams' : StreamTable}
    {cid : ColumnId} {r : ColumnReader} {P : UniqueId × StreamKind → StreamReader → Prop} (hstreams : streams.All P)
    (h : makeReader schema mapping streams cid = .ok (r, streams')) : r.Drawn schema cid P ∧ streams'.All P := by
  rw [makeReader] at h
  split at h
  · cases h
  rename_i c hc
  dsimp only at h
  split at h
  · split at h
    · cases h
    · split at h
      · cases h
      · rename_i data rest hdata
        obtain ⟨rfl, rfl⟩ := Prod.mk.inj (Except.ok.inj h)
        obtain ⟨hlookup, hrest⟩ := Prod.mk.inj hdata
        have hall : StreamTable.All rest P := hrest ▸ hstreams.take _
        exact ⟨⟨c, hc, hstreams _ data hlookup, fun p hp => hall _ p hp⟩, hall.take _⟩
  · obtain ⟨rfl, rfl⟩ := Prod.mk.inj (Except.ok.inj h)
    exact ⟨trivial, hstreams⟩

/-- What holds of all streams holds of those of the readers that are made of them. -/
theorem drawn_make {schema : TabletSchema} {mapping : ColumnMapping} {cids : List ColumnId}
    {streams : StreamTable} {t t' : ReaderTable} {P : UniqueId × StreamKind → StreamReader → Prop}
    (h : make schema mapping cids streams t = .ok t') (hstreams : streams.All P)
    (ht : ∀ a r, t.lookup a = some r → r.Drawn schema a P) :
    ∀ a r, t'.lookup a = some r → r.Drawn schema a P := by
  induction cids generalizing streams t with
  | nil =>
    obtain rfl := Except.ok.inj h
    exact ht
  | cons cid cids ih =>
    rw [make] at h
    split at h
    · exact ih h hstreams ht
    · rename_i hknown
      split at h
      · cases h
      · rename_i r streams' hreader
        obtain ⟨hr, hrest⟩ := drawn_makeReader hstreams hreader
        refine ih h hrest fun a x hx => ?_
        rw [lookup_concat (Option.not_isSome_iff_eq_none.mp hknown)] at hx
        split at hx
        · rename_i hsame
          exact hsame ▸ Option.some.inj hx ▸ hr
        · exact ht a x hx

end ReaderTable

namespace SegmentReader

variable {s : WrittenSegment} {f : SegmentFile} {o : OpenSegment} {used : List ColumnId} {m : Marks}
variable {r : SegmentReader} {g : SegmentGroup} {file : FileId}

/-- The stream is at its start, where the header of the segment says. -/
def Listed (o : OpenSegment) (name : UniqueId × StreamKind) (d : StreamReader) : Prop :=
  ∃ l ∈ StreamInfo.placeAll o.info.headerLength o.info.header.streams, name = (l.info.uniqueId, l.info.kind)
    ∧ d = .make l.offset l.info.length o.decompress? o.info.header.bufferSize.toNat

/-- The readers that are made read the streams that the header lists, from their starts. -/
theorem makeReaders_listed {schema : TabletSchema} {t : ReaderTable} (h : r.makeReaders o schema = .ok t)
    {cid : ColumnId} {x : ColumnReader} (hlookup : t.lookup cid = some x) : x.Drawn schema cid (Listed o) := by
  obtain ⟨-, hmake⟩ := made_of_makeReaders h
  refine ReaderTable.drawn_make hmake (fun name d hd => ?_) (fun a y hy => by cases hy) cid x hlookup
  obtain ⟨l, hl, hentry⟩ := List.mem_map.mp (StreamTable.mem_of_lookup hd)
  obtain ⟨rfl, rfl⟩ := Prod.mk.inj hentry
  exact ⟨l, (List.mem_filter.mp hl).1, rfl, rfl⟩

theorem Listed.fresh {name : UniqueId × StreamKind} {d : StreamReader} (h : Listed o name d) : d.Fresh := by
  obtain ⟨l, -, -, rfl⟩ := h
  exact ⟨rfl, rfl⟩

theorem fresh_of_drawn {schema : TabletSchema} {cid : ColumnId} {x : ColumnReader}
    (h : x.Drawn schema cid (Listed o)) : x.Fresh := by
  cases x with
  | constant uid v => exact trivial
  | plain p =>
    obtain ⟨c, -, hdata, hpresent⟩ := h
    exact ⟨hdata.fresh, fun q hq => (hpresent q hq).fresh⟩

/-- The readers that a seek makes stand before the first row. -/
theorem makeReaders_marked (hr : r.Opened g s file o) (hfits : s.Fits) (hlossless : s.Lossless) :
    ∃ t, r.makeReaders o g.schema = .ok t
      ∧ t.Marked s (r.scanFile g file) r.context.used fun _ => 0 := by
  obtain ⟨t, hmake, hof⟩ := makeReaders_of hr hfits hlossless
  refine ⟨t, hmake, fun cid hcid => ?_⟩
  obtain ⟨x, hlookup, hx⟩ := hof cid hcid
  have hfresh := fresh_of_drawn (makeReaders_listed hmake hlookup)
  exact ⟨x, hlookup, ColumnReader.at_fresh hx hfresh⟩

/-! ### Going to a block -/

/-- A column that is not asked for stays where it is. -/
theorem lookup_seekColumns (f : SegmentFile) (o : OpenSegment) (block : Nat) {ids : List ColumnId}
    {cid : ColumnId} (hcid : cid ∉ ids) (t : ReaderTable) :
    (seekColumns f o block ids t).2.lookup cid = t.lookup cid := by
  induction ids generalizing t with
  | nil => rfl
  | cons a ids ih =>
    rw [List.mem_cons, not_or] at hcid
    obtain ⟨hne, hrest⟩ := hcid
    have hset : ∀ x, (t.set a x).lookup cid = t.lookup cid := fun x => by
      rw [ReaderTable.lookup_set, if_neg hne]
    rw [seekColumns]
    split
    · exact ih hrest t
    · split
      · rfl
      · dsimp only
        split
        · exact (ih hrest _).trans (hset _)
        · exact hset _

/-- Where the readers stand once some columns were led to a block. -/
def ledTo (s : WrittenSegment) (block : Nat) (ids : List ColumnId) (m : Marks) : Marks := fun cid =>
  if cid ∈ ids then block * s.options.rowsPerBlock.toNat else m cid

theorem seekColumns_marked (ho : o.Of s used) {block : Nat} (hblock : block < s.blocks.length)
    {ids : List ColumnId} (hids : ids ⊆ used) {t : ReaderTable} (ht : t.Marked s f used m) :
    ∃ t', seekColumns f o block ids t = (.ok (), t') ∧ t'.Marked s f used (ledTo s block ids m) := by
  have hnone : t.At s f [] (s.rowsFrom block) := fun a ha => absurd ha List.not_mem_nil
  obtain ⟨t', hseek, -, hat⟩ := seekColumns_of ho hblock hids ht.of hnone
  rw [List.nil_append, WrittenSegment.rowsFrom_eq_drop hblock] at hat
  refine ⟨t', hseek, fun cid hcid => ?_⟩
  by_cases hmem : cid ∈ ids
  · obtain ⟨x, hlookup, hx⟩ := hat cid hmem
    exact ⟨x, hlookup, by rwa [ledTo, if_pos hmem]⟩
  · obtain ⟨x, hlookup, hx⟩ := ht cid hcid
    have hkept := lookup_seekColumns f o block hmem t
    rw [hseek] at hkept
    exact ⟨x, hkept.trans hlookup, by rwa [ledTo, if_neg hmem]⟩

/-! ### Reading into a batch -/

/-- Where the readers stand once `k` rows were read of some columns, one column after the other up to the
first that fails. -/
def readOn (s : WrittenSegment) (k : Nat) : List ColumnId → Marks → Marks
  | [], m => m
  | cid :: cids, m =>
    if s.stops cid (m cid) k then Function.update m cid (m cid + k)
    else readOn s k cids (Function.update m cid (m cid + k))

/-- None of the columns fails when `k` rows are read of each, one column after the other. -/
def reads (s : WrittenSegment) (k : Nat) : List ColumnId → Marks → Bool
  | [], _ => true
  | cid :: cids, m =>
    !s.stops cid (m cid) k && reads s k cids (Function.update m cid (m cid + k))

/-- The columns `cs'` are `cs` with `k` rows each, read from the marks on. A vector has the rows behind those
that the vectors of the same column before it have. -/
structure ReadFrom (s : WrittenSegment) (m : Marks) (k : Nat) (cs cs' : List BatchColumn) : Prop where
  ids : cs'.map (·.id) = cs.map (·.id)
  values : ∀ (i : Nat) (c : BatchColumn), cs'[i]? = some c →
    c.vector.toList = s.values c.id (m.row k (cs.map (·.id)) i c.id) k

/-- The first column is read, and then the others. -/
theorem ReadFrom.cons {k : Nat} {c : BatchColumn} {v : ColumnVector} {cs cs' : List BatchColumn}
    (hv : v.toList = s.values c.id (m c.id) k)
    (h : ReadFrom s (Function.update m c.id (m c.id + k)) k cs cs') :
    ReadFrom s m k (c :: cs) ({ c with vector := v } :: cs') := by
  refine ⟨by rw [List.map_cons, List.map_cons, h.ids], ?_⟩
  rintro (_ | i) x hx
  · obtain rfl := Option.some.inj hx
    rw [Marks.row, List.take_zero, List.count_nil, Nat.mul_zero, Nat.add_zero]
    exact hv
  · rw [h.values i x hx, Marks.row, Marks.row, List.map_cons, List.take_succ_cons, List.count_cons]
    by_cases hsame : c.id = x.id
    · rw [← hsame, Function.update_self, if_pos (beq_self_eq_true _), Nat.mul_succ]
      congr 1
      omega
    · rw [Function.update_of_ne fun h => hsame h.symm, if_neg (by simpa using hsame), Nat.add_zero]

/-- The columns of a batch are read one after the other, from the marks on, up to the first that fails. -/
theorem readColumns_marked (k : Nat) (front : List BatchColumn) {cs : List BatchColumn} {t : ReaderTable}
    {batch : RowBatch} (hbatch : batch.columns = front ++ cs) (htyped : Typed s cs)
    (hused : cs.map (·.id) ⊆ used) (ht : t.Marked s f used m) :
    ∃ result t' batch', readColumns f k cs front.length t batch = (result, t', batch')
      ∧ t'.Marked s f used (readOn s k (cs.map (·.id)) m)
      ∧ if reads s k (cs.map (·.id)) m then
          result = .ok () ∧ ∃ cs', batch' = { batch with columns := front ++ cs' } ∧ ReadFrom s m k cs cs'
        else ∃ e, result = .error e := by
  induction cs generalizing front t batch m with
  | nil =>
    refine ⟨.ok (), t, batch, rfl, ht, ?_⟩
    rw [List.map_nil, reads, if_pos rfl]
    exact ⟨rfl, [], by rw [← hbatch], rfl, fun _ c hc => absurd hc.symm (Option.some_ne_none c)⟩
  | cons c cs ih =>
    obtain ⟨⟨d, hd, hdtype⟩, htyped⟩ := List.forall_mem_cons.mp htyped
    obtain ⟨hcid, hused⟩ := List.cons_subset.mp hused
    obtain ⟨r, hlookup, hr⟩ := ht c.id hcid
    obtain ⟨result, r', hnext, hr', hresult⟩ := ColumnReader.nextVector_mark k hr hd
    rw [hdtype] at hnext
    have hset := ht.set hr'
    rw [readColumns, hlookup, List.map_cons, readOn, reads]
    simp only [hnext]
    cases hstops : s.stops c.id (m c.id) k with
    | true =>
      rw [hstops, if_pos rfl] at hresult
      obtain ⟨e, rfl⟩ := hresult
      exact ⟨.error e, t.set c.id r', batch, rfl, hset, e, rfl⟩
    | false =>
      rw [hstops, if_neg (by decide)] at hresult
      obtain ⟨v, rfl, hv⟩ := hresult
      have hbatch' : (batch.setVector front.length v).columns = (front ++ [{ c with vector := v }]) ++ cs := by
        rw [RowBatch.setVector, hbatch, modify_append, List.append_assoc]
        rfl
      obtain ⟨result, t', batch', hread, hmarked, hvectors⟩ := ih (front ++ [{ c with vector := v }])
        hbatch' htyped hused hset
      rw [List.length_append, List.length_singleton] at hread
      refine ⟨result, t', batch', hread, hmarked, ?_⟩
      rw [Bool.not_false, Bool.true_and]
      split at hvectors
      · rename_i hreads
        obtain ⟨rfl, cs', rfl, hvectors⟩ := hvectors
        rw [if_pos hreads]
        refine ⟨rfl, { c with vector := v } :: cs', ?_, hvectors.cons hv⟩
        rw [List.append_assoc]
        rfl
      · rename_i hfails
        rw [if_neg hfails]
        exact hvectors

end SegmentReader

end SegmentStore
