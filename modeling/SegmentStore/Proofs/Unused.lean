import SegmentStore.Proofs.Failures
import SegmentStore.Proofs.Forgetting
import SegmentStore.Proofs.Windows

/-!
# A call for a column that is not used

A batch may ask for a column of the table that its reader does not use. The call fails there, with the columns
before it read already.

* `SegmentReader.UsedOnly` says that a reader has zone maps and column readers only for the columns that it uses,
  so that such a column is noticed when it is read, and not when the columns are positioned.
* `SegmentReader.positionColumns_unused` and `SegmentReader.loadBlock_unused` are the two parts of such a call.
  `SegmentReader.getBlock_unused` is what it gives and where it leaves the reader.
* `SegmentReader.lookup_of_getBlock` is the converse: a column that is said to be invalid has no reader.
-/

namespace SegmentStore

/-! ### Only the columns that are used -/

namespace IndexRequest

variable {q : IndexRequest} {ls : List LocatedStream} {set set' : IndexSet} {cache cache' : IndexCache}
variable {traffic traffic' : Traffic} {P : UniqueId → Prop}

/-- Zone maps come from row indexes among the streams that are loaded. -/
theorem loadStreams_zoneMaps (hset : ∀ e ∈ set.zoneMaps, P e.1)
    (hls : ∀ l ∈ ls, l.info.kind = .rowIndex → P l.info.uniqueId)
    (h : q.loadStreams ls set cache traffic = (.ok set', cache', traffic')) : ∀ e ∈ set'.zoneMaps, P e.1 := by
  induction ls generalizing set cache traffic with
  | nil =>
    obtain rfl := Except.ok.inj (congrArg Prod.fst h)
    exact hset
  | cons l ls ih =>
    obtain ⟨hl, hls⟩ := List.forall_mem_cons.mp hls
    rw [loadStreams] at h
    split at h
    · cases congrArg Prod.fst h
    · split at h
      · cases congrArg Prod.fst h
      · rename_i hadd
        refine ih ?_ hls h
        rcases add_ok hadd with ⟨hkind, z, -, -, rfl⟩ | ⟨-, f, -, rfl⟩
        · exact IndexSet.forall_mem_put (hl hkind) hset
        · exact hset

theorem load_zoneMaps (hplaced : ∀ l ∈ q.placed, l.info.kind = .rowIndex → P l.info.uniqueId)
    (h : (q.load cache).1 = .ok set) : ∀ e ∈ set.zoneMaps, P e.1 := by
  obtain ⟨-, hloaded⟩ := loaded_of_load h
  rcases hload : q.loadStreams q.placed q.emptySet cache .zero with ⟨result, cache', traffic⟩
  rw [hload] at hloaded
  obtain rfl : result = .ok set := hloaded
  exact loadStreams_zoneMaps (fun e he => absurd he List.not_mem_nil) hplaced hload

/-- The zone maps that are loaded are those of projected columns. -/
theorem mem_projected_of_zoneMap? (h : (q.load cache).1 = .ok set) {uid : UniqueId}
    (huid : set.zoneMap? uid ≠ none) : uid ∈ q.mapping.projected := by
  have hall : ∀ e ∈ set.zoneMaps, e.1 ∈ q.mapping.projected := by
    refine load_zoneMaps (P := (· ∈ q.mapping.projected)) (fun l hl hkind => ?_) h
    have hneeds := StreamInfo.needed_of_mem_place hl
    rw [ColumnMapping.needsIndexStream, hkind, Bool.and_eq_true] at hneeds
    exact List.contains_iff_mem.mp hneeds.2
  obtain ⟨z, hz⟩ := Option.ne_none_iff_exists'.mp huid
  exact hall (uid, z) (IndexSet.mem_of_zoneMap? hz)

end IndexRequest

/-- A stable id that is projected is that of a column that the scan uses. -/
theorem ColumnMapping.exists_used_of_projected {schema : TabletSchema} {used bloom : List ColumnId}
    {header : SegmentHeader} {m : ColumnMapping} (h : build schema used bloom header = .ok m) {uid : UniqueId}
    (huid : uid ∈ m.projected) : ∃ cid ∈ used, ∃ c, schema.column? cid = some c ∧ c.uniqueId = uid := by
  rw [build] at h
  obtain ⟨projected, hprojected, h⟩ := bind_eq_ok.mp h
  obtain ⟨bloomed, -, h⟩ := bind_eq_ok.mp h
  obtain rfl := Except.ok.inj h
  have hmem := List.mem_map_of_mem (f := (Except.ok : UniqueId → Except StorageError UniqueId)) huid
  rw [← mapM_eq_ok.mp hprojected] at hmem
  obtain ⟨cid, hcid, hok⟩ := List.mem_map.mp hmem
  rw [getElem?_tableIds] at hok
  cases hc : schema.column? cid with
  | none =>
    rw [hc] at hok
    cases hok
  | some c =>
    rw [hc] at hok
    exact ⟨cid, hcid, c, hc, Except.ok.inj hok⟩

/-- Readers are made for the columns that are asked for, and no others. -/
theorem ReaderTable.lookup_make {schema : TabletSchema} {m : ColumnMapping} {cids : List ColumnId}
    {streams : StreamTable} {t t' : ReaderTable} (h : make schema m cids streams t = .ok t') {cid : ColumnId}
    (hcid : cid ∉ cids) : t'.lookup cid = t.lookup cid := by
  induction cids generalizing streams t with
  | nil => rw [Except.ok.inj h]
  | cons a cids ih =>
    rw [List.mem_cons, not_or] at hcid
    rw [make] at h
    split at h
    · exact ih h hcid.2
    · rename_i hnew
      split at h
      · cases h
      · rw [ih h hcid.2, lookup_concat (Option.not_isSome_iff_eq_none.mp hnew), if_neg hcid.1]

/-- Only the marks of the used columns count. -/
theorem ReaderTable.Marked.congr {s : WrittenSegment} {f : SegmentFile} {used : List ColumnId} {m m' : Marks}
    {t : ReaderTable} (h : t.Marked s f used m) (hm : ∀ cid ∈ used, m' cid = m cid) :
    t.Marked s f used m' := by
  intro cid hcid
  rw [hm cid hcid]
  exact h cid hcid

namespace SegmentReader

open ReaderTable

variable {s : WrittenSegment} {r : SegmentReader} {g : SegmentGroup} {file : FileId} {o : OpenSegment}
variable {m : Marks} {segmentId : UInt32} {context : ReadContext} {batch : RowBatch}
variable {stats : ScanStatistics} {f : SegmentFile} {t : ReaderTable}

/-- Positioning moves the column readers, and only the cursor beside them. -/
theorem positionColumns_same (hreaders : r.readers? = some t) (f : SegmentFile) (o : OpenSegment)
    (batch : RowBatch) :
    ∃ result t' cursor, r.positionColumns f o t batch = (result, { r with readers? := some t', cursor })
      ∧ t'.SameStreams t := by
  rw [positionColumns]
  split
  · have hsame := seekColumns_same f o r.cursor.next batch.columnIds t
    rcases hseek : seekColumns f o r.cursor.next batch.columnIds t with ⟨e | _, t'⟩ <;> rw [hseek] at hsame
    · exact ⟨.error e, t', r.cursor, rfl, hsame⟩
    · exact ⟨.ok (), t', _, rfl, hsame⟩
  · refine ⟨.ok (), t, r.cursor, ?_, .refl t⟩
    rw [← hreaders]

/-- Loading moves the column readers, and only the cursor beside them. -/
theorem loadBlock_same (r : SegmentReader) (f : SegmentFile) (o : OpenSegment) (t : ReaderTable)
    (batch : RowBatch) :
    ∃ result t' cursor batch', r.loadBlock f o t batch
        = (result, { r with readers? := some t', cursor }, batch')
      ∧ t'.SameStreams t := by
  have hsame := readColumns_same f (rowsToLoad o r.cursor.current batch.capacity) batch.columns 0 t batch
  rw [loadBlock]
  rcases hread : readColumns f (rowsToLoad o r.cursor.current batch.capacity) batch.columns 0 t batch with
    ⟨e | _, t', batch'⟩ <;> rw [hread] at hsame
  · exact ⟨.error e, t', r.cursor, batch', rfl, hsame⟩
  · exact ⟨_, t', _, _, rfl, hsame⟩

/-- A call moves the column readers that were made, and makes none. -/
theorem getBlock_same (r : SegmentReader) (batch : RowBatch) (g : SegmentGroup) (stats : ScanStatistics) :
    ∃ readers? cursor, (r.getBlock batch g stats).2.1 = { r with readers?, cursor }
      ∧ Option.Rel SameStreams readers? r.readers? := by
  obtain ⟨segmentId, context, segment?, readers?, blocks?, cursor⟩ := r
  have hstays : Option.Rel SameStreams readers? readers? := by
    cases readers? with
    | none => exact .none
    | some t => exact .some (.refl t)
  rw [getBlock]
  split
  · exact ⟨readers?, cursor, rfl, hstays⟩
  cases segment? with
  | none => exact ⟨readers?, cursor, rfl, hstays⟩
  | some o =>
    cases readers? with
    | none => exact ⟨none, cursor, rfl, .none⟩
    | some t =>
      obtain ⟨result, t₁, cursor₁, hposition, hsame₁⟩ := positionColumns_same
        (r := ⟨segmentId, context, some o, some t, blocks?, cursor⟩) rfl
        ⟨context.options.backend, g.files.content o.file⟩ o batch
      dsimp only
      rw [hposition]
      cases result with
      | error e =>
        dsimp only
        split <;> exact ⟨some t₁, _, rfl, .some hsame₁⟩
      | ok _ =>
        obtain ⟨result, t₂, cursor₂, batch', hload, hsame₂⟩ := loadBlock_same
          ⟨segmentId, context, some o, some t₁, blocks?, cursor₁⟩
          ⟨context.options.backend, g.files.content o.file⟩ o t₁ batch
        simp only [Option.getD_some, hload]
        cases result <;> exact ⟨some t₂, cursor₂, rfl, .some (hsame₂.trans hsame₁)⟩

/-- The zone maps and column readers at hand are those of columns that the scan uses. -/
structure UsedOnly (r : SegmentReader) : Prop where
  zoneMaps : ∀ o, r.segment? = some o →
    ∀ cid ∉ r.context.used, (o.mapping.uniqueId? cid).bind o.indexes.zoneMap? = none
  readers : ∀ t, r.readers? = some t → ∀ cid ∉ r.context.used, t.lookup cid = none

theorem usedOnly_make (segmentId : UInt32) (context : ReadContext) : (make segmentId context).UsedOnly :=
  ⟨fun o ho => absurd ho.symm (Option.some_ne_none o), fun t ht => absurd ht.symm (Option.some_ne_none t)⟩

/-- A stable id is that of one column, so no other column has its zone map. -/
theorem usedOnly_init (hr : r.UsedOnly) (hids : (g.schema.columns.map (·.uniqueId)).Nodup) (fillCache : Bool)
    (cache : IndexCache) (stats : ScanStatistics) : (r.init fillCache g cache stats).reader.UsedOnly := by
  rcases init_cases r fillCache g cache stats with ⟨-, hsame⟩ | ⟨hresult, -⟩
  · rwa [hsame]
  · obtain ⟨o, q, hopened, hreader, -⟩ := init_ok hresult
    rw [hreader]
    refine ⟨fun o' ho' cid hcid => ?_, fun t ht => absurd ht.symm (Option.some_ne_none t)⟩
    obtain rfl : o = o' := Option.some.inj ho'
    by_contra hzone
    obtain ⟨z, hz⟩ := Option.ne_none_iff_exists'.mp hzone
    obtain ⟨uid, huid, hz⟩ := Option.bind_eq_some_iff.mp hz
    have hloaded : o.indexes.zoneMap? uid ≠ none := by
      rw [hz]
      exact Option.some_ne_none z
    have hprojected := IndexRequest.mem_projected_of_zoneMap? hopened.loaded hloaded
    rw [hopened.mapping] at hprojected
    obtain ⟨a, ha, c, hc, hcolumn⟩ := ColumnMapping.exists_used_of_projected hopened.mapped hprojected
    rw [ColumnMapping.uniqueId?_of_build hopened.mapped] at huid
    obtain ⟨d, hd, hdcolumn⟩ := Option.map_eq_some_iff.mp huid
    exact hcid (TabletSchema.column?_inj hids hd hc (hdcolumn.trans hcolumn.symm) ▸ ha)

theorem usedOnly_seek (hr : r.UsedOnly) (first last : Nat) (unfiltered : Bool) (g : SegmentGroup)
    (stats : ScanStatistics) : (r.seekToBlock first last unfiltered g stats).2.1.UsedOnly := by
  have hranged : ∀ (r : SegmentReader) (o : OpenSegment), r.UsedOnly →
      (r.seekRange o first last unfiltered g stats).2.1.UsedOnly := by
    intro r o hr
    obtain ⟨result, stats', blocks?, cursor, hseek, -⟩ := seekRange_keeps r o first last unfiltered g stats
    rw [hseek]
    exact ⟨hr.zoneMaps, hr.readers⟩
  rw [seekToBlock]
  split
  · exact hr
  rename_i o ho
  split
  · exact hranged r o hr
  split
  · exact hr
  · rename_i t hmake
    refine hranged _ o ⟨hr.zoneMaps, fun t' ht' cid hcid => ?_⟩
    obtain rfl : t = t' := Option.some.inj ht'
    exact (lookup_make (made_of_makeReaders hmake).2 hcid).trans rfl

theorem usedOnly_getBlock (hr : r.UsedOnly) (batch : RowBatch) (g : SegmentGroup) (stats : ScanStatistics) :
    (r.getBlock batch g stats).2.1.UsedOnly := by
  obtain ⟨readers?, cursor, hget, hsame⟩ := getBlock_same r batch g stats
  rw [hget]
  refine ⟨hr.zoneMaps, fun t ht cid hcid => ?_⟩
  obtain rfl : readers? = some t := ht
  generalize hreaders : r.readers? = readers? at hsame
  cases hsame with
  | some hsame =>
    rename_i u
    rcases hsame.lookup cid with ⟨hnone, -⟩ | ⟨x, y, -, hy, -⟩
    · exact hnone
    · rw [hr.readers u hreaders cid hcid] at hy
      cases hy

/-! ### A column that is not used -/

/-- Columns that are not used are not positioned. -/
theorem seekColumns_filter {used : List ColumnId} {block : Nat}
    (hzones : ∀ cid ∉ used, (o.mapping.uniqueId? cid).bind o.indexes.zoneMap? = none) (ids : List ColumnId)
    (t : ReaderTable) :
    seekColumns f o block ids t = seekColumns f o block (ids.filter (· ∈ used)) t := by
  induction ids generalizing t with
  | nil => rfl
  | cons cid ids ih =>
    by_cases hcid : cid ∈ used
    · rw [List.filter_cons_of_pos (by simpa using hcid), seekColumns, seekColumns]
      split
      · exact ih t
      split
      · rfl
      dsimp only
      split
      · exact ih _
      · rfl
    · rw [List.filter_cons_of_neg (by simpa using hcid), seekColumns, hzones cid hcid]
      exact ih t

/-- Columns are read after those before them, if none of these fails. -/
theorem readColumns_append (f : SegmentFile) (k : Nat) (front cs : List BatchColumn) (i : Nat)
    (t : ReaderTable) (batch : RowBatch) :
    readColumns f k (front ++ cs) i t batch
      = match readColumns f k front i t batch with
        | (.ok (), t', batch') => readColumns f k cs (i + front.length) t' batch'
        | (.error e, t', batch') => (.error e, t', batch') := by
  induction front generalizing i t batch with
  | nil => rfl
  | cons c front ih =>
    rw [List.cons_append, readColumns, readColumns]
    split
    · rfl
    split
    · rfl
    · rw [ih, List.length_cons, Nat.add_right_comm]
      rfl

/-- The columns behind those that are read stay as they are. -/
theorem readColumns_frame (f : SegmentFile) (k : Nat) (done cs rest : List BatchColumn) (t : ReaderTable)
    (batch : RowBatch) :
    readColumns f k cs done.length t { batch with columns := done ++ cs ++ rest }
      = match readColumns f k cs done.length t { batch with columns := done ++ cs } with
        | (result, t', batch') => (result, t', { batch' with columns := batch'.columns ++ rest }) := by
  induction cs generalizing done t with
  | nil => rfl
  | cons c cs ih =>
    rw [readColumns, readColumns]
    split
    · rfl
    split
    · rfl
    · rename_i v r' _
      have hset : ∀ ys, RowBatch.setVector { batch with columns := done ++ c :: ys } done.length v
          = { batch with columns := done ++ [{ c with vector := v }] ++ ys } := fun ys => by
        rw [RowBatch.setVector, modify_append, List.append_assoc]
        rfl
      have hrest := ih (done ++ [{ c with vector := v }]) (t.set c.id r')
      rw [List.length_append, List.length_singleton] at hrest
      rw [List.append_assoc, List.cons_append, hset, hset, ← List.append_assoc]
      exact hrest

/-- Reading stops at a column without a reader, the columns before it being read. -/
theorem readColumns_missing {front rest : List BatchColumn} {c : BatchColumn} {batch : RowBatch}
    (hsplit : batch.columns = front ++ c :: rest) (hc : t.lookup c.id = none) (f : SegmentFile) (k : Nat) :
    readColumns f k batch.columns 0 t batch
      = match readColumns f k front 0 t { batch with columns := front } with
        | (.ok (), t', batch') =>
          (.error (.invalidColumn c.id), t', { batch' with columns := batch'.columns ++ c :: rest })
        | (.error e, t', batch') => (.error e, t', { batch' with columns := batch'.columns ++ c :: rest }) := by
  have hbatch : batch = { batch with columns := [] ++ front ++ c :: rest } := by
    rw [List.nil_append, ← hsplit]
  have hframe := readColumns_frame f k [] front (c :: rest) t batch
  rw [← hbatch, List.nil_append, List.length_nil] at hframe
  have hsame := readColumns_same f k front 0 t { batch with columns := front }
  rw [hsplit, readColumns_append, hframe]
  rcases hread : readColumns f k front 0 t { batch with columns := front } with ⟨e | _, t', batch'⟩
  · rfl
  · rw [hread] at hsame
    have hnone : t'.lookup c.id = none := by
      rcases hsame.lookup c.id with ⟨hnone, -⟩ | ⟨x, y, -, hy, -⟩
      · exact hnone
      · rw [hc] at hy
        cases hy
    dsimp only
    rw [readColumns, hnone]

/-- A reader that is not there was not there before some were moved. -/
theorem lookup_of_set {cid a : ColumnId} {x y : ColumnReader} (hlookup : t.lookup a = some x)
    (h : (t.set a y).lookup cid = none) : t.lookup cid = none := by
  rw [lookup_set] at h
  split at h
  · rw [hlookup] at h
    cases h
  · exact h

/-- A failed seek does not say that a column is invalid. -/
theorem seekFailure_ne_invalidColumn (uid : UniqueId) (block : Nat) (e : StorageError) (cid : ColumnId) :
    seekFailure uid block e ≠ .invalidColumn cid := by
  cases e <;> exact nofun

theorem lookup_of_seekColumns {cid : ColumnId} {block : Nat} {ids : List ColumnId}
    (h : (seekColumns f o block ids t).1 = .error (.invalidColumn cid)) : cid ∈ ids ∧ t.lookup cid = none := by
  induction ids generalizing t with
  | nil => cases h
  | cons a ids ih =>
    rw [seekColumns] at h
    split at h
    · exact ⟨List.mem_cons_of_mem a (ih h).1, (ih h).2⟩
    split at h
    · rename_i hnone
      obtain rfl : a = cid := StorageError.invalidColumn.inj (Except.error.inj h)
      exact ⟨List.mem_cons_self, hnone⟩
    · rename_i hlookup
      dsimp only at h
      split at h
      · exact ⟨List.mem_cons_of_mem a (ih h).1, lookup_of_set hlookup (ih h).2⟩
      · exact absurd (Except.error.inj h) (seekFailure_ne_invalidColumn _ _ _ cid)

/-- A column is said to be invalid only if it has no reader. -/
theorem lookup_of_readColumns {cid : ColumnId} {k : Nat} {cs : List BatchColumn} {i : Nat}
    (h : (readColumns f k cs i t batch).1 = .error (.invalidColumn cid)) :
    cid ∈ cs.map (·.id) ∧ t.lookup cid = none := by
  induction cs generalizing i t batch with
  | nil => cases h
  | cons c cs ih =>
    rw [readColumns] at h
    split at h
    · rename_i hnone
      obtain rfl : c.id = cid := StorageError.invalidColumn.inj (Except.error.inj h)
      exact ⟨List.mem_cons_self, hnone⟩
    · rename_i x hlookup
      split at h
      · rename_i hnext
        have hdata := ColumnReader.nextVector_failsOfData f c.type k x _ (congrArg Prod.fst hnext)
        rw [Except.error.inj h] at hdata
        exact hdata.elim
      · exact ⟨List.mem_cons_of_mem c.id (ih h).1, lookup_of_set hlookup (ih h).2⟩

theorem lookup_of_positionColumns {cid : ColumnId}
    (h : (r.positionColumns f o t batch).1 = .error (.invalidColumn cid)) :
    cid ∈ batch.columnIds ∧ t.lookup cid = none := by
  rw [positionColumns] at h
  split at h
  · have hseek : (seekColumns f o r.cursor.next batch.columnIds t).1 = .error (.invalidColumn cid) := by
      rcases hseek : seekColumns f o r.cursor.next batch.columnIds t with ⟨e | _, t'⟩ <;> rw [hseek] at h
      · exact h
      · cases h
    exact lookup_of_seekColumns hseek
  · cases h

theorem lookup_of_loadBlock {cid : ColumnId}
    (h : (r.loadBlock f o t batch).1 = .error (.invalidColumn cid)) :
    cid ∈ batch.columnIds ∧ t.lookup cid = none := by
  rw [loadBlock] at h
  have hread : (readColumns f (rowsToLoad o r.cursor.current batch.capacity) batch.columns 0 t batch).1
      = .error (.invalidColumn cid) := by
    rcases hread : readColumns f (rowsToLoad o r.cursor.current batch.capacity) batch.columns 0 t batch with
      ⟨e | _, t', batch'⟩ <;> rw [hread] at h
    · exact congrArg Except.error (Except.error.inj h)
    · cases h
  exact lookup_of_readColumns hread

/-- A call that says of a column that it is invalid is to load a block, and there is no reader of the column. -/
theorem lookup_of_getBlock {cid : ColumnId}
    (h : (r.getBlock batch g stats).1 = .error (.invalidColumn cid)) :
    cid ∈ batch.columnIds ∧ r.cursor.eof = false ∧ ∃ t, r.readers? = some t ∧ t.lookup cid = none := by
  rw [getBlock] at h
  split at h
  · cases h
  rename_i heof
  split at h
  · cases h
  · cases h
  rename_i o t ho hreaders
  suffices hmissing : cid ∈ batch.columnIds ∧ t.lookup cid = none from
    ⟨hmissing.1, Bool.eq_false_of_not_eq_true heof, t, hreaders, hmissing.2⟩
  obtain ⟨result, t₁, cursor, hposition, hsame⟩ :=
    positionColumns_same hreaders ⟨r.context.options.backend, g.files.content o.file⟩ o batch
  dsimp only at h
  rw [hposition] at h
  cases result with
  | error e =>
    dsimp only at h
    split at h
    · cases h
    · obtain rfl := Except.error.inj h
      exact lookup_of_positionColumns (congrArg Prod.fst hposition)
  | ok _ =>
    simp only [Option.getD_some] at h
    split at h
    · rename_i hload
      obtain rfl := Except.error.inj h
      obtain ⟨hcid, hnone⟩ := lookup_of_loadBlock hload
      refine ⟨hcid, ?_⟩
      rcases hsame.lookup cid with ⟨-, hnone'⟩ | ⟨x, y, hx, -, -⟩
      · exact hnone'
      · rw [hnone] at hx
        cases hx
    · cases h

variable {front rest : List BatchColumn} {c : BatchColumn}

/-- Where the marks of the used columns are after a call positions its columns does not depend on others. -/
theorem positioned_filter {cid : ColumnId} {used : List ColumnId} (hcid : cid ∈ used) (ids : List ColumnId)
    (m : Marks) : r.positioned s (ids.filter (· ∈ used)) m cid = r.positioned s ids m cid := by
  rw [positioned, positioned]
  split
  · simp only [ledTo, List.mem_filter, hcid, decide_true, and_true]
  · rfl

/-- The used columns of a batch are led to the next block, whatever others it has. -/
theorem positionColumns_unused (hr : r.UsedOnly) (ho : r.segment? = some o) (hof : o.Of s r.context.used)
    (hreaders : r.readers? = some t) (ht : t.Marked s f r.context.used m)
    (hnext : r.cursor.next < s.blocks.length) (batch : RowBatch) :
    ∃ t', r.positionColumns f o t batch = (.ok (), r.atNext t')
      ∧ t'.Marked s f r.context.used (r.positioned s batch.columnIds m)
      ∧ ∀ cid ∉ r.context.used, t'.lookup cid = none := by
  let known : RowBatch := { batch with columns := batch.columns.filter (·.id ∈ r.context.used) }
  have hids : known.columnIds = batch.columnIds.filter (· ∈ r.context.used) := by
    rw [RowBatch.columnIds, RowBatch.columnIds, List.filter_map]
    rfl
  have hknown : r.positionColumns f o t batch = r.positionColumns f o t known := by
    rw [positionColumns, positionColumns, hids, ← seekColumns_filter (hr.zoneMaps o ho)]
  have hsub : known.columnIds ⊆ r.context.used := by
    intro cid hcid
    rw [hids] at hcid
    exact of_decide_eq_true (List.mem_filter.mp hcid).2
  obtain ⟨t', hposition, ht'⟩ := positionColumns_marked hof hreaders ht hnext known hsub
  obtain ⟨result, t₁, cursor, hmoved, hsame⟩ := positionColumns_same hreaders f o known
  obtain rfl : t' = t₁ := by
    have h := congrArg (fun x => x.2.readers?) (hposition.symm.trans hmoved)
    exact Option.some.inj h
  have hmarks : ∀ cid ∈ r.context.used, r.positioned s batch.columnIds m cid
      = r.positioned s known.columnIds m cid := fun cid hcid => by rw [hids, positioned_filter hcid]
  refine ⟨t', hknown.trans hposition, ReaderTable.Marked.congr ht' hmarks, fun cid hcid => ?_⟩
  rcases hsame.lookup cid with ⟨hnone, -⟩ | ⟨x, y, -, hy, -⟩
  · exact hnone
  · rw [hr.readers t hreaders cid hcid] at hy
    cases hy

/-- The columns before one without a reader are read, and then the load fails, unless it has failed before. -/
theorem loadBlock_unused (hfits : s.Fits) (hof : o.Of s r.context.used) (ht : t.Marked s f r.context.used m)
    (hcurrent : r.cursor.current = r.cursor.next) (hnext : r.cursor.next < s.blocks.length)
    (htyped : Typed s batch.columns) (hsplit : batch.columns = front ++ c :: rest)
    (hfront : front.map (·.id) ⊆ r.context.used) (hc : t.lookup c.id = none) :
    ∃ t', t'.Marked s f r.context.used (readOn s (r.rowsWanted s batch) (front.map (·.id)) m)
      ∧ if reads s (r.rowsWanted s batch) (front.map (·.id)) m then
          ∃ cs, r.loadBlock f o t batch = (.error (.invalidColumn c.id), { r with readers? := some t' },
              { batch with columns := cs ++ c :: rest })
            ∧ ReadFrom s m (r.rowsWanted s batch) front cs
        else ∃ e batch', r.loadBlock f o t batch = (.error e, { r with readers? := some t' }, batch')
          ∧ ∀ cid, e ≠ .invalidColumn cid := by
  have hrows : rowsToLoad o r.cursor.current batch.capacity = r.rowsWanted s batch := by
    rw [hcurrent]
    exact rowsToLoad_eq hof hfits hnext batch.capacity
  obtain ⟨hknown, -⟩ := List.forall_mem_append.mp (hsplit ▸ htyped)
  have hmissing := readColumns_missing hsplit hc f (r.rowsWanted s batch)
  obtain ⟨result, t', batch', hread, ht', hvectors⟩ := readColumns_marked (r.rowsWanted s batch) []
    (show ({ batch with columns := front } : RowBatch).columns = [] ++ front from rfl) hknown hfront ht
  rw [List.length_nil] at hread
  rw [hread] at hmissing
  refine ⟨t', ht', ?_⟩
  split at hvectors
  · rename_i hreads
    obtain ⟨rfl, cs, rfl, hvectors⟩ := hvectors
    rw [if_pos hreads]
    refine ⟨cs, ?_, hvectors⟩
    rw [loadBlock, hrows, hmissing]
    rfl
  · rename_i hfails
    obtain ⟨e, rfl⟩ := hvectors
    rw [if_neg hfails]
    refine ⟨e, _, by rw [loadBlock, hrows, hmissing], ?_⟩
    rintro cid rfl
    obtain ⟨hcid, hnone⟩ := lookup_of_readColumns (congrArg Prod.fst hread)
    obtain ⟨x, hx, -⟩ := ht cid (hfront hcid)
    rw [hnone] at hx
    cases hx

/-- A call for a column that is not used reads those before it from the marks, and then fails, unless one of these
has failed before. The columns are said to stand at the next block then. -/
theorem getBlock_unused (hr : r.Tracked s segmentId context file m) (hused : r.UsedOnly) (hfits : s.Fits)
    (hhosts : g.Hosts segmentId s file) (htyped : Typed s batch.columns) (hloading : r.Loading)
    (hsplit : batch.columns = front ++ c :: rest) (hfront : front.map (·.id) ⊆ context.used)
    (hc : c.id ∉ context.used) (stats : ScanStatistics) :
    ∃ t', t'.Marked s (s.file context.options.backend) context.used
        (readOn s (r.rowsWanted s batch) (front.map (·.id)) (r.positioned s batch.columnIds m))
      ∧ if reads s (r.rowsWanted s batch) (front.map (·.id)) (r.positioned s batch.columnIds m) then
          ∃ cs stats', r.getBlock batch g stats = (.error (.invalidColumn c.id), r.atNext t',
              { batch with columns := cs ++ c :: rest }, stats')
            ∧ ReadFrom s (r.positioned s batch.columnIds m) (r.rowsWanted s batch) front cs
        else ∃ e batch' stats', r.getBlock batch g stats = (.error e, r.atNext t', batch', stats')
          ∧ ∀ cid, e ≠ .invalidColumn cid := by
  have hnext := hr.next_lt hloading
  obtain ⟨rfl, rfl, hopened, -, hmarked⟩ := hr
  obtain ⟨heof, hmade⟩ := hloading
  obtain ⟨t, hreaders⟩ := Option.ne_none_iff_exists'.mp hmade
  obtain ⟨hsegment, ht, -⟩ := hmarked t hreaders
  obtain ⟨o, ho⟩ := Option.ne_none_iff_exists'.mp hsegment
  obtain ⟨rfl, hof, -⟩ := hopened o ho
  obtain ⟨t₁, hposition, ht₁, hnone⟩ := positionColumns_unused hused ho hof hreaders ht hnext batch
  obtain ⟨t', ht', hloaded⟩ := loadBlock_unused (r := r.atNext t₁) hfits hof ht₁ rfl hnext htyped hsplit
    hfront (hnone c.id hc)
  rw [← hhosts.file_eq] at hposition hloaded
  refine ⟨t', ht', ?_⟩
  have hwanted : (r.atNext t₁).rowsWanted s batch = r.rowsWanted s batch := rfl
  rw [hwanted] at hloaded
  split at hloaded
  · rename_i hreads
    obtain ⟨cs, hload, hvectors⟩ := hloaded
    rw [if_pos hreads]
    exact ⟨cs, _, getBlock_eq heof ho hreaders hposition hload stats, hvectors⟩
  · rename_i hfails
    obtain ⟨e, batch', hload, he⟩ := hloaded
    rw [if_neg hfails]
    exact ⟨e, batch', _, getBlock_eq heof ho hreaders hposition hload stats, he⟩

end SegmentReader

end SegmentStore
