import SegmentStore.Proofs.Layout
import SegmentStore.Schema.Mapping

/-!
# The columns of a table in a written segment

* `ColumnMapping.Of` says that a mapping relates a table to a written segment and projects some columns.
* `ColumnMapping.of_build` and `ColumnMapping.exists_build` say when such a mapping is built.
* `ColumnMapping.Of.isStored_iff`, `ColumnMapping.Of.storedId?_eq_some` and
  `ColumnMapping.Of.tableColumn?_eq` are what it answers.
-/

namespace SegmentStore

/-- In a list without repetition the last position of an item is its only one. -/
theorem lastIndex?_eq {α : Type} [DecidableEq α] {a : α} {xs : List α} {i : Nat} (hxs : xs.Nodup)
    (h : xs[i]? = some a) : lastIndex? a xs = some i := by
  obtain ⟨hi, ha⟩ := List.getElem?_eq_some_iff.mp h
  have hrev : xs.reverse[xs.length - 1 - i]? = some a := by
    rw [List.getElem?_reverse (by omega), ← h]
    congr 1
    omega
  have hfind : xs.reverse.findIdx? (· = a) = some (xs.length - 1 - i) := by
    rw [List.findIdx?_eq_some_iff_getElem]
    obtain ⟨hlt, heq⟩ := List.getElem?_eq_some_iff.mp hrev
    refine ⟨hlt, by simp [heq], fun j hj hja => ?_⟩
    have hja : xs.reverse[j] = a := by simpa using hja
    have hsame : xs.reverse[j]? = xs.reverse[xs.length - 1 - i]? := by
      rw [hrev, List.getElem?_eq_getElem (by omega), hja]
    have := (List.getElem?_inj (by omega) (List.nodup_reverse.mpr hxs)).mp hsame
    omega
  rw [lastIndex?, hfind, Option.map_some]
  congr 1
  omega

namespace ColumnMapping

/-- The mapping relates the table of a segment to its columns, and projects the columns `used`. -/
structure Of (m : ColumnMapping) (s : WrittenSegment) (used : List ColumnId) : Prop where
  tableIds : m.tableIds = s.schema.columns.map (·.uniqueId)
  stored : m.stored = s.cols.map Column.stored
  projected : ∀ cid ∈ used, ∀ c, s.schema.column? cid = some c → c.uniqueId ∈ m.projected

variable {m : ColumnMapping} {s : WrittenSegment} {used bloom : List ColumnId}

/-! ### Building -/

theorem getElem?_tableIds (schema : TabletSchema) (cid : ColumnId) :
    (schema.columns.map (·.uniqueId))[cid.toNat]? = (schema.column? cid).map (·.uniqueId) := by
  rw [List.getElem?_map]
  rfl

/-- Every column that resolves is one of the table. -/
theorem column_of_resolve {schema : TabletSchema} {cids : List ColumnId} {uids : List UniqueId}
    (h : resolve (schema.columns.map (·.uniqueId)) cids = .ok uids) :
    ∀ cid ∈ cids, ∃ c, schema.column? cid = some c ∧ c.uniqueId ∈ uids := by
  intro cid hcid
  obtain ⟨uid, huid, hok⟩ := exists_of_mapM h cid hcid
  rw [getElem?_tableIds] at hok
  cases hc : schema.column? cid with
  | none => simp [hc] at hok
  | some c =>
    obtain rfl : c.uniqueId = uid := by simpa [hc] using hok
    exact ⟨c, rfl, huid⟩

/-- Columns of the table resolve. -/
theorem exists_resolve {schema : TabletSchema} {cids : List ColumnId}
    (h : ∀ cid ∈ cids, (schema.column? cid).isSome) :
    ∃ uids, resolve (schema.columns.map (·.uniqueId)) cids = .ok uids := by
  refine exists_mapM fun cid hcid => ?_
  obtain ⟨c, hc⟩ := Option.isSome_iff_exists.mp (h cid hcid)
  exact ⟨c.uniqueId, by rw [getElem?_tableIds, hc]; rfl⟩

/-- A mapping is built exactly for columns of the table. -/
theorem of_build (h : build s.schema used bloom s.header = .ok m) :
    m.Of s used ∧ (∀ cid ∈ used, (s.schema.column? cid).isSome)
      ∧ ∀ cid ∈ bloom, (s.schema.column? cid).isSome := by
  simp only [build, bind, Except.bind, pure, Except.pure] at h
  rcases hused : resolve (s.schema.columns.map (·.uniqueId)) used with e | projected
  · simp [hused] at h
  rcases hbloom : resolve (s.schema.columns.map (·.uniqueId)) bloom with e | bloomed
  · simp [hused, hbloom] at h
  · obtain rfl : (⟨_, s.header.columns, projected, bloomed⟩ : ColumnMapping) = m := by
      simpa [hused, hbloom] using h
    refine ⟨⟨rfl, by rw [s.header_eq, segmentHeader], fun cid hcid c hc => ?_⟩, fun cid hcid => ?_,
      fun cid hcid => ?_⟩
    · obtain ⟨d, hd, hmem⟩ := column_of_resolve hused cid hcid
      rwa [Option.some.inj (hc.symm.trans hd)]
    · obtain ⟨d, hd, -⟩ := column_of_resolve hused cid hcid
      rw [hd]
      rfl
    · obtain ⟨d, hd, -⟩ := column_of_resolve hbloom cid hcid
      rw [hd]
      rfl

theorem exists_build (hused : ∀ cid ∈ used, (s.schema.column? cid).isSome)
    (hbloom : ∀ cid ∈ bloom, (s.schema.column? cid).isSome) :
    ∃ m, build s.schema used bloom s.header = .ok m := by
  obtain ⟨projected, hprojected⟩ := exists_resolve hused
  obtain ⟨bloomed, hbloomed⟩ := exists_resolve hbloom
  refine ⟨⟨s.schema.columns.map (·.uniqueId), s.header.columns, projected, bloomed⟩, ?_⟩
  simp only [build, hprojected, hbloomed, bind, Except.bind, pure, Except.pure]

/-! ### Answers -/

/-- Where ids are distinct, a column is found by its id. -/
theorem tableColumn?_of_tableIds {schema : TabletSchema} (h : m.tableIds = schema.columns.map (·.uniqueId))
    (hids : (schema.columns.map (·.uniqueId)).Nodup) {cid : ColumnId} {c : Column}
    (hc : schema.column? cid = some c) : m.tableColumn? c.uniqueId = some cid := by
  have hid : (schema.columns.map (·.uniqueId))[cid.toNat]? = some c.uniqueId := by
    rw [getElem?_tableIds, hc]
    rfl
  rw [tableColumn?, h, lastIndex?_eq hids hid, Option.map_some, UInt32.ofNat_toNat]

namespace Of

theorem uniqueId?_eq (h : m.Of s used) (cid : ColumnId) :
    m.uniqueId? cid = (s.schema.column? cid).map (·.uniqueId) := by
  rw [uniqueId?, h.tableIds, getElem?_tableIds]

theorem isStored_iff (h : m.Of s used) {uid : UniqueId} :
    m.isStored uid = true ↔ ∃ (j : Nat) (c : Column), s.cols[j]? = some c ∧ c.uniqueId = uid := by
  rw [isStored, h.stored, List.any_map, List.any_eq_true]
  constructor
  · rintro ⟨c, hc, huid⟩
    obtain ⟨j, hj⟩ := List.mem_iff_getElem?.mp hc
    exact ⟨j, c, hj, of_decide_eq_true huid⟩
  · rintro ⟨j, c, hj, huid⟩
    exact ⟨c, List.mem_of_getElem? hj, decide_eq_true huid⟩

/-- The stored columns of the table are those that were written. -/
theorem storedId?_eq_some (h : m.Of s used) {cid : ColumnId} {uid : UniqueId} :
    m.storedId? cid = some uid ↔ ∃ (j : Nat) (c : Column), s.cids[j]? = some cid
      ∧ s.cols[j]? = some c ∧ c.uniqueId = uid := by
  rw [storedId?, Option.filter_eq_some_iff, h.uniqueId?_eq, Option.map_eq_some_iff, h.isStored_iff]
  constructor
  · rintro ⟨⟨c, hc, rfl⟩, j, d, hd, huid⟩
    obtain ⟨cid', hcid', hd'⟩ := WrittenSegment.getElem?_cols.mp hd
    obtain rfl := TabletSchema.column?_inj s.distinctIds hd' hc huid
    exact ⟨j, d, hcid', hd, huid⟩
  · rintro ⟨j, c, hcid, hc, rfl⟩
    obtain ⟨cid', hcid', hc'⟩ := WrittenSegment.getElem?_cols.mp hc
    obtain rfl : cid = cid' := Option.some.inj (hcid.symm.trans hcid')
    exact ⟨⟨c, hc', rfl⟩, j, c, hc, rfl⟩

/-- A stored column is one of the table. -/
theorem column?_of_storedId? (h : m.Of s used) {cid : ColumnId} {uid : UniqueId}
    (huid : m.storedId? cid = some uid) : ∃ c, s.schema.column? cid = some c ∧ c.uniqueId = uid := by
  obtain ⟨j, c, hcid, hc, rfl⟩ := h.storedId?_eq_some.mp huid
  obtain ⟨cid', hcid', hcolumn⟩ := WrittenSegment.getElem?_cols.mp hc
  obtain rfl : cid = cid' := Option.some.inj (hcid.symm.trans hcid')
  exact ⟨c, hcolumn, rfl⟩

theorem tableColumn?_eq (h : m.Of s used) {cid : ColumnId} {c : Column}
    (hc : s.schema.column? cid = some c) : m.tableColumn? c.uniqueId = some cid :=
  tableColumn?_of_tableIds h.tableIds s.distinctIds hc

end Of

/-- Every stored column has the one layout there is. -/
theorem encoding?_eq {uid : UniqueId} (hstored : m.isStored uid = true) :
    m.encoding? uid = some .plain := by
  obtain ⟨c, hc, huid⟩ := List.any_eq_true.mp hstored
  rw [encoding?, List.findRev?_eq_find?_reverse]
  cases hfind : m.stored.reverse.find? fun c => c.uniqueId = uid with
  | none => exact absurd huid (List.find?_eq_none.mp hfind c (List.mem_reverse.mpr hc))
  | some d => cases hd : d.encoding; rw [Option.map_some, hd]

end ColumnMapping

end SegmentStore
