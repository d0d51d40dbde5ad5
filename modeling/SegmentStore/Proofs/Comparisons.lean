import SegmentStore.Proofs.BloomPruning
import SegmentStore.Proofs.Confinement
import SegmentStore.Proofs.Guarded
import SegmentStore.Proofs.Numbering

/-!
# Values are compared with values of their own type

The order of values compares any two of them, also where their types differ, and bounds that are compared with literals
of another type would prune blocks at random. Here pruning is given once more with the types of all values checked
before they are compared.

* `TabletSchema.comparing` is that check, `PruneRequest.typedPrune` is pruning with checks.
* `PruneRequest.Comparable` says that literals and bounds are of the types of their columns, and
  `PruneRequest.typedPrune_eq` that pruning then passes all checks.
* `ZoneMap.accepts_of_decode` and `Conditions.fits_of_checkTypes` are what decoding and opening have made sure of, the
  one by the stable id of a column and the other by its position. `IndexRequest.load_typed` is the step from the
  streams to the indexes, `SegmentReader.Comparable` is what all calls keep.
* `Session.typedPrune_eq`: whatever was called before, pruning compares no values of different types.
-/

namespace SegmentStore

/-! ### Checks -/

/-- Values that were to be compared for a column, although not all of them are null or of its type. -/
structure Mismatch where
  column : ColumnId
  values : List Value
  deriving DecidableEq

/-- The result of a function whose comparisons are checked. -/
abbrev Comparing (α : Type) := Except Mismatch α

/-- What comes of comparing values for a column, if they are null or of its type. -/
def TabletSchema.comparing {α : Type} (schema : TabletSchema) (cid : ColumnId) (values : List Value) (result : α) :
    Comparing α :=
  if (schema.column? cid).any fun c => values.all c.type.accepts then pure result else throw ⟨cid, values⟩

theorem TabletSchema.comparing_eq {α : Type} {schema : TabletSchema} {cid : ColumnId} {c : Column}
    (hc : schema.column? cid = some c) {values : List Value} (h : ∀ v ∈ values, c.type.accepts v = true)
    (result : α) : schema.comparing cid values result = pure result := by
  rw [comparing, hc, Option.any_some, if_pos (List.all_eq_true.mpr h)]

example : (TabletSchema.mk [⟨10, "key", .int32, true, false, .none, none⟩]).comparing 0 [.int32 1, .int64 1] true
    = throw ⟨0, [.int32 1, .int64 1]⟩ := rfl

/-- The values that a condition compares with. -/
def ColumnCondition.literals (c : ColumnCondition) : List Value := c.predicates.flatMap (·.literals)

/-- The bounds that a statistic offers for comparison. -/
def Statistic.bounds (s : Statistic) : List Value := [s.min, s.max]

/-- A loop over values that passes all its checks. -/
theorem mapM_eq_pure {ε α β : Type} {f : α → Except ε β} {g : α → β} {xs : List α}
    (h : ∀ x ∈ xs, f x = pure (g x)) : xs.mapM f = pure (xs.map g) := by
  induction xs with
  | nil => rfl
  | cons x xs ih =>
    rw [List.mapM_cons, h x List.mem_cons_self, pure_bind, ih fun y hy => h y (List.mem_cons_of_mem x hy), pure_bind]
    rfl

/-! ### Pruning -/

namespace PruneRequest

def typedColumnExtent? (q : PruneRequest) (block : Nat) (cid : ColumnId) (cond : ColumnCondition) :
    Comparing (Option MatchExtent) :=
  match q.mapping.storedId? cid with
  | none => pure none
  | some uid =>
    match q.indexes.zoneMap? uid with
    | some z => do
      let s := (z.entries[block]?.getD default).statistic
      let extent ← q.schema.comparing cid (cond.literals ++ s.bounds) (cond.extent s)
      return some extent
    | none => pure (some .some)

def typedDeleteExtent (q : PruneRequest) (d : DeleteCondition) (block : Nat) : Comparing MatchExtent :=
  if d.conditions.isEmpty then pure .none
  else do
    let extents ← d.conditions.entries.mapM fun e => q.typedColumnExtent? block e.1 e.2
    return .all (extents.filterMap id)

def typedDeleteBlock (q : PruneRequest) (d : DeleteCondition) (s : PruneState) (block : Nat) :
    Comparing PruneState :=
  let before := s.blocks.get block
  if before = .excluded then pure s
  else do
    let after := before.applyDelete (← q.typedDeleteExtent d block)
    return { s with
      blocks := s.blocks.set block after
      deleted := s.deleted + if after = .excluded then q.blockRows block else 0 }

def typedDeletePhase (q : PruneRequest) (first last : Nat) (s : PruneState) : Comparing PruneState :=
  q.activeDeletes.foldlM (fun s d => (range first last).foldlM (q.typedDeleteBlock d) s) s

def typedFilterBlock (q : PruneRequest) (mayMatch : Nat → Comparing Bool) (s : PruneState) (block : Nat) :
    Comparing PruneState := do
  if s.blocks.get block = .excluded then return s
  else if ← mayMatch block then return s
  else
    return { s with
      blocks := s.blocks.set block .excluded
      ruledOut := s.ruledOut + q.blockRows block }

def typedZoneTest? (q : PruneRequest) (cid : ColumnId) (cond : ColumnCondition) : Option (Nat → Comparing Bool) :=
  if q.prunable cid then
    ((q.mapping.storedId? cid).bind q.indexes.zoneMap?).map fun z block =>
      let s := (z.entries[block]?.getD default).statistic
      q.schema.comparing cid (cond.literals ++ s.bounds) (cond.mayMatch s)
  else none

def typedBloomTest? (q : PruneRequest) (conditions : Conditions) (cid : ColumnId) :
    Option (Nat → Comparing Bool) :=
  if q.prunable cid then
    (conditions.get? cid).bind fun cond =>
      ((q.mapping.storedId? cid).bind q.indexes.bloom?).map fun b block =>
        q.schema.comparing cid cond.literals
          (cond.mayMatchBloom (b.entries[block]?.elim (fun _ => true) BloomFilter.test))
  else none

def typedFilterPhase (q : PruneRequest) (tests : List (Nat → Comparing Bool)) (first last : Nat) (s : PruneState) :
    Comparing PruneState :=
  tests.foldlM (fun s test => (range first last).foldlM (q.typedFilterBlock test) s) s

def typedConditionPhases (q : PruneRequest) (conditions : Conditions) (first last : Nat) (s : PruneState) :
    Comparing PruneState := do
  let zoneTests := conditions.entries.filterMap fun e => q.typedZoneTest? e.1 e.2
  let s ← q.typedFilterPhase zoneTests first last s
  if s.blocks.remaining < q.minFilterBlocks then return s
  else q.typedFilterPhase (q.bloomColumns.filterMap (q.typedBloomTest? conditions)) first last s

def typedPrune (q : PruneRequest) (first last : Nat) : Comparing (Except StorageError PruneState) :=
  let count := q.indexes.blockCount
  if last < first || count ≤ last then return .error (.argument (.blockRange first last count))
  else do
    let s ← q.typedDeletePhase first last ⟨.make count first last, 0, 0⟩
    match q.conditions? with
    | none => return .ok s
    | some conditions =>
      if conditions.isEmpty then return .ok s
      else return .ok (← q.typedConditionPhases conditions first last s)

end PruneRequest

/-- The literals of each condition are null or of the type of its column, if the table has the column. -/
def Conditions.Fits (c : Conditions) (schema : TabletSchema) : Prop :=
  ∀ e ∈ c.entries, ∀ column, schema.column? e.1 = some column →
    ∀ v ∈ e.2.literals, column.type.accepts v = true

/-- The bounds of each entry are null or of the type. -/
def Loaded.OfType (z : Loaded ZoneMapEntry) (type : FieldType) : Prop :=
  ∀ e ∈ z.entries, ∀ v ∈ e.statistic.bounds, type.accepts v = true

/-- Bounds and literals are null or of the types of their columns. -/
structure PruneRequest.Comparable (q : PruneRequest) : Prop where
  zoneMaps : ∀ cid uid, q.mapping.storedId? cid = some uid →
    ∃ c, q.schema.column? cid = some c ∧ ∀ z, q.indexes.zoneMap? uid = some z → z.OfType c.type
  conditions : ∀ c, q.conditions? = some c → c.Fits q.schema
  deletes : ∀ h, q.deletes? = some h → ∀ d ∈ h, d.conditions.Fits q.schema

theorem FieldType.accepts_null (type : FieldType) : type.accepts .null = true := by
  cases type <;> rfl

/-- The entry of a block has bounds of the type, also where there is none. -/
theorem Loaded.OfType.bounds {z : Loaded ZoneMapEntry} {type : FieldType} (h : z.OfType type) (block : Nat) :
    ∀ v ∈ (z.entries[block]?.getD default).statistic.bounds, type.accepts v = true := by
  cases hentry : z.entries[block]? with
  | none =>
    rw [Option.getD_none]
    exact List.forall_mem_cons.mpr ⟨type.accepts_null, List.forall_mem_singleton.mpr type.accepts_null⟩
  | some e => exact h e (Array.mem_of_getElem? hentry)

namespace PruneRequest

variable {q : PruneRequest} {cid : ColumnId} {cond : ColumnCondition}

/-- The literals of a condition and the bounds that it is held against. -/
theorem Comparable.operands (hq : q.Comparable) {uid : UniqueId} (huid : q.mapping.storedId? cid = some uid)
    {c : Conditions} (hfits : c.Fits q.schema) (hmem : (cid, cond) ∈ c.entries) :
    ∃ column, q.schema.column? cid = some column
      ∧ (∀ v ∈ cond.literals, column.type.accepts v = true)
      ∧ ∀ (z : Loaded ZoneMapEntry) (block : Nat), q.indexes.zoneMap? uid = some z →
        ∀ v ∈ cond.literals ++ (z.entries[block]?.getD default).statistic.bounds, column.type.accepts v = true := by
  obtain ⟨column, hcolumn, hzones⟩ := hq.zoneMaps cid uid huid
  have hliterals := hfits (cid, cond) hmem column hcolumn
  exact ⟨column, hcolumn, hliterals, fun z block hz =>
    List.forall_mem_append.mpr ⟨hliterals, (hzones z hz).bounds block⟩⟩

theorem typedColumnExtent?_eq (hq : q.Comparable) {c : Conditions} (hfits : c.Fits q.schema)
    (hmem : (cid, cond) ∈ c.entries) (block : Nat) :
    q.typedColumnExtent? block cid cond = pure (q.columnExtent? block cid cond) := by
  rw [typedColumnExtent?, columnExtent?]
  cases huid : q.mapping.storedId? cid with
  | none => rfl
  | some uid =>
    obtain ⟨column, hcolumn, -, hvalues⟩ := hq.operands huid hfits hmem
    rw [Option.map_some]
    cases hz : q.indexes.zoneMap? uid with
    | none => simp only [hz]
    | some z => simp only [hz, TabletSchema.comparing_eq hcolumn (hvalues z block hz), pure_bind]

theorem typedDeleteExtent_eq (hq : q.Comparable) {d : DeleteCondition} (hfits : d.conditions.Fits q.schema)
    (block : Nat) : q.typedDeleteExtent d block = pure (q.deleteExtent d block) := by
  rw [typedDeleteExtent, deleteExtent]
  split
  · rfl
  · rw [mapM_eq_pure fun e he => typedColumnExtent?_eq hq hfits he block, pure_bind, List.filterMap_map]
    rfl

theorem typedDeleteBlock_eq (hq : q.Comparable) {d : DeleteCondition} (hfits : d.conditions.Fits q.schema)
    (s : PruneState) (block : Nat) : q.typedDeleteBlock d s block = pure (q.deleteBlock d s block) := by
  rw [typedDeleteBlock, deleteBlock]
  dsimp only
  split
  · rfl
  · rw [typedDeleteExtent_eq hq hfits, pure_bind]

/-- The deletes that are looked at are among those that were registered. -/
theorem fits_of_active (hq : q.Comparable) {d : DeleteCondition} (hd : d ∈ q.activeDeletes) :
    d.conditions.Fits q.schema := by
  rw [activeDeletes] at hd
  split at hd
  · cases hd
  · rename_i h hdeletes
    split at hd
    · cases hd
    · exact hq.deletes h hdeletes d (List.mem_filter.mp hd).1

theorem typedDeletePhase_eq (hq : q.Comparable) (first last : Nat) (s : PruneState) :
    q.typedDeletePhase first last s = pure (q.deletePhase first last s) := by
  refine (foldlM_eq_pure (P := fun _ => True) (fun s _ d hd => ⟨?_, trivial⟩) trivial).1
  have hblock : q.typedDeleteBlock d = fun s block => pure (q.deleteBlock d s block) :=
    funext fun s => funext fun block => typedDeleteBlock_eq hq (fits_of_active hq hd) s block
  rw [hblock, List.foldlM_pure]

/-- A test with checks that it passes. -/
def passing (test : Nat → Bool) : Nat → Comparing Bool := fun block => pure (test block)

theorem typedFilterBlock_eq (q : PruneRequest) (test : Nat → Bool) (s : PruneState) (block : Nat) :
    q.typedFilterBlock (passing test) s block = pure (q.filterBlock test s block) := by
  rw [typedFilterBlock, filterBlock, passing, pure_bind]
  by_cases hbefore : s.blocks.get block = .excluded
  · simp only [hbefore, if_true, decide_true, Bool.true_or]
  · cases test block with
    | true => simp only [hbefore, if_false, if_true, Bool.or_true]
    | false => simp only [hbefore, if_false, decide_false, Bool.or_self, Bool.false_eq_true]

theorem typedFilterPhase_eq (q : PruneRequest) (tests : List (Nat → Bool)) (first last : Nat) (s : PruneState) :
    q.typedFilterPhase (tests.map passing) first last s = pure (q.filterPhase tests first last s) := by
  have hblock : ∀ test, q.typedFilterBlock (passing test) = fun s block => pure (q.filterBlock test s block) :=
    fun test => funext fun s => funext fun block => typedFilterBlock_eq q test s block
  rw [typedFilterPhase, filterPhase, List.foldlM_map]
  simp only [hblock, List.foldlM_pure]

theorem typedZoneTests_eq (hq : q.Comparable) {c : Conditions} (hfits : c.Fits q.schema) :
    (c.entries.filterMap fun e => q.typedZoneTest? e.1 e.2) = (q.zoneTests c).map passing := by
  rw [zoneTests, List.map_filterMap]
  refine List.filterMap_congr fun e he => ?_
  rw [typedZoneTest?, zoneTest?]
  split
  · cases huid : q.mapping.storedId? e.1 with
    | none => rfl
    | some uid =>
      obtain ⟨column, hcolumn, -, hvalues⟩ := hq.operands huid hfits he
      rw [Option.bind_some]
      cases hz : q.indexes.zoneMap? uid with
      | none => rfl
      | some z =>
        refine congrArg some (funext fun block => ?_)
        exact TabletSchema.comparing_eq hcolumn (hvalues z block hz) _
  · rfl

theorem typedBloomTests_eq (hq : q.Comparable) {c : Conditions} (hfits : c.Fits q.schema) :
    q.bloomColumns.filterMap (q.typedBloomTest? c) = (q.bloomTests c).map passing := by
  rw [bloomTests, List.map_filterMap]
  refine List.filterMap_congr fun cid _ => ?_
  rw [typedBloomTest?, bloomTest?]
  split
  · cases hcond : c.get? cid with
    | none => rfl
    | some cond =>
      rw [Option.bind_some, Option.bind_some]
      cases huid : q.mapping.storedId? cid with
      | none => rfl
      | some uid =>
        obtain ⟨column, hcolumn, hliterals, -⟩ := hq.operands huid hfits (Conditions.mem_entries_of_get? hcond)
        rw [Option.bind_some]
        cases q.indexes.bloom? uid with
        | none => rfl
        | some b => exact congrArg some (funext fun block => TabletSchema.comparing_eq hcolumn hliterals _)
  · rfl

theorem typedConditionPhases_eq (hq : q.Comparable) {c : Conditions} (hfits : c.Fits q.schema) (first last : Nat)
    (s : PruneState) : q.typedConditionPhases c first last s = pure (q.conditionPhases c first last s) := by
  rw [typedConditionPhases, conditionPhases]
  dsimp only
  rw [typedZoneTests_eq hq hfits, typedFilterPhase_eq, pure_bind]
  change (if (q.filterPhase (q.zoneTests c) first last s).blocks.remaining < q.minFilterBlocks then _ else _)
    = pure (if (q.filterPhase (q.zoneTests c) first last s).blocks.remaining < q.minFilterBlocks then _ else _)
  split
  · rfl
  · rw [typedBloomTests_eq hq hfits, typedFilterPhase_eq]
    rfl

/-- Pruning over comparable values passes all checks, also where it refuses the range. -/
theorem typedPrune_eq_prune (hq : q.Comparable) (first last : Nat) :
    q.typedPrune first last = pure (q.prune first last) := by
  rw [typedPrune, prune]
  dsimp only
  split
  · rfl
  · rw [typedDeletePhase_eq hq, pure_bind]
    cases hconditions : q.conditions? with
    | none => rfl
    | some c =>
      dsimp only
      split
      · rfl
      · rw [typedConditionPhases_eq hq (hq.conditions c hconditions), pure_bind]

end PruneRequest

/-! ### What decoding makes sure of -/

/-- Bounds of another type are refused, whoever wrote the bytes. -/
theorem ZoneMap.accepts_of_decode {type : FieldType} {bs : Bytes} {entries : List ZoneMapEntry}
    (h : decode type bs = .ok entries) : ∀ e ∈ entries, ∀ v ∈ e.statistic.bounds, type.accepts v = true := by
  intro e he
  have hwritable := (writable_of_decode h).2 e he
  exact List.forall_mem_cons.mpr ⟨hwritable.acceptsMin, List.forall_mem_singleton.mpr hwritable.acceptsMax⟩

/-- Literals of another type are refused. -/
theorem Conditions.fits_of_checkTypes {c : Conditions} {schema : TabletSchema} (h : c.checkTypes schema = .ok ()) :
    c.Fits schema := by
  rw [checkTypes] at h
  dsimp only at h
  split at h
  · cases h
  rename_i hfault
  intro e he column hcolumn v hv
  obtain ⟨p, hp, hv⟩ := List.mem_flatMap.mp hv
  have hcolumnFault := List.findSome?_eq_none_iff.mp hfault e he
  rw [hcolumn, Option.bind_some, literalFault?] at hcolumnFault
  have hpredicate := List.findSome?_eq_none_iff.mp hcolumnFault p hp
  rw [Option.map_eq_none_iff, List.find?_eq_none] at hpredicate
  simpa using hpredicate v hv

/-! ### What loading keeps -/

namespace IndexRequest

variable {q : IndexRequest} {l : LocatedStream} {b : IndexBuffer} {set set' : IndexSet}

/-- Each zone map has bounds of the type that the table gives to its column. -/
def Typed (q : IndexRequest) (set : IndexSet) : Prop :=
  ∀ e ∈ set.zoneMaps, ∃ type, q.typeOf e.1 = .ok type ∧ e.2.OfType type

theorem add_typed (hset : q.Typed set) (h : q.add l b set = .ok set') : q.Typed set' := by
  rcases add_eq_ok h with ⟨-, type, entries, htype, hentries, -, rfl⟩ | ⟨-, entries, -, rfl⟩
  · refine IndexSet.forall_mem_put ⟨type, htype, fun e he => ?_⟩ hset
    exact ZoneMap.accepts_of_decode hentries e (List.mem_toArray.mp he)
  · exact hset

/-- Whatever the file and the cache hold, a zone map that is loaded has bounds of the type of its column. -/
theorem load_typed {cache : IndexCache} (h : (q.load cache).1 = .ok set) : q.Typed set :=
  load_keeps add_typed (fun _ he => absurd he List.not_mem_nil) h

end IndexRequest

namespace SegmentReader

variable {r r' : SegmentReader} {g : SegmentGroup} {schema : TabletSchema} {context : ReadContext}

theorem forM_eq_ok {ε α : Type} {f : α → Except ε Unit} {xs : List α} (h : xs.forM f = .ok ()) :
    ∀ x ∈ xs, f x = .ok () := by
  induction xs with
  | nil => exact List.forall_mem_nil _
  | cons x xs ih =>
    obtain ⟨⟨⟩, hx, h⟩ := bind_eq_ok.mp h
    exact List.forall_mem_cons.mpr ⟨hx, ih h⟩

/-- The literals of all conditions were held against the types of their columns. -/
theorem fits_of_checkContext (h : checkContext context schema = .ok ()) :
    (∀ c, context.conditions? = some c → c.Fits schema)
      ∧ ∀ ds, context.deletes? = some ds → ∀ d ∈ ds, d.conditions.Fits schema := by
  rw [checkContext] at h
  dsimp only at h
  have hchecked : (∀ c, context.conditions? = some c → c.Fits schema)
      ∧ ((context.deletes?.getD []).forM fun d => d.conditions.checkTypes schema) = .ok () := by
    cases hconditions : context.conditions? with
    | none =>
      rw [hconditions] at h
      exact ⟨fun c hc => absurd hc.symm (Option.some_ne_none c), h⟩
    | some c =>
      rw [hconditions] at h
      obtain ⟨⟨⟩, hc, h⟩ := bind_eq_ok.mp h
      exact ⟨fun c' hc' => Option.some.inj hc' ▸ Conditions.fits_of_checkTypes hc, h⟩
  obtain ⟨hconditions, hdeletes⟩ := hchecked
  refine ⟨hconditions, fun ds hds d hd => ?_⟩
  rw [hds, Option.getD_some] at hdeletes
  exact Conditions.fits_of_checkTypes (forM_eq_ok hdeletes d hd)

/-- Where a column is looked up by its position or by its stable id, its type is the same, since ids are distinct. -/
theorem OpenedBy.comparable {o : OpenSegment} {q : IndexRequest} {cache : IndexCache}
    (h : OpenedBy o q cache schema context) (hids : (schema.columns.map (·.uniqueId)).Nodup)
    (hr : r.context = context) (hg : g.schema = schema) : (r.pruneRequest o g).Comparable := by
  obtain ⟨hconditions, hdeletes⟩ := fits_of_checkContext h.checked
  subst hr hg
  refine ⟨fun cid uid huid => ?_, hconditions, hdeletes⟩
  obtain ⟨hid, -⟩ := Option.filter_eq_some_iff.mp huid
  have hmapped := ColumnMapping.uniqueId?_of_build h.mapped cid
  obtain ⟨c, hc, rfl⟩ := Option.map_eq_some_iff.mp (hmapped.symm.trans hid)
  refine ⟨c, hc, fun z hz => ?_⟩
  obtain ⟨type, htype, hentries⟩ := IndexRequest.load_typed h.loaded _ (IndexSet.mem_of_zoneMap? hz)
  have htable := ColumnMapping.tableColumn?_of_tableIds (ColumnMapping.tableIds_of_build h.mapped) hids hc
  rw [IndexRequest.typeOf, h.mapping, h.table, htable, Option.bind_some, hc] at htype
  obtain rfl := Except.ok.inj htype
  exact hentries

/-! ### What calls keep -/

/-- Whatever range the reader is sent to, what is compared is of one type. -/
def Comparable (r : SegmentReader) (schema : TabletSchema) : Prop :=
  ∀ o g, r.segment? = some o → g.schema = schema → (r.pruneRequest o g).Comparable

theorem SameSource.comparable (hsame : r'.SameSource r) (h : r.Comparable schema) : r'.Comparable schema := by
  intro o g ho hg
  have hrequest : r'.pruneRequest o g = r.pruneRequest o g := by
    rw [pruneRequest, pruneRequest, hsame.context]
  rw [hrequest]
  exact h o g (hsame.segment ▸ ho) hg

theorem Comparable.init (h : r.Comparable g.schema) (hids : (g.schema.columns.map (·.uniqueId)).Nodup)
    (fillCache : Bool) (cache : IndexCache) (stats : ScanStatistics) :
    (r.init fillCache g cache stats).reader.Comparable g.schema := by
  rcases init_cases r fillCache g cache stats with ⟨-, hsame⟩ | ⟨hresult, -⟩
  · rwa [hsame]
  · obtain ⟨o, q, hopened, hreader, -⟩ := init_ok hresult
    rw [hreader]
    intro o' g' ho' hg'
    obtain rfl := Option.some.inj ho'
    exact hopened.comparable hids rfl hg'

namespace Session

/-- No call makes values of different types comparable. -/
theorem comparable_call {h : Session} (hids : (schema.columns.map (·.uniqueId)).Nodup)
    (hcomparable : h.reader.Comparable schema) (c : Call) (hc : c.group.schema = schema) :
    (h.call c).reader.Comparable schema := by
  cases c with
  | init fillCache g cache stats =>
    obtain rfl : g.schema = schema := hc
    exact hcomparable.init hids fillCache cache stats
  | seek first last unfiltered g stats =>
    exact (seekToBlock_sameSource h.reader first last unfiltered g stats).comparable hcomparable
  | get batch g stats => exact (getBlock_sameSource h.reader batch g stats).comparable hcomparable

theorem comparable_run (hids : (schema.columns.map (·.uniqueId)).Nodup) (segmentId : UInt32)
    (context : ReadContext) {calls : List Call} (hcalls : ∀ c ∈ calls, c.group.schema = schema) :
    (run segmentId context calls).reader.Comparable schema := by
  have hrun : ∀ h : Session, h.reader.Comparable schema → (calls.foldl call h).reader.Comparable schema := by
    induction calls with
    | nil => exact fun h hcomparable => hcomparable
    | cons c calls ih =>
      obtain ⟨hc, hcalls⟩ := List.forall_mem_cons.mp hcalls
      exact fun h hcomparable => ih hcalls (h.call c) (comparable_call hids hcomparable c hc)
  exact hrun _ fun o g ho _ => absurd ho.symm (Option.some_ne_none o)

/-- Whatever the files and the caches hold and whatever calls were made, a reader whose segment is open compares, when
it prunes a range, only values that are null or of the type of the column that they are compared for. -/
theorem typedPrune_eq (hids : (schema.columns.map (·.uniqueId)).Nodup) (segmentId : UInt32) (context : ReadContext)
    {calls : List Call} (hcalls : ∀ c ∈ calls, c.group.schema = schema) {o : OpenSegment}
    (ho : (run segmentId context calls).reader.segment? = some o) (hg : g.schema = schema) (first last : Nat) :
    ((run segmentId context calls).reader.pruneRequest o g).typedPrune first last
      = .ok (((run segmentId context calls).reader.pruneRequest o g).prune first last) :=
  PruneRequest.typedPrune_eq_prune (comparable_run hids segmentId context hcalls o g ho hg) first last

/-- The keys and notes that are wanted are compared with keys and notes. -/
theorem typedPrune_eq_sample :
    let h := run 0 filteringContext [.init true (.single .sample) .empty .zero]
    ∃ o, h.reader.segment? = some o
      ∧ (h.reader.pruneRequest o (.single .sample)).typedPrune 0 1
        = .ok ((h.reader.pruneRequest o (.single .sample)).prune 0 1) := by
  have hcache : (make 0 filteringContext).context.cached = true →
      IndexCache.empty.Agrees ((SegmentGroup.single .sample).segmentPath 0) .sample := nofun
  have hr : Answerable (make 0 filteringContext).context WrittenSegment.sample.schema :=
    ⟨rfl, List.all_eq_true.mp rfl, List.all_eq_true.mp rfl⟩
  have hresult := (init_result_iff (SegmentGroup.hosts_single .sample) WrittenSegment.fits_sample
    WrittenSegment.lossless_sample hcache true .zero).mpr hr
  obtain ⟨o, hopened, -⟩ := init_opened (SegmentGroup.hosts_single .sample) WrittenSegment.fits_sample
    WrittenSegment.lossless_sample hcache hresult
  have hschema : (SegmentGroup.single .sample).schema = WrittenSegment.sample.schema := rfl
  have hcalls : ∀ c ∈ [Call.init true (.single .sample) .empty .zero],
      c.group.schema = WrittenSegment.sample.schema := List.forall_mem_singleton.mpr hschema
  have hopen : (run 0 filteringContext [.init true (.single .sample) .empty .zero]).reader.segment? = some o := by
    rw [run_init]
    exact hopened.segment
  exact ⟨o, hopen, typedPrune_eq WrittenSegment.sample.distinctIds 0 filteringContext hcalls hopen hschema 0 1⟩

end Session

end SegmentReader

end SegmentStore
