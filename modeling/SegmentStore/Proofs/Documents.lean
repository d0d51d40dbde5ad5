import SegmentStore.Proofs.Rendering
import SegmentStore.Prune.Json

/-!
# Schemas and conditions as texts

What is written as text is read back from it, as long as it has no double: schemas with their defaults, and conditions
with any predicates. A double need not come back as it was, and one that is not finite is written as null.

* `Json.Restores` says of a reader that it gives a value back from the tree that the value is written as, a tree that is
  read back from its text itself.
* There is one lemma for each thing that is written, from numbers (`Json.restores_u32`) and texts (`Json.restores_text`)
  up to `TabletSchema.restores` and `Conditions.restores`.
* `decodeJson_encodeJson` puts them together.
-/

namespace SegmentStore

namespace Json

variable {α : Type} {f : Json → Option α} {x : α} {j : Json}

/-- A reader gives back a value from a tree, and the tree is read back from its text. -/
structure Restores (f : Json → Option α) (j : Json) (x : α) : Prop where
  legible : j.Legible
  read : f j = some x

theorem Restores.decodeText {l : Layout} (hl : l.Blank) (h : Restores f j x) : decodeText f (j.render l) = .ok x := by
  rw [SegmentStore.decodeText, parse?_render hl h.legible, Option.bind_some, h.read]

/-! ### Plain values -/

theorem restores_text (s : String) : Restores text? (ofText s) s :=
  ⟨.string (Escape.quotable_encode s), Escape.decode?_encode s⟩

theorem restores_bool (b : Bool) : Restores bool? (.bool b) b := ⟨.bool b, rfl⟩

theorem legible_ofInt (n : Int) : (ofInt n).Legible := .number (Number.legible_ofInt n)

theorem intIn?_ofInt {low high n : Int} (hlow : low ≤ n) (hhigh : n ≤ high) :
    (ofInt n).intIn? low high = some n := by
  show (Number.ofInt n).int?.filter _ = some n
  rw [Number.int?_ofInt, Option.filter_some, if_pos (by simp [hlow, hhigh])]

theorem restores_u32 (n : UInt32) : Restores u32? (ofNat n.toNat) n := by
  refine ⟨legible_ofInt _, ?_⟩
  have hlt := n.toNat_lt
  rw [u32?, ofNat, intIn?_ofInt (by omega) (by omega)]
  simp

theorem restores_i32 (n : Int32) : Restores i32? (ofInt n.toInt) n := by
  refine ⟨legible_ofInt _, ?_⟩
  have hlow := n.le_toInt
  have hhigh := n.toInt_lt
  rw [i32?, intIn?_ofInt (by omega) (by omega)]
  simp

theorem restores_i64 (n : Int64) : Restores i64? (ofInt n.toInt) n := by
  refine ⟨legible_ofInt _, ?_⟩
  have hlow := n.le_toInt
  have hhigh := n.toInt_lt
  rw [i64?, intIn?_ofInt (by omega) (by omega)]
  simp

/-! ### Lists, records and variants -/

theorem mapM_map_of_forall {β : Type} {g : β → Json} {f : Json → Option β} {xs : List β}
    (h : ∀ x ∈ xs, f (g x) = some x) : (xs.map g).mapM f = some xs := by
  induction xs with
  | nil => rfl
  | cons x xs ih =>
    obtain ⟨hx, hxs⟩ := List.forall_mem_cons.mp h
    rw [List.map_cons, List.mapM_cons, hx, ih hxs]
    rfl

theorem restores_list {g : α → Json} {xs : List α} (h : ∀ x ∈ xs, Restores f (g x) x) :
    Restores (list? f) (.array (xs.map g)) xs := by
  refine ⟨.array fun j hj => ?_, mapM_map_of_forall fun x hx => (h x hx).read⟩
  obtain ⟨x, hx, rfl⟩ := List.mem_map.mp hj
  exact (h x hx).legible

theorem legible_ofFields {fields : Fields} (h : ∀ e ∈ fields, e.2.Legible) : (ofFields fields).Legible := by
  refine .object (fun m hm => ?_) fun m hm => ?_
  · obtain ⟨e, -, rfl⟩ := List.mem_map.mp hm
    exact Escape.quotable_encode e.1
  · obtain ⟨e, he, rfl⟩ := List.mem_map.mp hm
    exact h e he

/-- The members that a record knows are given back under their names, if no name is given twice. -/
theorem knownMembers?_ofFields {names : List String} {fields : Fields} (hnames : ∀ e ∈ fields, e.1 ∈ names)
    (hnodup : (fields.map Prod.fst).Nodup) :
    knownMembers? names (fields.map fun (name, j) => (Escape.encode name, j)) = some fields := by
  induction fields with
  | nil => rfl
  | cons e fields ih =>
    obtain ⟨hname, hnames⟩ := List.forall_mem_cons.mp hnames
    obtain ⟨hnew, hnodup⟩ := List.nodup_cons.mp hnodup
    have hfresh : fields.lookup e.1 = none := by
      rw [List.lookup_eq_none_iff]
      intro e' he'
      rw [bne_iff_ne]
      exact fun hsame => hnew (hsame ▸ List.mem_map_of_mem he')
    rw [List.map_cons, knownMembers?, Escape.decode?_encode, ih hnames hnodup]
    simp [hname, hfresh]

/-- A record with all its fields is given back. -/
theorem record?_ofFields {names : List String} {fields : Fields} (hnames : fields.map Prod.fst = names)
    (hnodup : names.Nodup) : record? names (ofFields fields) = some fields := by
  subst hnames
  exact knownMembers?_ofFields (fun _ he => List.mem_map_of_mem he) hnodup

theorem variant?_ofText (name : String) : (ofText name).variant? = some (name, none) := by
  rw [ofText, variant?, Escape.decode?_encode]
  rfl

theorem variant?_ofVariant (name : String) (payload : Json) :
    (ofVariant name payload).variant? = some (name, some payload) := by
  show (Escape.decode? (Escape.encode name)).map _ = _
  rw [Escape.decode?_encode]
  rfl

theorem legible_ofVariant (name : String) {payload : Json} (h : payload.Legible) : (ofVariant name payload).Legible :=
  legible_ofFields (List.forall_mem_singleton.mpr h)

/-- A variant without a payload is found by its name. -/
theorem restores_enum {all : List α} {name : α → String} (x : α)
    (hfind : (all.find? fun a => name a = name x) = some x) : Restores (enum? all name) (ofText (name x)) x := by
  refine ⟨(restores_text _).legible, ?_⟩
  rw [enum?, variant?_ofText]
  exact hfind

end Json

open Json (Restores)

/-! ### Values and columns -/

/-- The value is no double. -/
def Value.Floatless (v : Value) : Prop := ∀ x, v ≠ .float64 x

theorem Value.floatless_iff {v : Value} : v.Floatless ↔ v.fieldType? ≠ some .float64 := by
  cases v <;> simp [Floatless, fieldType?]

instance (v : Value) : Decidable v.Floatless := decidable_of_iff _ Value.floatless_iff.symm

theorem Value.restores {v : Value} (hv : v.Floatless) : Restores Value.ofJson? v.toJson v := by
  cases v with
  | null => exact ⟨(Json.restores_text _).legible, by rw [toJson, ofJson?, Json.variant?_ofText]; rfl⟩
  | bool b =>
    refine ⟨Json.legible_ofVariant _ (.bool b), ?_⟩
    rw [toJson, ofJson?, Json.variant?_ofVariant]
    rfl
  | int32 n =>
    refine ⟨Json.legible_ofVariant _ (Json.legible_ofInt _), ?_⟩
    rw [toJson, ofJson?, Json.variant?_ofVariant]
    exact congrArg (Option.map Value.int32) (Json.restores_i32 n).read
  | int64 n =>
    refine ⟨Json.legible_ofVariant _ (Json.legible_ofInt _), ?_⟩
    rw [toJson, ofJson?, Json.variant?_ofVariant]
    exact congrArg (Option.map Value.int64) (Json.restores_i64 n).read
  | float64 x => exact absurd rfl (hv x)
  | string s =>
    refine ⟨Json.legible_ofVariant _ (Json.restores_text s).legible, ?_⟩
    rw [toJson, ofJson?, Json.variant?_ofVariant]
    exact congrArg (Option.map Value.string) (Json.restores_text s).read

/-- A declared default is told from none, even if it is null. -/
theorem restores_default {v? : Option Value} (hv : ∀ v ∈ v?, v.Floatless) :
    Restores (Json.option? Value.ofJson?) ((v?.map Value.toJson).getD .null) v? := by
  cases v? with
  | none => exact ⟨.null, rfl⟩
  | some v =>
    obtain ⟨hlegible, hread⟩ := Value.restores (hv v rfl)
    have hoption : Json.option? Value.ofJson? v.toJson = (Value.ofJson? v.toJson).map some := by cases v <;> rfl
    exact ⟨hlegible, hoption.trans (congrArg (Option.map some) hread)⟩

theorem FieldType.restores (t : FieldType) : Restores (Json.enum? FieldType.all FieldType.name) (.ofText t.name) t :=
  Json.restores_enum t (by cases t <;> decide)

theorem Aggregation.restores (a : Aggregation) :
    Restores (Json.enum? Aggregation.all Aggregation.name) (.ofText a.name) a :=
  Json.restores_enum a (by cases a <;> decide)

/-- The default of the column, if one is declared, is no double. -/
def Column.Floatless (c : Column) : Prop := ∀ v ∈ c.default?, v.Floatless

instance (c : Column) : Decidable c.Floatless := inferInstanceAs (Decidable (∀ v ∈ c.default?, v.Floatless))

theorem Column.restores {c : Column} (hc : c.Floatless) : Restores Column.ofJson? c.toJson c := by
  have hid := Json.restores_u32 c.uniqueId
  have hname := Json.restores_text c.name
  have htype := FieldType.restores c.type
  have hkey := Json.restores_bool c.isKey
  have hnullable := Json.restores_bool c.isNullable
  have haggregation := Aggregation.restores c.aggregation
  have hdefault := restores_default hc
  constructor
  · refine Json.legible_ofFields ?_
    simp only [List.forall_mem_cons]
    exact ⟨hid.legible, hname.legible, htype.legible, hkey.legible, hnullable.legible, haggregation.legible,
      hdefault.legible, List.forall_mem_nil _⟩
  · have hrecord : Json.record? fieldNames c.toJson = some _ := Json.record?_ofFields rfl (by decide)
    rw [ofJson?, hrecord]
    simp [Json.required?, Json.optional?, List.lookup_cons, hid.read, hname.read, htype.read, hkey.read, hnullable.read,
      haggregation.read, hdefault.read]

/-- No default of a column is a double. -/
def TabletSchema.Floatless (s : TabletSchema) : Prop := ∀ c ∈ s.columns, c.Floatless

instance (s : TabletSchema) : Decidable s.Floatless := inferInstanceAs (Decidable (∀ c ∈ s.columns, c.Floatless))

theorem TabletSchema.restores {s : TabletSchema} (hs : s.Floatless) : Restores TabletSchema.ofJson? s.toJson s := by
  have hcolumns := Json.restores_list fun c hc => Column.restores (hs c hc)
  refine ⟨Json.legible_ofFields (List.forall_mem_singleton.mpr hcolumns.legible), ?_⟩
  have hrecord : Json.record? ["columns"] s.toJson = some _ := Json.record?_ofFields rfl (by decide)
  rw [ofJson?, hrecord]
  simp [Json.required?, hcolumns.read]

/-! ### Conditions -/

theorem CompareOp.restores (op : CompareOp) :
    Restores (Json.enum? CompareOp.all CompareOp.name) (.ofText op.name) op :=
  Json.restores_enum op (by cases op <;> decide)

/-- No literal of the predicate is a double. -/
def Predicate.Floatless (p : Predicate) : Prop := ∀ v ∈ p.literals, v.Floatless

instance (p : Predicate) : Decidable p.Floatless := inferInstanceAs (Decidable (∀ v ∈ p.literals, v.Floatless))

theorem Predicate.restores {p : Predicate} (hp : p.Floatless) : Restores Predicate.ofJson? p.toJson p := by
  cases p with
  | compare op v =>
    have hop := CompareOp.restores op
    have hv := Value.restores (hp v List.mem_cons_self)
    constructor
    · refine Json.legible_ofVariant _ (.array ?_)
      exact List.forall_mem_cons.mpr ⟨hop.legible, List.forall_mem_singleton.mpr hv.legible⟩
    · rw [toJson, ofJson?, Json.variant?_ofVariant]
      simp [hop.read, hv.read]
  | isIn vs =>
    have hvs := Json.restores_list fun v hv => Value.restores (hp v hv)
    refine ⟨Json.legible_ofVariant _ hvs.legible, ?_⟩
    rw [toJson, ofJson?, Json.variant?_ofVariant]
    exact congrArg (Option.map Predicate.isIn) hvs.read
  | isNull => exact ⟨(Json.restores_text _).legible, by rw [toJson, ofJson?, Json.variant?_ofText]; rfl⟩
  | isNotNull => exact ⟨(Json.restores_text _).legible, by rw [toJson, ofJson?, Json.variant?_ofText]; rfl⟩

/-- No literal of a predicate is a double. -/
def ColumnCondition.Floatless (c : ColumnCondition) : Prop := ∀ p ∈ c.predicates, p.Floatless

instance (c : ColumnCondition) : Decidable c.Floatless :=
  inferInstanceAs (Decidable (∀ p ∈ c.predicates, p.Floatless))

theorem ColumnCondition.restores {c : ColumnCondition} (hc : c.Floatless) :
    Restores ColumnCondition.ofJson? c.toJson c := by
  have hpredicates := Json.restores_list fun p hp => Predicate.restores (hc p hp)
  refine ⟨Json.legible_ofFields (List.forall_mem_singleton.mpr hpredicates.legible), ?_⟩
  have hrecord : Json.record? ["predicates"] c.toJson = some _ := Json.record?_ofFields rfl (by decide)
  rw [ofJson?, hrecord]
  simp [Json.required?, hpredicates.read]

namespace Conditions

/-- No literal of a condition is a double. -/
def Floatless (c : Conditions) : Prop := ∀ e ∈ c.entries, e.2.Floatless

instance (c : Conditions) : Decidable c.Floatless := inferInstanceAs (Decidable (∀ e ∈ c.entries, e.2.Floatless))

/-- A column id is digits, which stand between quotes as they are. -/
theorem quotable_idName (cid : ColumnId) : Escape.Quotable (idName cid) := by
  have hdigits : idName cid = Number.digitsOf cid.toNat := by
    simp [idName, Number.render, Number.ofInt]
  rw [hdigits]
  refine Escape.quotable_of_plain fun b hb => ?_
  have hdigit := Number.isDigit_of_mem_digitsOf hb
  refine .plain (Json.ne_of_numeral (.inl hdigit) rfl (by decide)) (Json.ne_of_numeral (.inl hdigit) rfl (by decide)) ?_
  rw [Number.isDigit, Bool.and_eq_true, decide_eq_true_iff] at hdigit
  exact UInt8.not_lt.mpr (UInt8.le_trans (by decide) hdigit.1)

/-- A column id is read back from the name of its member. -/
theorem idOfName?_idName (cid : ColumnId) : idOfName? (idName cid) = some cid := by
  have hscan := Number.legible_ofInt cid.toNat [] Number.ends_nil
  rw [List.append_nil] at hscan
  rw [idOfName?, idName, hscan]
  exact (Json.restores_u32 cid).read

/-- A column behind all others is added at the end. -/
theorem upsert_of_last {cid : ColumnId} {f : ColumnCondition → ColumnCondition}
    {es : List (ColumnId × ColumnCondition)} (h : ∀ e ∈ es, e.1 < cid) : upsert cid f es = es ++ [(cid, f .empty)] := by
  induction es with
  | nil => rfl
  | cons e es ih =>
    obtain ⟨he, hes⟩ := List.forall_mem_cons.mp h
    rw [upsert, if_neg (UInt32.not_lt.mpr (UInt32.le_of_lt he)), if_neg (UInt32.ne_of_lt he).symm, ih hes,
      List.cons_append]

/-- Members in the order of their columns are added one behind the other. -/
theorem ofMembers?_map {c : Conditions} {es : List (ColumnId × ColumnCondition)} (hfloatless : ∀ e ∈ es, e.2.Floatless)
    (hsorted : (c.entries ++ es).Pairwise fun a b => a.1 < b.1) :
    ofMembers? (es.map fun (cid, cond) => (idName cid, cond.toJson)) c = some ⟨c.entries ++ es, hsorted⟩ := by
  induction es generalizing c with
  | nil =>
    rw [List.map_nil, ofMembers?]
    congr 1
    simp
  | cons e es ih =>
    obtain ⟨he, hes⟩ := List.forall_mem_cons.mp hfloatless
    have hlast : ∀ e' ∈ c.entries, e'.1 < e.1 := fun e' he' =>
      (List.pairwise_append.mp hsorted).2.2 e' he' e List.mem_cons_self
    have hinsert : (c.insert e.1 e.2).entries ++ es = c.entries ++ e :: es := by
      show upsert e.1 (fun _ => e.2) c.entries ++ es = _
      rw [upsert_of_last hlast, List.append_assoc, List.singleton_append]
    rw [List.map_cons, ofMembers?, idOfName?_idName, (ColumnCondition.restores he).read]
    refine (ih hes (hinsert ▸ hsorted)).trans ?_
    simp only [hinsert]

theorem legible_members (c : Conditions) (hc : c.Floatless) :
    (Json.object (c.entries.map fun (cid, cond) => (idName cid, cond.toJson))).Legible := by
  refine .object (fun m hm => ?_) fun m hm => ?_
  · obtain ⟨e, -, rfl⟩ := List.mem_map.mp hm
    exact quotable_idName e.1
  · obtain ⟨e, he, rfl⟩ := List.mem_map.mp hm
    exact (ColumnCondition.restores (hc e he)).legible

theorem restores {c : Conditions} (hc : c.Floatless) : Restores Conditions.ofJson? c.toJson c := by
  refine ⟨Json.legible_ofFields (List.forall_mem_singleton.mpr (legible_members c hc)), ?_⟩
  have hrecord : Json.record? ["columns"] c.toJson = some _ := Json.record?_ofFields rfl (by decide)
  have hmembers := ofMembers?_map (c := .empty) hc c.sorted
  rw [ofJson?, hrecord]
  exact hmembers

end Conditions

/-- Schemas and conditions without doubles are read back from their texts, on one line or on many. -/
theorem decodeJson_encodeJson {l : Json.Layout} (hl : l.Blank) :
    (∀ c : Conditions, c.Floatless → Conditions.decodeJson (c.encodeJson l) = .ok c)
      ∧ ∀ s : TabletSchema, s.Floatless → TabletSchema.decodeJson (s.encodeJson l) = .ok s :=
  ⟨fun _ hc => (Conditions.restores hc).decodeText hl, fun _ hs => (TabletSchema.restores hs).decodeText hl⟩

/-- A schema of which one column declares a null as its default, and the other nothing. -/
def twoDefaults : TabletSchema :=
  ⟨[⟨7, "a \"key\"\n", .varchar, true, false, .none, some .null⟩, ⟨0, "Wert µ", .float64, false, true, .sum, none⟩]⟩

/-- Conditions on two columns, that were added the greater one first. -/
def twoConditions : Conditions :=
  .ofList [(4294967295, .isIn [.string "\\\u0001", .null]), (2, .compare .le (.int64 (-9))), (2, .isNull), (2, .isNull)]

/-- They are read back from one line, and the schema from many. -/
theorem decodeJson_encodeJson_two :
    twoConditions.Floatless ∧ twoDefaults.Floatless
      ∧ Conditions.decodeJson (twoConditions.encodeJson .compact) = .ok twoConditions
      ∧ TabletSchema.decodeJson (twoDefaults.encodeJson .compact) = .ok twoDefaults
      ∧ TabletSchema.decodeJson (twoDefaults.encodeJson .indented) = .ok twoDefaults := by
  have hconditions : twoConditions.Floatless := by decide
  have hschema : twoDefaults.Floatless := by decide
  exact ⟨hconditions, hschema, (decodeJson_encodeJson Json.Layout.blank_compact).1 _ hconditions,
    (decodeJson_encodeJson Json.Layout.blank_compact).2 _ hschema,
    (decodeJson_encodeJson Json.Layout.blank_indented).2 _ hschema⟩

end SegmentStore
