import SegmentStore.Error
import SegmentStore.Prune.Predicate
import SegmentStore.Schema.Basic

/-!
# Conditions on a table

* `Conditions` holds one column condition for each of some columns, in the order of the columns.
* `Conditions.add` appends a predicate to the condition of a column, `Conditions.insert` replaces the
  condition.
* `Conditions.checkTypes` refuses literals that a column cannot hold: statistics are only comparable
  with values of their own type.
* `DeleteHandler` lists deletes by version; `DeleteHandler.applicable` are those after a version.
-/

namespace SegmentStore

/-- Column conditions in strictly ascending order of their columns. -/
structure Conditions where
  entries : List (ColumnId × ColumnCondition)
  sorted : entries.Pairwise fun a b => a.1 < b.1
  deriving DecidableEq

namespace Conditions

/-- Changes the condition of a column in a sorted list, starting from the empty condition where the
column has none. -/
def upsert (cid : ColumnId) (f : ColumnCondition → ColumnCondition) :
    List (ColumnId × ColumnCondition) → List (ColumnId × ColumnCondition)
  | [] => [(cid, f .empty)]
  | e :: es =>
    if cid < e.1 then (cid, f .empty) :: e :: es
    else if cid = e.1 then (cid, f e.2) :: es
    else e :: upsert cid f es

theorem fst_mem_upsert {cid : ColumnId} {f : ColumnCondition → ColumnCondition}
    {es : List (ColumnId × ColumnCondition)} {x : ColumnId × ColumnCondition}
    (h : x ∈ upsert cid f es) : x.1 = cid ∨ ∃ y ∈ es, y.1 = x.1 := by
  induction es with
  | nil =>
    simp only [upsert, List.mem_singleton] at h
    exact .inl (by rw [h])
  | cons e es ih =>
    simp only [upsert] at h
    split at h
    · rcases List.mem_cons.mp h with h | h
      · exact .inl (by rw [h])
      · exact .inr ⟨x, h, rfl⟩
    · split at h
      · rcases List.mem_cons.mp h with h | h
        · exact .inl (by rw [h])
        · exact .inr ⟨x, List.mem_cons_of_mem _ h, rfl⟩
      · rcases List.mem_cons.mp h with h | h
        · exact .inr ⟨e, List.mem_cons_self, by rw [h]⟩
        · rcases ih h with h | ⟨y, hy, hxy⟩
          · exact .inl h
          · exact .inr ⟨y, List.mem_cons_of_mem _ hy, hxy⟩

theorem sorted_upsert (cid : ColumnId) (f : ColumnCondition → ColumnCondition)
    {es : List (ColumnId × ColumnCondition)} (h : es.Pairwise fun a b => a.1 < b.1) :
    (upsert cid f es).Pairwise fun a b => a.1 < b.1 := by
  induction es with
  | nil => exact List.pairwise_singleton _ _
  | cons e es ih =>
    obtain ⟨he, hes⟩ := List.pairwise_cons.mp h
    simp only [upsert]
    split
    · rename_i hlt
      refine List.pairwise_cons.mpr ⟨fun x hx => ?_, h⟩
      rcases List.mem_cons.mp hx with rfl | hx
      · exact hlt
      · exact UInt32.lt_trans hlt (he x hx)
    · split
      · rename_i heq
        exact List.pairwise_cons.mpr ⟨fun x hx => heq ▸ he x hx, hes⟩
      · rename_i hnlt hne
        refine List.pairwise_cons.mpr ⟨fun x hx => ?_, ih hes⟩
        rcases fst_mem_upsert hx with hx | ⟨y, hy, hxy⟩
        · rw [hx]
          exact UInt32.lt_of_le_of_ne (UInt32.not_lt.mp hnlt) (Ne.symm hne)
        · exact hxy ▸ he y hy

/-- No conditions. -/
def empty : Conditions := ⟨[], .nil⟩

/-- Appends a predicate to the condition of a column. -/
def add (c : Conditions) (cid : ColumnId) (p : Predicate) : Conditions :=
  ⟨upsert cid (·.push p) c.entries, sorted_upsert cid _ c.sorted⟩

/-- Sets the condition of a column. -/
def insert (c : Conditions) (cid : ColumnId) (cond : ColumnCondition) : Conditions :=
  ⟨upsert cid (fun _ => cond) c.entries, sorted_upsert cid _ c.sorted⟩

/-- The conditions made by appending predicates one by one. -/
def ofList (ps : List (ColumnId × Predicate)) : Conditions :=
  ps.foldl (fun c e => c.add e.1 e.2) empty

/-- The condition of a column. -/
def get? (c : Conditions) (cid : ColumnId) : Option ColumnCondition := c.entries.lookup cid

def isEmpty (c : Conditions) : Bool := c.entries.isEmpty

/-- The fault of the first literal that the column cannot hold. -/
def literalFault? (column : Column) (cond : ColumnCondition) : Option ArgumentFault :=
  cond.predicates.findSome? fun p =>
    (p.literals.find? fun v => !column.type.accepts v).map fun v =>
      .literalType v column.type column.name

/-- Refuses literals that their column cannot hold. Columns that the schema lacks are skipped. -/
def checkTypes (c : Conditions) (schema : TabletSchema) : Except StorageError Unit :=
  let fault := c.entries.findSome? fun (cid, cond) =>
    (schema.column? cid).bind fun column => literalFault? column cond
  match fault with
  | some f => .error (.argument f)
  | none => .ok ()

end Conditions

/-! ### Deletes -/

/-- A delete, which concerns data written before its version. -/
structure DeleteCondition where
  version : Version
  conditions : Conditions

/-- The deletes of a tablet, in the order of their registration. -/
abbrev DeleteHandler := List DeleteCondition

/-- The deletes that concern a segment whose data starts at the given version. -/
def DeleteHandler.applicable (h : DeleteHandler) (version : Version) : List DeleteCondition :=
  h.filter fun d => version < d.version

/-- What the caller knows about a segment as a whole. -/
inductive DeleteStatus where
  /-- Every row is deleted. -/
  | satisfied
  /-- No row is deleted. -/
  | notSatisfied
  /-- Unknown: blocks are looked at one by one. -/
  | unknown
  deriving DecidableEq, Inhabited

end SegmentStore
