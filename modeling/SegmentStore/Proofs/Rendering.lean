import SegmentStore.Json.Syntax
import SegmentStore.Proofs.Escaping
import SegmentStore.Proofs.Numerals

/-!
# Texts of trees

A tree whose strings and numbers are read back is read back from its text, in any layout that has nothing but blanks
between the parts.

* `Json.Legible` says so of the strings and numbers of a tree, `Json.Layout.Blank` of a layout.
* `Json.loop_spaced` is the loop over the parts of an array or an object, `Json.Legible.readsBack` the induction on
  trees.
* `Json.parse?_render` reads a whole text.
-/

namespace SegmentStore.Json

open Number (Ends)

/-- The bytes are blanks. -/
def Blanks (bs : Bytes) : Prop := ∀ b ∈ bs, isBlank b = true

/-- A layout that puts nothing but blanks between the parts of a text, and a colon behind each name. -/
structure Layout.Blank (l : Layout) : Prop where
  gap : ∀ depth, Blanks (l.gap depth)
  colon : ∃ before after, l.colon = before ++ 0x3A :: after ∧ Blanks before ∧ Blanks after

theorem Layout.blank_compact : Layout.compact.Blank :=
  ⟨fun _ => List.forall_mem_nil _, [], [], rfl, List.forall_mem_nil _, List.forall_mem_nil _⟩

theorem Layout.blank_indented : Layout.indented.Blank := by
  refine ⟨fun depth => List.forall_mem_cons.mpr ⟨rfl, fun b hb => ?_⟩, [], [0x20], rfl, List.forall_mem_nil _,
    List.forall_mem_singleton.mpr rfl⟩
  rw [List.eq_of_mem_replicate hb]
  rfl

/-- The strings and numbers of a tree are read back. -/
inductive Legible : Json → Prop
  | null : Legible .null
  | bool (b : Bool) : Legible (.bool b)
  | number {n : Number} (hn : n.Legible) : Legible (.number n)
  | string {raw : Bytes} (hraw : Escape.Quotable raw) : Legible (.string raw)
  | array {js : List Json} (hjs : ∀ j ∈ js, Legible j) : Legible (.array js)
  | object {ms : List (Bytes × Json)} (hnames : ∀ m ∈ ms, Escape.Quotable m.1) (hms : ∀ m ∈ ms, Legible m.2) :
    Legible (.object ms)

variable {l : Layout} {depth fuel : Nat} {b c : UInt8} {bs gap rest : Bytes} {j : Json}

/-! ### Blanks -/

theorem skipBlank_append (hgap : Blanks gap) (bs : Bytes) : skipBlank (gap ++ bs) = skipBlank bs :=
  List.dropWhile_append_of_pos hgap

theorem skipBlank_cons (hb : isBlank b = false) (bs : Bytes) : skipBlank (b :: bs) = b :: bs :=
  List.dropWhile_cons_of_neg (by simp [hb])

theorem mark?_append (hgap : Blanks gap) (b : UInt8) (bs : Bytes) : mark? b (gap ++ bs) = mark? b bs := by
  rw [mark?, mark?, skipBlank_append hgap]

theorem mark?_cons (hc : isBlank c = false) (b : UInt8) (bs : Bytes) :
    mark? b (c :: bs) = if c = b then some bs else none := by
  rw [mark?, skipBlank_cons hc]

theorem value?_append (hgap : Blanks gap) (fuel : Nat) (bs : Bytes) : value? fuel (gap ++ bs) = value? fuel bs := by
  cases fuel with
  | zero => rw [value?, value?]
  | succ fuel => rw [value?, value?, skipBlank_append hgap]

theorem isBlank_iff : isBlank b = true ↔ b = 0x20 ∨ b = 0x09 ∨ b = 0x0A ∨ b = 0x0D := by
  simp only [isBlank, Bool.or_eq_true, decide_eq_true_iff, or_assoc]

/-- A number starts with no other byte than a digit or a minus. -/
theorem ne_of_numeral (hb : Number.isDigit b = true ∨ b = 0x2D) (hdigit : Number.isDigit c = false)
    (hminus : c ≠ 0x2D) : b ≠ c := by
  rintro rfl
  rcases hb with hb | hb
  · rw [hb] at hdigit
    cases hdigit
  · exact hminus hb

theorem not_blank_of_numeral (hb : Number.isDigit b = true ∨ b = 0x2D) : isBlank b = false := by
  rw [← Bool.not_eq_true, isBlank_iff, not_or, not_or, not_or]
  exact ⟨ne_of_numeral hb rfl (by decide), ne_of_numeral hb rfl (by decide), ne_of_numeral hb rfl (by decide),
    ne_of_numeral hb rfl (by decide)⟩

/-- A blank does not go on with a number. -/
theorem ends_append (hgap : Blanks gap) (hrest : Ends rest) : Ends (gap ++ rest) := by
  cases gap with
  | nil => exact hrest
  | cons b gap =>
    rcases isBlank_iff.mp (hgap b List.mem_cons_self) with rfl | rfl | rfl | rfl <;>
      exact Number.ends_cons rfl (by decide) (by decide) (by decide) _

/-! ### Parts between brackets -/

/-- Parts with commas between them, each after a gap. -/
def Layout.spaced (l : Layout) (depth : Nat) (parts : List Bytes) : Bytes :=
  [0x2C].intercalate (parts.map (l.gap depth ++ ·))

theorem Layout.spaced_singleton (l : Layout) (depth : Nat) (p : Bytes) : l.spaced depth [p] = l.gap depth ++ p := by
  simp [spaced, List.intercalate]

theorem Layout.spaced_cons_cons (l : Layout) (depth : Nat) (p q : Bytes) (ps : List Bytes) :
    l.spaced depth (p :: q :: ps) = l.gap depth ++ p ++ 0x2C :: l.spaced depth (q :: ps) := by
  simp [spaced, List.intercalate]

theorem Layout.enclose_cons (l : Layout) (depth : Nat) (opening closing : UInt8) (p : Bytes) (ps : List Bytes) :
    l.enclose depth opening closing (p :: ps)
      = opening :: (l.spaced (depth + 1) (p :: ps) ++ (l.gap depth ++ [closing])) := by
  rw [enclose, if_neg (by simp), spaced]
  simp only [List.cons_append, List.append_assoc]

/-- A loop over parts: it takes one off, and goes on behind a comma. -/
structure Loop {α : Type} (part? : Nat → Bytes → Option (α × Bytes)) (closing : UInt8)
    (loop : Nat → Bytes → Option (List α × Bytes)) : Prop where
  step : ∀ fuel bs, loop (fuel + 1) bs = match part? fuel bs with
    | none => none
    | some (x, rest) =>
      match mark? 0x2C rest with
      | some rest => (loop fuel rest).map fun (xs, rest) => (x :: xs, rest)
      | none => (mark? closing rest).map fun rest => ([x], rest)
  closing : isBlank closing = false ∧ closing ≠ 0x2C ∧ ∀ rest, Ends (closing :: rest)

theorem loop_items : Loop value? 0x5D items? where
  step fuel bs := by
    rw [items?]
    rcases value? fuel bs with _ | ⟨j, rest⟩ <;> rfl
  closing := ⟨rfl, by decide, Number.ends_cons rfl (by decide) (by decide) (by decide)⟩

/-- Takes a name and its value off the front. -/
def member? (fuel : Nat) (bs : Bytes) : Option ((Bytes × Json) × Bytes) :=
  ((mark? 0x22 bs).bind Escape.scan).bind fun (name, rest) =>
    ((mark? 0x3A rest).bind (value? fuel)).map fun (j, rest) => ((name, j), rest)

theorem loop_members : Loop member? 0x7D members? where
  step fuel bs := by
    rw [members?, member?]
    cases (mark? 0x22 bs).bind Escape.scan with
    | none => rfl
    | some named =>
      obtain ⟨name, rest⟩ := named
      dsimp only [Option.bind_some]
      cases (mark? 0x3A rest).bind (value? fuel) with
      | none => rfl
      | some valued => rfl
  closing := ⟨rfl, by decide, Number.ends_cons rfl (by decide) (by decide) (by decide)⟩

/-- A part is taken off whole, with the gap before it. -/
def TakesPart {α : Type} (l : Layout) (depth : Nat) (part? : Nat → Bytes → Option (α × Bytes)) (x : α)
    (text : Bytes) : Prop :=
  ∀ rest fuel, Ends rest → 2 * text.length ≤ fuel → part? fuel (l.gap depth ++ (text ++ rest)) = some (x, rest)

variable {α : Type} {part? : Nat → Bytes → Option (α × Bytes)} {closing : UInt8}
variable {loop : Nat → Bytes → Option (List α × Bytes)} {text : α → Bytes}

/-- The parts between two brackets are taken off one after the other. Two units of fuel for each byte are enough, since
a part is followed by a comma or a bracket. -/
theorem loop_spaced (hloop : Loop part? closing loop) (hgap : Blanks gap) {x : α} {xs : List α}
    (hxs : ∀ y ∈ x :: xs, TakesPart l depth part? y (text y)) (rest : Bytes)
    (hfuel : 2 * (l.spaced depth ((x :: xs).map text) ++ (gap ++ [closing])).length ≤ fuel) :
    loop fuel (l.spaced depth ((x :: xs).map text) ++ (gap ++ closing :: rest)) = some (x :: xs, rest) := by
  obtain ⟨hblank, hcomma, hends⟩ := hloop.closing
  induction xs generalizing x fuel with
  | nil =>
    rw [List.map_singleton, Layout.spaced_singleton] at hfuel ⊢
    simp only [List.length_append, List.length_singleton] at hfuel
    obtain ⟨fuel, rfl⟩ : ∃ k, fuel = k + 1 := ⟨fuel - 1, by omega⟩
    have hpart := hxs x List.mem_cons_self (gap ++ closing :: rest) fuel (ends_append hgap (hends rest)) (by omega)
    rw [List.append_assoc, hloop.step, hpart]
    dsimp only
    rw [mark?_append hgap, mark?_append hgap, mark?_cons hblank, mark?_cons hblank, if_neg hcomma, if_pos rfl]
    rfl
  | cons y ys ih =>
    obtain ⟨hx, hys⟩ := List.forall_mem_cons.mp hxs
    rw [List.map_cons, List.map_cons, Layout.spaced_cons_cons, ← List.map_cons] at hfuel ⊢
    simp only [List.length_append, List.length_cons] at hfuel
    obtain ⟨fuel, rfl⟩ : ∃ k, fuel = k + 1 := ⟨fuel - 1, by omega⟩
    have hcontinues : Ends (0x2C :: (l.spaced depth ((y :: ys).map text) ++ (gap ++ closing :: rest))) :=
      Number.ends_cons rfl (by decide) (by decide) (by decide) _
    have hpart := hx _ fuel hcontinues (by omega)
    have hbytes : 2 * (l.spaced depth ((y :: ys).map text) ++ (gap ++ [closing])).length ≤ fuel := by
      simp only [List.length_append, List.length_singleton]
      omega
    have hrest := ih hys hbytes
    rw [List.append_assoc, List.append_assoc, List.cons_append, hloop.step, hpart]
    dsimp only
    rw [mark?_cons rfl, if_pos rfl]
    dsimp only
    rw [hrest]
    rfl

/-- What does not start with the closing bracket is no empty array or object. -/
theorem mark?_spaced (hl : l.Blank) {p : Bytes} (hp : p = b :: bs) (hb : isBlank b = false) (hclosing : b ≠ c)
    (ps : List Bytes) (rest : Bytes) : mark? c (l.spaced depth (p :: ps) ++ rest) = none := by
  subst hp
  have hfront : ∃ more, l.spaced depth ((b :: bs) :: ps) ++ rest = l.gap depth ++ b :: more := by
    cases ps with
    | nil => exact ⟨_, by rw [Layout.spaced_singleton, List.append_assoc, List.cons_append]⟩
    | cons q qs => exact ⟨_, by rw [Layout.spaced_cons_cons, List.append_assoc, List.append_assoc, List.cons_append]⟩
  obtain ⟨more, hfront⟩ := hfront
  rw [hfront, mark?_append (hl.gap depth), mark?_cons hb, if_neg hclosing]

/-- Behind the opening bracket there is no closing one, but the parts up to it. -/
theorem loop_enclose (hloop : Loop part? closing loop) (hl : l.Blank) {x : α} {xs : List α}
    (hfirst : ∃ b bs, text x = b :: bs ∧ isBlank b = false ∧ b ≠ closing)
    (hxs : ∀ y ∈ x :: xs, TakesPart l (depth + 1) part? y (text y)) (opening : UInt8) (rest : Bytes)
    (hfuel : 2 * (l.enclose depth opening closing ((x :: xs).map text)).length ≤ fuel + 1) :
    ∃ inner, l.enclose depth opening closing ((x :: xs).map text) ++ rest = opening :: inner
      ∧ mark? closing inner = none ∧ loop fuel inner = some (x :: xs, rest) := by
  obtain ⟨b, bs, hbs, hblank, hclosing⟩ := hfirst
  rw [List.map_cons, Layout.enclose_cons, ← List.map_cons] at hfuel ⊢
  rw [List.length_cons] at hfuel
  refine ⟨_, List.cons_append, ?_, ?_⟩
  · rw [List.append_assoc, List.map_cons]
    exact mark?_spaced hl hbs hblank hclosing _ _
  · rw [List.append_assoc, List.append_assoc, List.singleton_append]
    exact loop_spaced hloop (hl.gap depth) hxs rest (by omega)

/-! ### Trees -/

/-- The text of a member. -/
def memberText (l : Layout) (depth : Nat) (m : Bytes × Json) : Bytes :=
  0x22 :: m.1 ++ 0x22 :: l.colon ++ renderAt l depth m.2

theorem renderItems_eq (l : Layout) (depth : Nat) (js : List Json) :
    renderItems l depth js = js.map (renderAt l depth) := by
  induction js with
  | nil => rw [renderItems, List.map_nil]
  | cons j js ih => rw [renderItems, ih, List.map_cons]

theorem renderMembers_eq (l : Layout) (depth : Nat) (ms : List (Bytes × Json)) :
    renderMembers l depth ms = ms.map (memberText l depth) := by
  induction ms with
  | nil => rw [renderMembers, List.map_nil]
  | cons m ms ih => rw [renderMembers, ih, List.map_cons, memberText]

/-- The tree is taken off the front of its text, whatever stands behind it that does not go on with a number. -/
def ReadsBack (l : Layout) (j : Json) : Prop :=
  ∀ depth rest fuel, Ends rest → 2 * (renderAt l depth j).length ≤ fuel →
    value? fuel (renderAt l depth j ++ rest) = some (j, rest)

/-- The text of a tree starts with no blank and with no closing bracket. -/
theorem Legible.first (hj : j.Legible) (l : Layout) (depth : Nat) :
    ∃ b bs, renderAt l depth j = b :: bs ∧ isBlank b = false ∧ b ≠ 0x5D := by
  cases hj with
  | null => exact ⟨_, _, by rw [renderAt]; rfl, rfl, by decide⟩
  | bool b => cases b <;> exact ⟨_, _, by rw [renderAt]; rfl, rfl, by decide⟩
  | number hn =>
    obtain ⟨b, bs, hrender, hb⟩ := hn.head
    exact ⟨b, bs, by rw [renderAt, hrender], not_blank_of_numeral hb, ne_of_numeral hb rfl (by decide)⟩
  | string hraw => exact ⟨_, _, by rw [renderAt]; rfl, rfl, by decide⟩
  | @array js hjs =>
    rw [renderAt]
    cases renderItems l (depth + 1) js with
    | nil => exact ⟨_, _, rfl, rfl, by decide⟩
    | cons p ps => exact ⟨_, _, l.enclose_cons depth _ _ p ps, rfl, by decide⟩
  | @object ms hnames hms =>
    rw [renderAt]
    cases renderMembers l (depth + 1) ms with
    | nil => exact ⟨_, _, rfl, rfl, by decide⟩
    | cons p ps => exact ⟨_, _, l.enclose_cons depth _ _ p ps, rfl, by decide⟩

/-- A text has bytes, and so there is fuel for it. -/
theorem Legible.readsBack_of_succ (hj : j.Legible)
    (h : ∀ depth rest fuel, Ends rest → 2 * (renderAt l depth j).length ≤ fuel + 1 →
      value? (fuel + 1) (renderAt l depth j ++ rest) = some (j, rest)) : ReadsBack l j := by
  intro depth rest fuel hrest hfuel
  cases fuel with
  | zero =>
    obtain ⟨b, bs, hfirst, -⟩ := hj.first l depth
    rw [hfirst, List.length_cons] at hfuel
    omega
  | succ fuel => exact h depth rest fuel hrest hfuel

theorem ReadsBack.takesPart (hl : l.Blank) (h : ReadsBack l j) (depth : Nat) :
    TakesPart l depth value? j (renderAt l depth j) := by
  intro rest fuel hrest hfuel
  rw [value?_append (hl.gap depth)]
  exact h depth rest fuel hrest hfuel

theorem takesPart_member (hl : l.Blank) {m : Bytes × Json} (hname : Escape.Quotable m.1) (h : ReadsBack l m.2)
    (depth : Nat) : TakesPart l depth member? m (memberText l depth m) := by
  intro rest fuel hrest hfuel
  obtain ⟨before, after, hcolon, hbefore, hafter⟩ := hl.colon
  have htext : memberText l depth m ++ rest
      = 0x22 :: (m.1 ++ 0x22 :: (before ++ 0x3A :: (after ++ (renderAt l depth m.2 ++ rest)))) := by
    simp [memberText, hcolon]
  have hlength : (renderAt l depth m.2).length ≤ (memberText l depth m).length := by
    simp [memberText]
    omega
  rw [member?, mark?_append (hl.gap depth), htext, mark?_cons rfl, if_pos rfl, Option.bind_some, hname,
    Option.bind_some]
  dsimp only
  rw [mark?_append hbefore, mark?_cons rfl, if_pos rfl, Option.bind_some, value?_append hafter,
    h depth rest fuel hrest (by omega)]
  rfl

theorem readsBack_number {n : Number} (hn : n.Legible) (l : Layout) : ReadsBack l (.number n) := by
  refine (Legible.number hn).readsBack_of_succ fun depth rest fuel hrest hfuel => ?_
  obtain ⟨b, bs, hrender, hb⟩ := hn.head
  have hscan := hn rest hrest
  rw [hrender, List.cons_append] at hscan
  rw [renderAt, hrender, List.cons_append, value?, skipBlank_cons (not_blank_of_numeral hb)]
  dsimp only
  rw [if_neg (ne_of_numeral hb rfl (by decide)), if_neg (ne_of_numeral hb rfl (by decide)),
    if_neg (ne_of_numeral hb rfl (by decide)), if_neg (ne_of_numeral hb rfl (by decide)),
    if_neg (ne_of_numeral hb rfl (by decide)), if_neg (ne_of_numeral hb rfl (by decide)), hscan]
  rfl

theorem readsBack_array (hl : l.Blank) {js : List Json} (hlegible : ∀ j ∈ js, j.Legible)
    (hjs : ∀ j ∈ js, ReadsBack l j) : ReadsBack l (.array js) := by
  refine (Legible.array hlegible).readsBack_of_succ fun depth rest fuel hrest hfuel => ?_
  rw [renderAt, renderItems_eq] at hfuel ⊢
  cases js with
  | nil =>
    show value? (fuel + 1) (0x5B :: 0x5D :: rest) = _
    rw [value?, skipBlank_cons rfl]
    dsimp only
    rw [if_neg (by decide), if_pos rfl, mark?_cons rfl, if_pos rfl]
  | cons j js =>
    have hfirst := (hlegible j List.mem_cons_self).first l (depth + 1)
    have hparts : ∀ y ∈ j :: js, TakesPart l (depth + 1) value? y (renderAt l (depth + 1) y) :=
      fun y hy => (hjs y hy).takesPart hl (depth + 1)
    obtain ⟨inner, htext, hopen, hitems⟩ := loop_enclose loop_items hl hfirst hparts 0x5B rest hfuel
    rw [htext, value?, skipBlank_cons rfl]
    dsimp only
    rw [if_neg (by decide), if_pos rfl, hopen, hitems]
    rfl

theorem readsBack_object (hl : l.Blank) {ms : List (Bytes × Json)} (hnames : ∀ m ∈ ms, Escape.Quotable m.1)
    (hlegible : ∀ m ∈ ms, m.2.Legible) (hms : ∀ m ∈ ms, ReadsBack l m.2) : ReadsBack l (.object ms) := by
  refine (Legible.object hnames hlegible).readsBack_of_succ fun depth rest fuel hrest hfuel => ?_
  rw [renderAt, renderMembers_eq] at hfuel ⊢
  cases ms with
  | nil =>
    show value? (fuel + 1) (0x7B :: 0x7D :: rest) = _
    rw [value?, skipBlank_cons rfl]
    dsimp only
    rw [if_neg (by decide), if_neg (by decide), if_pos rfl, mark?_cons rfl, if_pos rfl]
  | cons m ms =>
    have hparts : ∀ y ∈ m :: ms, TakesPart l (depth + 1) member? y (memberText l (depth + 1) y) :=
      fun y hy => takesPart_member hl (hnames y hy) (hms y hy) (depth + 1)
    obtain ⟨inner, htext, hopen, hmembers⟩ :=
      loop_enclose loop_members hl ⟨_, _, rfl, rfl, by decide⟩ hparts 0x7B rest hfuel
    rw [htext, value?, skipBlank_cons rfl]
    dsimp only
    rw [if_neg (by decide), if_neg (by decide), if_pos rfl, hopen, hmembers]
    rfl

/-- A tree is read back. The induction is on the tree, with one case for each kind of value. -/
theorem Legible.readsBack (hj : j.Legible) (hl : l.Blank) : ReadsBack l j := by
  induction hj with
  | null =>
    refine Legible.null.readsBack_of_succ fun depth rest fuel _ _ => ?_
    rw [renderAt, value?]
    rfl
  | bool b =>
    refine (Legible.bool b).readsBack_of_succ fun depth rest fuel _ _ => ?_
    cases b <;> rw [renderAt, value?] <;> rfl
  | number hn => exact readsBack_number hn l
  | @string raw hraw =>
    refine (Legible.string hraw).readsBack_of_succ fun depth rest fuel _ _ => ?_
    have htext : renderAt l depth (.string raw) ++ rest = 0x22 :: (raw ++ 0x22 :: rest) := by simp [renderAt]
    rw [htext, value?, skipBlank_cons rfl]
    dsimp only
    rw [if_pos rfl, hraw rest]
    rfl
  | array hjs ih => exact readsBack_array hl hjs ih
  | object hnames hms ih => exact readsBack_object hl hnames hms ih

/-- A tree is read back from its text. -/
theorem parse?_render (hl : l.Blank) (hj : j.Legible) : parse? (j.render l) = some j := by
  have hread := hj.readsBack hl 0 [] (2 * (j.render l).length + 1) Number.ends_nil (Nat.le_succ _)
  rw [List.append_nil] at hread
  rw [parse?, show value? _ (j.render l) = _ from hread]
  rfl

end SegmentStore.Json
