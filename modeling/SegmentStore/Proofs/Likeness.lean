import SegmentStore.Scan.Reader

/-!
# Readers that are alike

Two readers of one stream may have gone different ways through it. What a reader gives from then on depends on
where its cursor stands, and not on how it came there; and a position leads to one place from everywhere.

* `StreamReader.home` is the stream with its cursor at the start: what never changes. `StreamReader.Alike` says
  that the cursors of two readers of one stream stand at the same place.
* `StreamReader.seek_converges` says that streams of one home are alike after a seek that succeeds,
  `StreamReader.read_agrees` that streams that are alike give the same bytes, and are alike again.
* The same holds of the readers of a column (`ColumnReader.seek_converges`,
  `ColumnReader.nextVector_agrees`).
-/

namespace SegmentStore

/-- Two outcomes with one result, and states in a relation. -/
def Agree {α σ : Type} (R : σ → σ → Prop) (x y : α × σ) : Prop := x.1 = y.1 ∧ R x.2 y.2

theorem Agree.exists_eq {α σ : Type} {R : σ → σ → Prop} {x y : α × σ} (h : Agree R x y) :
    ∃ a t t', x = (a, t) ∧ y = (a, t') ∧ R t t' :=
  ⟨x.1, x.2, y.2, rfl, by rw [h.1], h.2⟩

/-- Two outcomes with one result, and states in a relation if it is a success. -/
def Converge {ε α σ : Type} (R : σ → σ → Prop) (x y : Except ε α × σ) : Prop :=
  x.1 = y.1 ∧ ∀ a, x.1 = .ok a → R x.2 y.2

theorem Converge.cases {ε α σ : Type} {R : σ → σ → Prop} {x y : Except ε α × σ} (h : Converge R x y) :
    (∃ e t t', x = (.error e, t) ∧ y = (.error e, t'))
      ∨ ∃ a t t', x = (.ok a, t) ∧ y = (.ok a, t') ∧ R t t' := by
  obtain ⟨result, t⟩ := x
  obtain ⟨result', t'⟩ := y
  obtain ⟨hresult, hstates⟩ := h
  obtain rfl : result = result' := hresult
  cases result with
  | error e => exact .inl ⟨e, t, t', rfl, rfl⟩
  | ok a => exact .inr ⟨a, t, t', rfl, rfl, hstates a rfl⟩

/-- Two failures may leave whatever states. -/
theorem Converge.error {ε α σ : Type} {R : σ → σ → Prop} {e e' : ε} {t t' : σ} (h : e = e') :
    Converge R ((.error e : Except ε α), t) (.error e', t') :=
  ⟨congrArg Except.error h, fun _ hok => Except.noConfusion rfl rfl (heq_of_eq hok)⟩

/-- What comes to the same by a function is there on both sides, or on neither. -/
theorem rel_of_map_eq {α β : Type} {f : α → β} {x y : Option α} (h : x.map f = y.map f) :
    Option.Rel (fun a b => f a = f b) x y := by
  cases x with
  | none =>
    cases y with
    | none => exact .none
    | some b => cases h
  | some a =>
    cases y with
    | none => cases h
    | some b => exact .some (Option.some.inj h)

/-! ### Streams -/

namespace StreamReader

variable {f : SegmentFile} {s s' t : StreamReader}

/-- The stream with its cursor at the start. -/
def home (s : StreamReader) : StreamReader := .make s.offset s.length s.decompress? s.bufferSize

/-- The streams differ at most in how much was brought in so far. -/
structure Alike (s s' : StreamReader) : Prop where
  home : s.home = s'.home
  pending : s.pending = s'.pending
  nextChunk : s.nextChunk = s'.nextChunk

theorem Alike.refl (s : StreamReader) : s.Alike s := ⟨rfl, rfl, rfl⟩

theorem readChunk_congr (h : s.home = s'.home) (chunk : UInt64) :
    s.readChunk f chunk = s'.readChunk f chunk := by
  show s.home.readChunk f chunk = s'.home.readChunk f chunk
  rw [h]

/-- A chunk is brought in, or is not, wherever the cursor stands. -/
theorem load_congr (f : SegmentFile) (h : s.home = s'.home) (chunk : UInt64) :
    (∃ e, s.load f chunk = .error e ∧ s'.load f chunk = .error e)
      ∨ ∃ t t', s.load f chunk = .ok t ∧ s'.load f chunk = .ok t' ∧ t.Alike t' ∧ t.home = s.home := by
  have hread := readChunk_congr (f := f) h chunk
  cases hchunk : s'.readChunk f chunk with
  | error e =>
    refine .inl ⟨e, ?_, ?_⟩
    · rw [load, hread, hchunk]
      rfl
    · rw [load, hchunk]
      rfl
  | ok x =>
    obtain ⟨content, n⟩ := x
    let loaded (s : StreamReader) : StreamReader :=
      { s with
        pending := content
        nextChunk := chunk + 9 + n
        traffic := s.traffic.add ⟨n.toNat, content.length⟩ }
    refine .inr ⟨loaded s, loaded s', ?_, ?_, ⟨h, rfl, rfl⟩, rfl⟩
    · rw [load, hread, hchunk]
      rfl
    · rw [load, hchunk]
      rfl

theorem load_home {chunk : UInt64} (h : s.load f chunk = .ok t) : t.home = s.home := by
  rcases load_congr f (rfl : s.home = s.home) chunk with ⟨e, hload, -⟩ | ⟨t', -, hload, -, -, hhome⟩
  · cases hload.symm.trans h
  · obtain rfl : t' = t := Except.ok.inj (hload.symm.trans h)
    exact hhome

theorem seek_home (f : SegmentFile) (s : StreamReader) (chunk byte : UInt64) :
    (s.seek f chunk byte).2.home = s.home := by
  rw [seek]
  rcases load_congr f (rfl : s.home = s.home) chunk with ⟨e, hload, -⟩ | ⟨t, -, hload, -, -, hhome⟩
  · rw [hload]
  · rw [hload]
    dsimp only
    split <;> exact hhome

/-- A position leads to one place, wherever the cursor stands. -/
theorem seek_converges (f : SegmentFile) (h : s.home = s'.home) (chunk byte : UInt64) :
    Converge Alike (s.seek f chunk byte) (s'.seek f chunk byte) := by
  rw [seek, seek]
  rcases load_congr f h chunk with ⟨e, hload, hload'⟩ | ⟨t, t', hload, hload', halike, -⟩
  · rw [hload, hload']
    exact ⟨rfl, fun _ hok => nomatch hok⟩
  · rw [hload, hload']
    dsimp only
    rw [halike.pending]
    split
    · exact ⟨rfl, fun _ hok => nomatch hok⟩
    · exact ⟨rfl, fun _ _ => ⟨halike.home, rfl, halike.nextChunk⟩⟩

/-- The stream with some bytes of the current chunk behind the cursor. -/
def consumed (s : StreamReader) (n : Nat) : StreamReader := { s with pending := s.pending.drop n }

theorem Alike.consumed (h : s.Alike s') (n : Nat) : (s.consumed n).Alike (s'.consumed n) := by
  refine ⟨h.home, ?_, h.nextChunk⟩
  show s.pending.drop n = s'.pending.drop n
  rw [h.pending]

/-- Reading takes what it can from the current chunk, and goes on with the next one. -/
theorem readFrom_succ (f : SegmentFile) (fuel n : Nat) (acc : Bytes) (s : StreamReader) :
    s.readFrom f n acc (fuel + 1)
      = if n - (s.pending.take n).length = 0 then (.ok (acc ++ s.pending.take n), s.consumed n)
        else
          match (s.consumed n).load f s.nextChunk with
          | .error e => (.error e, s.consumed n)
          | .ok t => t.readFrom f (n - (s.pending.take n).length) (acc ++ s.pending.take n) fuel := rfl

theorem readFrom_home (f : SegmentFile) (fuel n : Nat) (acc : Bytes) (s : StreamReader) :
    (s.readFrom f n acc fuel).2.home = s.home := by
  induction fuel generalizing n acc s with
  | zero => rfl
  | succ fuel ih =>
    rw [readFrom_succ]
    split
    · rfl
    · rcases load_congr f (rfl : (s.consumed n).home = (s.consumed n).home) s.nextChunk with
        ⟨e, hload, -⟩ | ⟨t, -, hload, -, -, hhome⟩
      · rw [hload]
        rfl
      · rw [hload]
        exact (ih _ _ t).trans hhome

/-- Streams that are alike give the same bytes. The induction is on the chunks that may be brought in. -/
theorem readFrom_agrees (f : SegmentFile) (fuel n : Nat) (acc : Bytes) (h : s.Alike s') :
    Agree Alike (s.readFrom f n acc fuel) (s'.readFrom f n acc fuel) := by
  induction fuel generalizing n acc s s' with
  | zero => exact ⟨rfl, h⟩
  | succ fuel ih =>
    have hmoved := h.consumed n
    rw [readFrom_succ, readFrom_succ, h.pending, h.nextChunk]
    split
    · exact ⟨rfl, hmoved⟩
    · rcases load_congr f hmoved.home s'.nextChunk with ⟨e, hload, hload'⟩ | ⟨t, t', hload, hload', halike, -⟩
      · rw [hload, hload']
        exact ⟨rfl, hmoved⟩
      · rw [hload, hload']
        exact ih _ _ halike

theorem read_home (f : SegmentFile) (s : StreamReader) (n : Nat) : (s.read f n).2.home = s.home :=
  readFrom_home f _ n [] s

theorem read_agrees (f : SegmentFile) (h : s.Alike s') (n : Nat) :
    Agree Alike (s.read f n) (s'.read f n) := by
  have hlength : s.length = s'.length := congrArg (·.length) (show s.home = s'.home from h.home)
  rw [read, read, hlength]
  exact readFrom_agrees f _ n [] h

theorem readByte_home (f : SegmentFile) (s : StreamReader) : (s.readByte f).2.home = s.home := by
  have hhome := read_home f s 1
  rw [readByte]
  split <;> rename_i hread <;> rw [hread] at hhome <;> exact hhome

theorem readByte_agrees (f : SegmentFile) (h : s.Alike s') :
    Agree Alike (s.readByte f) (s'.readByte f) := by
  obtain ⟨result, t, t', hread, hread', halike⟩ := (read_agrees f h 1).exists_eq
  rw [readByte, readByte, hread, hread']
  cases result with
  | error e => exact ⟨rfl, halike⟩
  | ok bs =>
    match bs with
    | [] => exact ⟨rfl, halike⟩
    | [b] => exact ⟨rfl, halike⟩
    | _ :: _ :: _ => exact ⟨rfl, halike⟩

end StreamReader

/-! ### Columns -/

namespace PlainReader

variable {f : SegmentFile} {r r' : PlainReader}

/-- The reader with its streams at their starts. -/
def home (r : PlainReader) : PlainReader := ⟨r.uniqueId, r.type, r.present?.map (·.home), r.data.home⟩

/-- The streams differ at most in how much was brought in so far. -/
structure Alike (r r' : PlainReader) : Prop where
  uniqueId : r.uniqueId = r'.uniqueId
  type : r.type = r'.type
  present : Option.Rel StreamReader.Alike r.present? r'.present?
  data : r.data.Alike r'.data

theorem Alike.refl (r : PlainReader) : r.Alike r := by
  refine ⟨rfl, rfl, ?_, .refl r.data⟩
  cases r.present? with
  | none => exact .none
  | some s => exact .some (.refl s)

/-- Readers of one home have the same streams. -/
theorem present_of_home (h : r.home = r'.home) :
    Option.Rel (fun s s' : StreamReader => s.home = s'.home) r.present? r'.present? :=
  rel_of_map_eq (congrArg PlainReader.present? h)

/-! ### Going to a block -/

theorem seekStream_home (f : SegmentFile) (s : StreamReader) (ps : List UInt64) :
    (seekStream f s ps).2.home = s.home := by
  rw [seekStream]
  split
  · rfl
  · exact StreamReader.seek_home f s _ _

theorem seekStream_converges (f : SegmentFile) {s s' : StreamReader} (h : s.home = s'.home)
    (ps : List UInt64) :
    Converge StreamReader.Alike (seekStream f s ps) (seekStream f s' ps) := by
  rw [seekStream, seekStream]
  split
  · exact ⟨rfl, fun _ hok => nomatch hok⟩
  · rename_i chunk byte rest _
    rcases (StreamReader.seek_converges f h chunk byte).cases with
      ⟨e, t, t', hseek, hseek'⟩ | ⟨a, t, t', hseek, hseek', halike⟩
    · rw [hseek, hseek']
      exact ⟨rfl, fun _ hok => nomatch hok⟩
    · rw [hseek, hseek']
      exact ⟨rfl, fun _ _ => halike⟩

theorem seekNulls_home (f : SegmentFile) (r : PlainReader) (ps : List UInt64) :
    (r.seekNulls f ps).2.home = r.home := by
  rw [seekNulls]
  cases hp : r.present? with
  | none => rfl
  | some p =>
    have hhome := seekStream_home f p ps
    rw [home, home, hp]
    show (⟨r.uniqueId, r.type, some (seekStream f p ps).2.home, r.data.home⟩ : PlainReader) = _
    rw [hhome]
    rfl

/-- What seeking the nulls comes to: the same streams of data are left to seek. -/
theorem seekNulls_converges (f : SegmentFile) (h : r.home = r'.home) (ps : List UInt64) :
    Converge (fun t t' : PlainReader => t.home = t'.home
        ∧ Option.Rel StreamReader.Alike t.present? t'.present?)
      (r.seekNulls f ps) (r'.seekNulls f ps) := by
  have hhome : (r.seekNulls f ps).2.home = (r'.seekNulls f ps).2.home := by
    rw [seekNulls_home, seekNulls_home, h]
  have hpresent := present_of_home h
  rw [seekNulls, seekNulls] at hhome ⊢
  generalize hp : r.present? = p? at hpresent hhome ⊢
  generalize hp' : r'.present? = p?' at hpresent hhome ⊢
  cases hpresent with
  | none =>
    refine ⟨rfl, fun _ _ => ⟨hhome, ?_⟩⟩
    show Option.Rel _ r.present? r'.present?
    rw [hp, hp']
    exact .none
  | some hsame =>
    obtain ⟨hresult, hstates⟩ := seekStream_converges f hsame ps
    exact ⟨hresult, fun a ha => ⟨hhome, .some (hstates a ha)⟩⟩

theorem seek_home (f : SegmentFile) (r : PlainReader) (ps : List UInt64) :
    (r.seek f ps).2.home = r.home := by
  have hnulls := seekNulls_home f r ps
  rw [seek]
  rcases hseek : r.seekNulls f ps with ⟨e | rest, t⟩ <;> rw [hseek] at hnulls
  · exact hnulls
  · rw [← hnulls]
    have hhome := seekStream_home f t.data rest
    show (⟨t.uniqueId, t.type, t.present?.map (·.home), (seekStream f t.data rest).2.home⟩ : PlainReader) = _
    rw [hhome]
    rfl

/-- A position leads to one place, wherever the streams stand. -/
theorem seek_converges (f : SegmentFile) (h : r.home = r'.home) (ps : List UInt64) :
    Converge Alike (r.seek f ps) (r'.seek f ps) := by
  rw [seek, seek]
  rcases (seekNulls_converges f h ps).cases with
    ⟨e, t, t', hseek, hseek'⟩ | ⟨rest, t, t', hseek, hseek', hhome, hpresent⟩
  · rw [hseek, hseek']
    exact ⟨rfl, fun _ hok => nomatch hok⟩
  · rw [hseek, hseek']
    have hdata : t.data.home = t'.data.home := congrArg PlainReader.data hhome
    rcases (seekStream_converges f hdata rest).cases with
      ⟨e, d, d', hstream, hstream'⟩ | ⟨a, d, d', hstream, hstream', halike⟩
    · simp only [hstream, hstream']
      exact ⟨rfl, fun _ hok => nomatch hok⟩
    · simp only [hstream, hstream']
      have huniqueId : t.home.uniqueId = t'.home.uniqueId := congrArg PlainReader.uniqueId hhome
      have htype : t.home.type = t'.home.type := congrArg PlainReader.type hhome
      exact ⟨rfl, fun _ _ => ⟨huniqueId, htype, hpresent, halike⟩⟩

/-! ### Reading on -/

theorem readNull_home (f : SegmentFile) (r : PlainReader) : (r.readNull f).2.home = r.home := by
  rw [readNull]
  cases hp : r.present? with
  | none => rfl
  | some p =>
    have hhome := StreamReader.readByte_home f p
    rw [home, home, hp]
    show (⟨r.uniqueId, r.type, some (p.readByte f).2.home, r.data.home⟩ : PlainReader) = _
    rw [hhome]
    rfl

theorem readNull_agrees (f : SegmentFile) (h : r.Alike r') : Agree Alike (r.readNull f) (r'.readNull f) := by
  have hpresent := h.present
  rw [readNull, readNull]
  generalize hp : r.present? = p? at hpresent ⊢
  generalize hp' : r'.present? = p?' at hpresent ⊢
  cases hpresent with
  | none => exact ⟨rfl, h⟩
  | some halike =>
    obtain ⟨hresult, hstates⟩ := StreamReader.readByte_agrees f halike
    exact ⟨congrArg (Except.map (· != 0)) hresult, h.uniqueId, h.type, .some hstates, h.data⟩

theorem readData_home (f : SegmentFile) (r : PlainReader) (n : Nat) : (r.readData f n).2.home = r.home := by
  have hhome := StreamReader.read_home f r.data n
  show (⟨r.uniqueId, r.type, r.present?.map (·.home), (r.data.read f n).2.home⟩ : PlainReader) = _
  rw [hhome]
  rfl

theorem readData_agrees (f : SegmentFile) (h : r.Alike r') (n : Nat) :
    Agree Alike (r.readData f n) (r'.readData f n) := by
  obtain ⟨hresult, hstates⟩ := StreamReader.read_agrees f h.data n
  exact ⟨hresult, h.uniqueId, h.type, h.present, hstates⟩

theorem readCell_home (f : SegmentFile) (r : PlainReader) : (r.readCell f).2.home = r.home := by
  have hnull := readNull_home f r
  rw [readCell]
  rcases hread : r.readNull f with ⟨e | isNull, r₁⟩ <;> rw [hread] at hnull
  · exact hnull
  · have hdata := (readData_home f r₁ (fixedWidth r₁.type)).trans hnull
    dsimp only
    rcases hread : r₁.readData f (fixedWidth r₁.type) with ⟨e | bs, r₂⟩ <;> rw [hread] at hdata
    · exact hdata
    · have htext := (readData_home f r₂ (leNat bs)).trans hdata
      dsimp only
      split
      · rcases hread : r₂.readData f (leNat bs) with ⟨e | text, r₃⟩ <;> rw [hread] at htext
        · exact htext
        · exact htext
      · exact hdata

/-- Readers that are alike give the same value. -/
theorem readCell_agrees (f : SegmentFile) (h : r.Alike r') : Agree Alike (r.readCell f) (r'.readCell f) := by
  obtain ⟨null?, r₁, r₁', hnull, hnull', h₁⟩ := (readNull_agrees f h).exists_eq
  rw [readCell, readCell, hnull, hnull']
  cases null? with
  | error e => exact ⟨rfl, h₁⟩
  | ok isNull =>
    obtain ⟨bytes?, r₂, r₂', hdata, hdata', h₂⟩ := (readData_agrees f h₁ (fixedWidth r₁.type)).exists_eq
    dsimp only
    rw [hdata, ← h₁.type, hdata']
    cases bytes? with
    | error e => exact ⟨rfl, h₂⟩
    | ok bs =>
      obtain ⟨text?, r₃, r₃', htext, htext', h₃⟩ := (readData_agrees f h₂ (leNat bs)).exists_eq
      dsimp only
      rw [← h₂.type, htext, htext']
      split
      · cases text? with
        | error e => exact ⟨rfl, h₃⟩
        | ok text => exact ⟨rfl, h₃⟩
      · exact ⟨rfl, h₂⟩

theorem readCells_home (f : SegmentFile) (n : Nat) (r : PlainReader) (v : ColumnVector) :
    (readCells f n r v).2.home = r.home := by
  induction n generalizing r v with
  | zero => rfl
  | succ n ih =>
    have hcell := readCell_home f r
    rw [readCells]
    rcases hread : r.readCell f with ⟨e | x, r₁⟩ <;> rw [hread] at hcell
    · exact hcell
    · dsimp only
      split
      · exact hcell
      · exact (ih r₁ _).trans hcell

/-- Readers that are alike fill a vector alike. -/
theorem readCells_agrees (f : SegmentFile) (n : Nat) (h : r.Alike r') (v : ColumnVector) :
    Agree Alike (readCells f n r v) (readCells f n r' v) := by
  induction n generalizing r r' v with
  | zero => exact ⟨rfl, h⟩
  | succ n ih =>
    obtain ⟨cell?, r₁, r₁', hcell, hcell', h₁⟩ := (readCell_agrees f h).exists_eq
    rw [readCells, readCells, hcell, hcell']
    cases cell? with
    | error e => exact ⟨rfl, h₁⟩
    | ok x =>
      dsimp only
      split
      · exact ⟨rfl, h₁⟩
      · exact ih h₁ _

end PlainReader

namespace ColumnReader

variable {f : SegmentFile} {r r' : ColumnReader}

/-- The reader with its streams at their starts. -/
def home : ColumnReader → ColumnReader
  | .plain p => .plain p.home
  | .constant uid x => .constant uid x

/-- The streams differ at most in how much was brought in so far. A constant has none. -/
inductive Alike : ColumnReader → ColumnReader → Prop
  | plain {p p' : PlainReader} (h : p.Alike p') : Alike (.plain p) (.plain p')
  | constant (uid : UniqueId) (x : Value) : Alike (.constant uid x) (.constant uid x)

theorem Alike.refl (r : ColumnReader) : r.Alike r := by
  cases r with
  | plain p => exact .plain (.refl p)
  | constant uid x => exact .constant uid x

/-- Readers of one home are both of streams, or the same constant. -/
theorem cases_of_home (h : r.home = r'.home) :
    (∃ p p' : PlainReader, r = .plain p ∧ r' = .plain p' ∧ p.home = p'.home)
      ∨ ∃ uid x, r = .constant uid x ∧ r' = .constant uid x := by
  cases r with
  | plain p =>
    cases r' with
    | plain p' => exact .inl ⟨p, p', rfl, rfl, ColumnReader.plain.inj h⟩
    | constant uid x => cases h
  | constant uid x =>
    cases r' with
    | plain p' => cases h
    | constant uid' x' => exact .inr ⟨uid, x, rfl, h.symm⟩

theorem uniqueId_eq (h : r.home = r'.home) : r.uniqueId = r'.uniqueId := by
  rcases cases_of_home h with ⟨p, p', rfl, rfl, hhome⟩ | ⟨uid, x, rfl, rfl⟩
  · have huid : p.home.uniqueId = p'.home.uniqueId := congrArg PlainReader.uniqueId hhome
    exact huid
  · rfl

theorem seek_home (f : SegmentFile) (r : ColumnReader) (ps : List UInt64) :
    (r.seek f ps).2.home = r.home := by
  cases r with
  | plain p => exact congrArg ColumnReader.plain (p.seek_home f ps)
  | constant uid x => rfl

theorem seek_converges (f : SegmentFile) (h : r.home = r'.home) (ps : List UInt64) :
    Converge Alike (r.seek f ps) (r'.seek f ps) := by
  rcases cases_of_home h with ⟨p, p', rfl, rfl, hhome⟩ | ⟨uid, x, rfl, rfl⟩
  · obtain ⟨hresult, hstates⟩ := PlainReader.seek_converges f hhome ps
    exact ⟨hresult, fun a ha => .plain (hstates a ha)⟩
  · exact ⟨rfl, fun _ _ => .constant uid x⟩

theorem nextVector_home (f : SegmentFile) (type : FieldType) (n : Nat) (r : ColumnReader) :
    (r.nextVector f type n).2.home = r.home := by
  cases r with
  | plain p =>
    rw [nextVector]
    split
    · rfl
    · exact congrArg ColumnReader.plain (p.readCells_home f n _)
  | constant uid x => rfl

theorem nextVector_agrees (f : SegmentFile) (type : FieldType) (n : Nat) (h : r.Alike r') :
    Agree Alike (r.nextVector f type n) (r'.nextVector f type n) := by
  cases h with
  | plain h =>
    rw [nextVector, nextVector, h.type, h.uniqueId]
    split
    · exact ⟨rfl, .plain h⟩
    · obtain ⟨hresult, hstates⟩ := PlainReader.readCells_agrees f n h (.empty type)
      exact ⟨hresult, .plain hstates⟩
  | constant uid x => exact ⟨rfl, .constant uid x⟩

end ColumnReader

end SegmentStore
