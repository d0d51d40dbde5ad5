import SegmentStore.Proofs.Cursor
import SegmentStore.Proofs.Likeness

/-!
# What reading fails with

Each step of a read can fail, and most only hand on the failure of the step before.

* `StreamReader.readChunk_eq` writes the reading of a chunk as two reads of the file, one for the head and one for
  the payload.
* `FailsWith` says that an outcome fails in one way only, and `FailsOfData` that it fails with nothing but what the
  stored bytes and the values made of them give cause to.
* `StreamReader.LoadsWith` says so of the chunks that a stream brings in, wherever it stands. A stream fails in no other
  way then, and neither does a column that has only such streams: `ColumnReader.seek_failsWith` and
  `ColumnReader.nextVector_failsWith` are for any kind of failures that `CoversData`.
-/

namespace SegmentStore

/-! ### One chunk -/

namespace StreamReader

/-- Reads the payload of a chunk with the given head, which ends at `start`, and unpacks it. -/
def readPayload (file : SegmentFile) (s : StreamReader) (chunk start : UInt64) (head : ChunkHead) :
    Except StorageError (Bytes × UInt64) := do
  let payloadLength := head.payloadLength.toUInt64
  let stop ← plus start payloadLength
  if s.length < stop then
    .error (.format (.chunkOverrun chunk.toNat s.length.toNat))
  else do
    let offset ← plus s.offset start
    let payload ← file.readAt offset.toNat payloadLength.toNat
    liftFault (verify .chunk head.checksum payload)
    (s.unpack head.compressed payload).map fun content => (content, payloadLength)

/-- A chunk is read in two steps, the payload after the head. -/
theorem readChunk_eq (file : SegmentFile) (s : StreamReader) (chunk : UInt64) :
    s.readChunk file chunk
      = if s.length ≤ chunk then .error .streamEof
        else plus chunk 9 >>= fun start =>
          if s.length < start then .error (.format .truncatedChunkHead)
          else plus s.offset chunk >>= fun offset => file.readAt offset.toNat chunkHeadSize >>= fun bs =>
            liftFault (decodeHead bs) >>= fun head => s.readPayload file chunk start head.1 := by
  rw [readChunk]
  by_cases hpast : s.length ≤ chunk
  · rw [if_pos hpast, if_pos hpast]
    rfl
  rw [if_neg hpast, if_neg hpast]
  refine congrArg (plus chunk 9 >>= ·) (funext fun start => ?_)
  by_cases hhead : s.length < start
  · rw [if_pos hhead, if_pos hhead]
    rfl
  rw [if_neg hhead, if_neg hhead]
  refine congrArg (plus s.offset chunk >>= ·) (funext fun offset => ?_)
  refine congrArg (file.readAt offset.toNat chunkHeadSize >>= ·) (funext fun bs => ?_)
  refine congrArg (liftFault (decodeHead bs) >>= ·) (funext fun decoded => ?_)
  obtain ⟨head, rest⟩ := decoded
  dsimp only
  rw [readPayload]
  refine congrArg (plus start head.payloadLength.toUInt64 >>= ·) (funext fun stop => ?_)
  by_cases hover : s.length < stop
  · rw [if_pos hover, if_pos hover]
    rfl
  rw [if_neg hover, if_neg hover]
  refine congrArg (plus s.offset start >>= ·) (funext fun offset => ?_)
  refine congrArg (file.readAt _ _ >>= ·) (funext fun payload => ?_)
  refine congrArg (liftFault (verify .chunk head.checksum payload) >>= ·) (funext fun _ => ?_)
  rw [unpack]
  split
  · cases s.decompress? with
    | none => rfl
    | some decompress =>
      show Except.bind (liftFault (decompress s.bufferSize payload)) _
        = (liftFault (decompress s.bufferSize payload)).map _
      cases liftFault (decompress s.bufferSize payload) <;> rfl
  · rfl

end StreamReader

/-! ### Failures of the data -/

/-- The failure has its cause in stored bytes, or in the values and sums that are made of them. -/
def StorageError.OfData : StorageError → Prop
  | .format _ | .argument _ | .streamEof | .io | .vectorMismatch .. | .overflow => True
  | .invalidColumn _ | .columnSeek .. | .dataEof | .json => False

/-- The failures of the given kind are at least those of the data, up to sums that are too large. -/
def CoversData (P : StorageError → Prop) : Prop := ∀ e : StorageError, e.OfData → e ≠ .overflow → P e

/-- If the outcome is a failure, then one of the given kind. -/
def FailsWith {α : Type} (P : StorageError → Prop) (x : Except StorageError α) : Prop := ∀ e, x = .error e → P e

namespace FailsWith

variable {α β : Type} {P : StorageError → Prop} {x : Except StorageError α}

theorem ok (a : α) : FailsWith P (.ok a) := fun _ h => nomatch h

theorem error {e : StorageError} (he : P e) : FailsWith P (.error e : Except StorageError α) :=
  fun _ h => Except.error.inj h ▸ he

theorem of_eq {e : StorageError} (hx : FailsWith P x) (h : x = .error e) :
    FailsWith P (.error e : Except StorageError β) := error (hx e h)

theorem bind {f : α → Except StorageError β} (hx : FailsWith P x) (hf : ∀ a, x = .ok a → FailsWith P (f a)) :
    FailsWith P (x >>= f) := by
  cases x with
  | error e => exact hx.of_eq rfl
  | ok a => exact hf a rfl

theorem map (hx : FailsWith P x) (f : α → β) : FailsWith P (x.map f) := by
  cases x with
  | error e => exact hx.of_eq rfl
  | ok a => exact ok (f a)

theorem lift (hP : ∀ fault, P (.format fault)) (x : Except FormatFault α) : FailsWith P (liftFault x) := by
  cases x with
  | error fault => exact error (hP fault)
  | ok a => exact ok a

theorem mapM {f : α → Except StorageError β} {xs : List α} (hf : ∀ a ∈ xs, FailsWith P (f a)) :
    FailsWith P (xs.mapM f) := by
  induction xs with
  | nil => exact ok []
  | cons a xs ih =>
    obtain ⟨ha, hxs⟩ := List.forall_mem_cons.mp hf
    rw [List.mapM_cons]
    exact bind ha fun _ _ => bind (ih hxs) fun _ _ => ok _

theorem forM {f : α → Except StorageError PUnit} {xs : List α} (hf : ∀ a ∈ xs, FailsWith P (f a)) :
    FailsWith P (xs.forM f) := by
  induction xs with
  | nil => exact ok PUnit.unit
  | cons a xs ih =>
    obtain ⟨ha, hxs⟩ := List.forall_mem_cons.mp hf
    exact bind ha fun _ _ => ih hxs

end FailsWith

/-- If the outcome is a failure, then one of the data. -/
abbrev FailsOfData {α : Type} (x : Except StorageError α) : Prop := FailsWith StorageError.OfData x

theorem FailsOfData.lift {α : Type} (x : Except FormatFault α) : FailsOfData (liftFault x) :=
  FailsWith.lift (fun _ => trivial) x

theorem plus_failsOfData (a b : UInt64) : FailsOfData (plus a b) := by
  rw [plus]
  split
  · exact .ok _
  · exact .error trivial

theorem coversData_ofData : CoversData StorageError.OfData := fun _ he _ => he

theorem CoversData.format {P : StorageError → Prop} (hP : CoversData P) (fault : FormatFault) : P (.format fault) :=
  hP _ trivial StorageError.noConfusion

theorem CoversData.argument {P : StorageError → Prop} (hP : CoversData P) (fault : ArgumentFault) :
    P (.argument fault) := hP _ trivial StorageError.noConfusion

theorem CoversData.streamEof {P : StorageError → Prop} (hP : CoversData P) : P .streamEof :=
  hP _ trivial StorageError.noConfusion

theorem CoversData.mismatch {P : StorageError → Prop} (hP : CoversData P) (x : Value) (type : FieldType) :
    P (.vectorMismatch x type) := hP _ trivial StorageError.noConfusion

theorem SegmentFile.readAt_failsOfData (f : SegmentFile) (offset length : Nat) :
    FailsOfData (f.readAt offset length) := by
  rw [readAt]
  repeat' split
  all_goals first | exact .ok _ | exact .error trivial

namespace StreamReader

variable (f : SegmentFile) (s : StreamReader)

/-- Unpacking fails with nothing but a fault of the stored bytes. -/
theorem unpack_failsWith {P : StorageError → Prop} (hP : ∀ fault, P (.format fault)) (compressed : Bool)
    (payload : Bytes) : FailsWith P (s.unpack compressed payload) := by
  rw [unpack]
  split
  · split
    · exact .error (hP _)
    · exact .lift hP _
  · exact .ok _

theorem readPayload_failsOfData (chunk start : UInt64) (head : ChunkHead) :
    FailsOfData (s.readPayload f chunk start head) := by
  refine .bind (plus_failsOfData _ _) fun _ _ => ?_
  split
  · exact .error trivial
  refine .bind (plus_failsOfData _ _) fun _ _ => .bind (f.readAt_failsOfData _ _) fun _ _ => ?_
  exact .bind (FailsOfData.lift _) fun _ _ => (s.unpack_failsWith (fun _ => trivial) _ _).map _

theorem readChunk_failsOfData (chunk : UInt64) : FailsOfData (s.readChunk f chunk) := by
  rw [readChunk_eq]
  split
  · exact .error trivial
  refine .bind (plus_failsOfData _ _) fun _ _ => ?_
  split
  · exact .error trivial
  refine .bind (plus_failsOfData _ _) fun _ _ => .bind (f.readAt_failsOfData _ _) fun _ _ => ?_
  exact .bind (FailsOfData.lift _) fun _ _ => s.readPayload_failsOfData f _ _ _

theorem load_failsOfData (chunk : UInt64) : FailsOfData (s.load f chunk) :=
  .bind (s.readChunk_failsOfData f chunk) fun _ _ => .ok _

end StreamReader

/-! ### Streams and columns -/

section Reading

variable {P : StorageError → Prop} {f : SegmentFile}

namespace StreamReader

variable {s t : StreamReader}

/-- Whatever chunk is to be brought in, and wherever the stream stands, only failures of the given kind come up. -/
def LoadsWith (P : StorageError → Prop) (f : SegmentFile) (s : StreamReader) : Prop :=
  ∀ t : StreamReader, t.home = s.home → ∀ chunk, FailsWith P (t.load f chunk)

theorem LoadsWith.of_home (h : s.LoadsWith P f) (hhome : t.home = s.home) : t.LoadsWith P f :=
  fun u hu => h u (hu.trans hhome)

theorem seek_failsWith (hP : CoversData P) (hs : s.LoadsWith P f) (chunk byte : UInt64) :
    FailsWith P (s.seek f chunk byte).1 := by
  rw [seek]
  split
  · rename_i h
    exact (hs s rfl chunk).of_eq h
  · split
    · exact .error (hP.format _)
    · exact .ok ()

/-- The induction is on the chunks that may be brought in. The stream stays the same in all of them. -/
theorem readFrom_failsWith (hP : CoversData P) (hs : s.LoadsWith P f) (n : Nat) (acc : Bytes) (fuel : Nat) :
    FailsWith P (s.readFrom f n acc fuel).1 := by
  induction fuel generalizing n acc s with
  | zero => exact .error hP.streamEof
  | succ fuel ih =>
    have hconsumed : (s.consumed n).LoadsWith P f := hs.of_home rfl
    rw [readFrom_succ]
    split
    · exact .ok _
    · split
      · rename_i h
        exact (hs (s.consumed n) rfl _).of_eq h
      · rename_i h
        exact ih (hconsumed.of_home (load_home h)) _ _

theorem readByte_failsWith (hP : CoversData P) (hs : s.LoadsWith P f) : FailsWith P (s.readByte f).1 := by
  have hread := readFrom_failsWith hP hs 1 [] (s.length.toNat + 2)
  rw [readByte]
  split
  · exact .ok _
  · exact .error hP.streamEof
  · rename_i h
    exact hread.of_eq (congrArg Prod.fst h)

theorem readChunks_failsWith (hs : s.LoadsWith P f) (acc : Array UInt8) (chunk : UInt64) (fuel : Nat) :
    FailsWith P (s.readChunks f acc chunk fuel).1 := by
  induction fuel generalizing acc chunk s with
  | zero => exact .ok _
  | succ fuel ih =>
    rw [readChunks]
    split
    · split
      · rename_i h
        exact (hs s rfl chunk).of_eq h
      · rename_i h
        exact ih (hs.of_home (load_home h)) _ _
    · exact .ok _

theorem readAll_failsWith (hs : s.LoadsWith P f) : FailsWith P (s.readAll f).1 := readChunks_failsWith hs _ _ _

end StreamReader

/-- A value is refused for its type only. -/
theorem ColumnVector.push_failsWith (hP : CoversData P) (v : ColumnVector) (x : Value) : FailsWith P (v.push x) := by
  cases v <;> cases x <;> first | exact .ok _ | exact .error (hP.mismatch _ _)

namespace PlainReader

variable {r r' : PlainReader}

/-- All streams of the column are of the given kind. -/
structure EachStream (Q : StreamReader → Prop) (r : PlainReader) : Prop where
  present : ∀ p, r.present? = some p → Q p
  data : Q r.data

theorem EachStream.of_home {Q : StreamReader → Prop} (hQ : ∀ s t : StreamReader, t.home = s.home → Q s → Q t)
    (h : r.EachStream Q) (hhome : r'.home = r.home) : r'.EachStream Q := by
  refine ⟨fun p hp => ?_, hQ _ _ (congrArg (·.data) hhome) h.data⟩
  have hpresent := present_of_home hhome
  rw [hp] at hpresent
  cases hp' : r.present? with
  | none =>
    rw [hp'] at hpresent
    cases hpresent
  | some p' =>
    rw [hp'] at hpresent
    cases hpresent with
    | some hsame => exact hQ p' p hsame (h.present p' hp')

/-- The streams of the column fail in the given way only. -/
abbrev LoadsWith (P : StorageError → Prop) (f : SegmentFile) (r : PlainReader) : Prop :=
  r.EachStream (StreamReader.LoadsWith P f)

theorem LoadsWith.of_home (h : r.LoadsWith P f) (hhome : r'.home = r.home) : r'.LoadsWith P f :=
  EachStream.of_home (fun _ _ hsame hs => hs.of_home hsame) h hhome

theorem textValue_failsWith (hP : CoversData P) (bs : Bytes) : FailsWith P (textValue bs) := by
  rw [textValue]
  split
  · exact .ok _
  · exact .error (hP.format _)

theorem readNull_failsWith (hP : CoversData P) (hr : r.LoadsWith P f) : FailsWith P (r.readNull f).1 := by
  rw [readNull]
  split
  · exact .ok false
  · rename_i p hp
    exact (StreamReader.readByte_failsWith hP (hr.present p hp)).map _

theorem readData_failsWith (hP : CoversData P) (hr : r.LoadsWith P f) (n : Nat) : FailsWith P (r.readData f n).1 :=
  StreamReader.readFrom_failsWith hP hr.data n [] (r.data.length.toNat + 2)

theorem readCell_failsWith (hP : CoversData P) (hr : r.LoadsWith P f) : FailsWith P (r.readCell f).1 := by
  have hnull := readNull_failsWith hP hr
  have hnullHome := readNull_home f r
  rw [readCell]
  rcases hread : r.readNull f with ⟨e | isNull, r₁⟩ <;> rw [hread] at hnull hnullHome
  · exact hnull.of_eq rfl
  have hr₁ : r₁.LoadsWith P f := LoadsWith.of_home hr hnullHome
  have hdata := readData_failsWith hP hr₁ (fixedWidth r₁.type)
  have hdataHome := readData_home f r₁ (fixedWidth r₁.type)
  dsimp only
  rcases hread : r₁.readData f (fixedWidth r₁.type) with ⟨e | bs, r₂⟩ <;> rw [hread] at hdata hdataHome
  · exact hdata.of_eq rfl
  dsimp only
  split
  · have htext := readData_failsWith hP (LoadsWith.of_home hr₁ hdataHome) (leNat bs)
    split
    · rename_i h
      exact htext.of_eq (congrArg Prod.fst h)
    · dsimp only
      split
      · exact .ok _
      · exact textValue_failsWith hP _
  · exact .ok _

theorem readCells_failsWith (hP : CoversData P) (hr : r.LoadsWith P f) (n : Nat) (v : ColumnVector) :
    FailsWith P (readCells f n r v).1 := by
  induction n generalizing r v with
  | zero => exact .ok v
  | succ n ih =>
    have hcell := readCell_failsWith hP hr
    have hhome := readCell_home f r
    rw [readCells]
    rcases hread : r.readCell f with ⟨e | x, r₁⟩ <;> rw [hread] at hcell hhome
    · exact hcell.of_eq rfl
    · dsimp only
      split
      · rename_i h
        exact (v.push_failsWith hP x).of_eq h
      · exact ih (LoadsWith.of_home hr hhome) _

theorem seekStream_failsWith (hP : CoversData P) {s : StreamReader} (hs : s.LoadsWith P f) (positions : List UInt64) :
    FailsWith P (seekStream f s positions).1 := by
  rw [seekStream]
  rcases positions with _ | ⟨chunk, _ | ⟨byte, ps⟩⟩
  · exact .error (hP.format _)
  · exact .error (hP.format _)
  · exact (StreamReader.seek_failsWith hP hs chunk byte).map _

theorem seekNulls_failsWith (hP : CoversData P) (hr : r.LoadsWith P f) (positions : List UInt64) :
    FailsWith P (r.seekNulls f positions).1 := by
  rw [seekNulls]
  split
  · exact .ok positions
  · rename_i p hp
    exact seekStream_failsWith hP (hr.present p hp) positions

theorem seek_failsWith (hP : CoversData P) (hr : r.LoadsWith P f) (positions : List UInt64) :
    FailsWith P (r.seek f positions).1 := by
  have hnulls := seekNulls_failsWith hP hr positions
  have hhome := seekNulls_home f r positions
  rw [seek]
  rcases hseek : r.seekNulls f positions with ⟨e | ps, r₁⟩ <;> rw [hseek] at hnulls hhome
  · exact hnulls.of_eq rfl
  · exact (seekStream_failsWith hP (LoadsWith.of_home hr hhome).data ps).map _

end PlainReader

namespace ColumnReader

variable {r r' : ColumnReader}

/-- All streams of the column are of the given kind. A constant has none. -/
def EachStream (Q : StreamReader → Prop) : ColumnReader → Prop
  | .plain p => p.EachStream Q
  | .constant _ _ => True

theorem EachStream.of_home {Q : StreamReader → Prop} (hQ : ∀ s t : StreamReader, t.home = s.home → Q s → Q t)
    (h : r.EachStream Q) (hhome : r'.home = r.home) : r'.EachStream Q := by
  rcases cases_of_home hhome with ⟨p', p, rfl, rfl, hplain⟩ | ⟨uid, x, rfl, rfl⟩
  · exact PlainReader.EachStream.of_home hQ h hplain
  · exact trivial

theorem EachStream.mono {Q Q' : StreamReader → Prop} (hQ : ∀ s, Q s → Q' s) (h : r.EachStream Q) :
    r.EachStream Q' := by
  cases r with
  | plain p => exact ⟨fun s hs => hQ s (h.present s hs), hQ _ h.data⟩
  | constant uid x => exact trivial

/-- The streams of the column fail in the given way only. -/
abbrev LoadsWith (P : StorageError → Prop) (f : SegmentFile) (r : ColumnReader) : Prop :=
  r.EachStream (StreamReader.LoadsWith P f)

theorem pushTimes_failsWith (hP : CoversData P) (x : Value) (n : Nat) (v : ColumnVector) :
    FailsWith P (pushTimes x n v) := by
  induction n generalizing v with
  | zero => exact .ok v
  | succ n ih =>
    rw [pushTimes]
    split
    · rename_i h
      exact (v.push_failsWith hP x).of_eq h
    · exact ih _

theorem seek_failsWith (hP : CoversData P) (hr : r.LoadsWith P f) (positions : List UInt64) :
    FailsWith P (r.seek f positions).1 := by
  cases r with
  | plain p => exact PlainReader.seek_failsWith hP hr positions
  | constant uid x => exact .ok ()

theorem nextVector_failsWith (hP : CoversData P) (hr : r.LoadsWith P f) (type : FieldType) (n : Nat) :
    FailsWith P (r.nextVector f type n).1 := by
  cases r with
  | plain p =>
    rw [nextVector]
    split
    · exact .error (hP.argument _)
    · exact PlainReader.readCells_failsWith hP hr n _
  | constant uid x => exact pushTimes_failsWith hP x n _

end ColumnReader

end Reading

theorem ColumnReader.loadsWith_ofData (f : SegmentFile) (r : ColumnReader) : r.LoadsWith StorageError.OfData f := by
  have hload : ∀ s : StreamReader, s.LoadsWith StorageError.OfData f := fun _ t _ chunk => t.load_failsOfData f chunk
  cases r with
  | plain p => exact ⟨fun s _ => hload s, hload p.data⟩
  | constant uid x => exact trivial

/-- Reading a column fails with nothing but what its data gives cause to. -/
theorem ColumnReader.nextVector_failsOfData (f : SegmentFile) (type : FieldType) (n : Nat) (r : ColumnReader) :
    FailsOfData (r.nextVector f type n).1 :=
  nextVector_failsWith coversData_ofData (r.loadsWith_ofData f) type n

end SegmentStore
