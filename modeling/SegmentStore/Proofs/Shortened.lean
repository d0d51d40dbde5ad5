import SegmentStore.Proofs.Backends
import SegmentStore.Proofs.Likeness
import SegmentStore.Proofs.Marks
import SegmentStore.Proofs.Numbering
import SegmentStore.Proofs.Reencoding
import SegmentStore.Proofs.StoredChunks

/-!
# Reading a file that is cut off

What is read of a file that was cut off is what the whole file has there. Reading beyond the cut fails, and no step
takes that failure for the end of a stream.

* `SegmentFile.CutOf` relates a file to the whole one, `Echoes` and `Follows` relate what an operation gives of the two.
* `StreamReader.MovedWithin` says that a stream went on without leaving the first bytes of the file.
* Every operation follows the one on the whole file: `StreamReader.load_cut` is the step from which the others come,
  up to `SegmentReader.getBlock_cut`.
-/

namespace SegmentStore

/-! ### The same outcome, or a failure -/

/-- No step takes the failure for the end of a stream. -/
structure StorageError.Fatal (e : StorageError) : Prop where
  ne_streamEof : e ≠ .streamEof
  ne_dataEof : e ≠ .dataEof

/-- The outcome is the other one, or a fatal failure. -/
def Echoes {α : Type} (x y : Except StorageError α) : Prop := x = y ∨ ∃ e, x = .error e ∧ e.Fatal

theorem StorageError.Fatal.format (fault : FormatFault) : (StorageError.format fault).Fatal :=
  ⟨fun h => StorageError.noConfusion h, fun h => StorageError.noConfusion h⟩

theorem StorageError.Fatal.overflow : StorageError.overflow.Fatal :=
  ⟨fun h => StorageError.noConfusion h, fun h => StorageError.noConfusion h⟩

theorem StorageError.Fatal.io : StorageError.io.Fatal :=
  ⟨fun h => StorageError.noConfusion h, fun h => StorageError.noConfusion h⟩

theorem StorageError.Fatal.columnSeek (uid : UniqueId) (block : Nat) : (StorageError.columnSeek uid block).Fatal :=
  ⟨fun h => StorageError.noConfusion h, fun h => StorageError.noConfusion h⟩

theorem Echoes.bind {α β : Type} {x y : Except StorageError α} {f g : α → Except StorageError β}
    (h : Echoes x y) (hfg : ∀ a, x = .ok a → Echoes (f a) (g a)) : Echoes (x >>= f) (y >>= g) := by
  rcases h with rfl | ⟨e, rfl, he⟩
  · cases x with
    | error e => exact .inl rfl
    | ok a => exact hfg a rfl
  · exact .inr ⟨e, rfl, he⟩

/-- A success is that of the other side. -/
theorem Echoes.eq_ok {α : Type} {x y : Except StorageError α} (h : Echoes x y) {a : α} (hx : x = .ok a) :
    y = .ok a := by
  rcases h with rfl | ⟨e, he, -⟩
  · exact hx
  · cases hx.symm.trans he

/-- The outcome and the state are the other ones, the state being one that `K` allows, or there is a fatal failure. -/
def Follows {α σ : Type} (K : σ → Prop) (x y : Except StorageError α × σ) : Prop :=
  x = y ∧ K y.2 ∨ ∃ e, x.1 = .error e ∧ e.Fatal

theorem Follows.cases {α σ : Type} {K : σ → Prop} {x y : Except StorageError α × σ} (h : Follows K x y) :
    (∃ e s, x = (.error e, s) ∧ e.Fatal) ∨ ∃ result s, x = (result, s) ∧ y = (result, s) ∧ K s := by
  rcases h with ⟨rfl, hK⟩ | ⟨e, he, hfatal⟩
  · exact .inr ⟨x.1, x.2, rfl, rfl, hK⟩
  · exact .inl ⟨e, x.2, by rw [← he], hfatal⟩

theorem Follows.mono {α σ : Type} {K K' : σ → Prop} {x y : Except StorageError α × σ} (h : Follows K x y)
    (hK : ∀ s, K s → K' s) : Follows K' x y := by
  rcases h with ⟨hsame, hs⟩ | hfails
  · exact .inl ⟨hsame, hK _ hs⟩
  · exact .inr hfails

/-! ### Files -/

namespace SegmentFile

/-- The file is the start of another one, read in the same way. -/
structure CutOf (f' f : SegmentFile) : Prop where
  backend : f'.backend = f.backend
  start : ∃ rest, f.toList = f'.toList ++ rest
  bounded : f.size < 2 ^ 63

variable {f f' : SegmentFile}

theorem CutOf.size_le (h : f'.CutOf f) : f'.size ≤ f.size := by
  obtain ⟨rest, hrest⟩ := h.start
  rw [← length_toList, ← length_toList, hrest, List.length_append]
  omega

theorem CutOf.bounded_cut (h : f'.CutOf f) : f'.size < 2 ^ 63 := Nat.lt_of_le_of_lt h.size_le h.bounded

theorem readAt_fatal {offset length : Nat} {e : StorageError} (h : f.readAt offset length = .error e) :
    e.Fatal := by
  rw [readAt] at h
  repeat' split at h
  all_goals cases h
  all_goals first | exact .format _ | exact .overflow | exact .io

/-- No bytes at all are read of the whole file if they are of its start. -/
theorem CutOf.readAt_zero (h : f'.CutOf f) {offset : Nat} {bs : Bytes} (hread : f'.readAt offset 0 = .ok bs) :
    f.readAt offset 0 = .ok bs := by
  have hsize := h.size_le
  rw [readAt, h.backend] at hread
  rw [readAt]
  split at hread
  · split at hread
    · cases hread
    · rename_i hfit
      rw [if_neg (by omega), ← hread, slice_eq, slice_eq, List.take_zero, List.take_zero]
  · exact hread
  · split at hread
    · cases hread
    · rename_i hoffset
      rw [if_neg hoffset]
      exact hread

/-- What is read of the start of a file is what stands there. -/
theorem readAt_cut (h : f'.CutOf f) (offset length : Nat) :
    Echoes (f'.readAt offset length) (f.readAt offset length) := by
  cases hread : f'.readAt offset length with
  | error e => exact .inr ⟨e, rfl, readAt_fatal hread⟩
  | ok bs =>
    by_cases hlength : length = 0
    · subst hlength
      exact .inl (h.readAt_zero hread).symm
    · have hfit := le_size_of_readAt h.bounded_cut hlength hread
      have hsize := h.size_le
      have hbounded := h.bounded
      obtain ⟨rest, hrest⟩ := h.start
      rw [readAt_eq_ok f' hfit (by omega)] at hread
      have hdrop : offset ≤ f'.toList.length := by
        rw [length_toList]
        omega
      have htake : length ≤ (f'.toList.drop offset).length := by
        rw [List.length_drop, length_toList]
        omega
      rw [readAt_eq_ok f (by omega) (by omega), hrest, List.drop_append_of_le_length hdrop,
        List.take_append_of_le_length htake]
      exact .inl hread.symm

end SegmentFile

variable {f f' : SegmentFile}

/-! ### Headers -/

namespace SegmentHeader

/-- The header of the start of a file is the header of the file, if it can be read. -/
theorem readFrom_cut (h : f'.CutOf f) : Echoes (readFrom f') (readFrom f) := by
  have hsize := h.size_le
  rw [readFrom, readFrom]
  by_cases hsmall : f'.size < prefixSize
  · rw [if_pos hsmall]
    exact .inr ⟨_, rfl, .format _⟩
  have hsmall' : ¬f.size < prefixSize := by omega
  simp only [hsmall, hsmall', if_false]
  refine (SegmentFile.readAt_cut h 0 prefixSize).bind fun start _ => .bind (.inl rfl) fun front _ => ?_
  by_cases hlong : f'.size < prefixSize + front.1.bodyLength.toNat
  · simp only [hlong, if_true]
    exact .inr ⟨_, rfl, .format _⟩
  have hlong' : ¬f.size < prefixSize + front.1.bodyLength.toNat := by omega
  simp only [hlong, hlong', if_false]
  exact (SegmentFile.readAt_cut h _ _).bind fun body _ => .inl rfl

/-- A header that was read takes at least the part before its body, and lies within the file. -/
theorem length_of_readFrom {header : SegmentHeader} {length : UInt64}
    (hread : readFrom f = .ok (header, length)) : prefixSize ≤ length.toNat ∧ length.toNat ≤ f.size := by
  obtain ⟨x, body, rest, hlaid, -, -, rfl⟩ := laid_of_readFrom hread
  have hnarrow := x.bodyLength.toNat_lt
  rw [hlaid.bodyLength] at hnarrow
  rw [Decoder.toNat_ofNat_u64 (by rw [prefixSize]; omega), hlaid.size]
  exact ⟨by omega, by omega⟩

end SegmentHeader

/-! ### Streams -/

namespace StreamReader

open StreamWriter

variable {s t u : StreamReader}

theorem readPayload_cut (h : f'.CutOf f) (s : StreamReader) (chunk start : UInt64) (head : ChunkHead) :
    Echoes (s.readPayload f' chunk start head) (s.readPayload f chunk start head) := by
  refine .bind (.inl rfl) fun stop _ => ?_
  split
  · exact .inl rfl
  · exact .bind (.inl rfl) fun place _ => (SegmentFile.readAt_cut h _ _).bind fun payload _ => .inl rfl

theorem readChunk_cut (h : f'.CutOf f) (s : StreamReader) (chunk : UInt64) :
    Echoes (s.readChunk f' chunk) (s.readChunk f chunk) := by
  rw [readChunk_eq, readChunk_eq]
  split
  · exact .inl rfl
  refine .bind (.inl rfl) fun start _ => ?_
  split
  · exact .inl rfl
  refine .bind (.inl rfl) fun offset _ => (SegmentFile.readAt_cut h _ _).bind fun bs _ => ?_
  exact .bind (.inl rfl) fun head _ => readPayload_cut h s chunk start head.1

/-- The head and the payload of a chunk that was read lie within the stream and the file, one behind the other. -/
theorem readChunk_extent (hbounded : f.size < 2 ^ 63) {chunk payloadLength : UInt64} {content : Bytes}
    (h : s.readChunk f chunk = .ok (content, payloadLength)) :
    (chunk + 9 + payloadLength).toNat = chunk.toNat + chunkHeadSize + payloadLength.toNat
      ∧ (chunk + 9 + payloadLength).toNat ≤ s.length.toNat
      ∧ s.offset.toNat + (chunk + 9 + payloadLength).toNat ≤ f.size := by
  obtain ⟨x, mark, payload, hholds, -, rfl⟩ := holdsChunk_of_readChunk hbounded h
  have hinside := hholds.inside
  have hle := hholds.le_size
  have hlength := s.length.toNat_lt
  have hnine : (9 : UInt64).toNat = chunkHeadSize := rfl
  have hpayload : x.payloadLength.toUInt64.toNat = payload.length :=
    x.payloadLength.toNat_toUInt64.trans hholds.payloadLength
  have hhead : (chunk + 9).toNat = chunk.toNat + chunkHeadSize := Decoder.toNat_add_u64 (by omega)
  have hnext : (chunk + 9 + x.payloadLength.toUInt64).toNat = chunk.toNat + chunkHeadSize + payload.length := by
    rw [Decoder.toNat_add_u64 (by omega), hhead, hpayload]
  refine ⟨by rw [hnext, hpayload], by omega, by omega⟩

theorem load_cut (h : f'.CutOf f) (s : StreamReader) (chunk : UInt64) :
    Echoes (s.load f' chunk) (s.load f chunk) :=
  (readChunk_cut h s chunk).bind fun _ _ => .inl rfl

/-- The stream may have gone on, but what it brought in last lies within the first `n` bytes of the file. -/
structure MovedWithin (n : Nat) (s t : StreamReader) : Prop where
  home : t.home = s.home
  within : t.nextChunk = s.nextChunk ∨ s.offset.toNat + t.nextChunk.toNat ≤ n

variable {n : Nat}

theorem MovedWithin.refl (s : StreamReader) : s.MovedWithin n s := ⟨rfl, .inl rfl⟩

theorem MovedWithin.trans (h : s.MovedWithin n t) (h' : t.MovedWithin n u) : s.MovedWithin n u := by
  have hoffset : t.offset = s.offset := congrArg (·.offset) h.home
  refine ⟨h'.home.trans h.home, ?_⟩
  rcases h'.within with hsame | hwithin
  · rw [hsame]
    exact h.within
  · rw [← hoffset]
    exact .inr hwithin

/-- The bytes that are unread do not matter. -/
theorem MovedWithin.unread (h : s.MovedWithin n t) (bs : Bytes) : s.MovedWithin n { t with pending := bs } :=
  ⟨h.home, h.within⟩

theorem load_within (hbounded : f.size < 2 ^ 63) {chunk : UInt64} (h : s.load f chunk = .ok t) :
    s.offset.toNat + t.nextChunk.toNat ≤ f.size := by
  obtain ⟨⟨content, payloadLength⟩, hread, h⟩ := bind_eq_ok.mp h
  rw [← Except.ok.inj h]
  exact (readChunk_extent hbounded hread).2.2

theorem load_moved (hbounded : f.size < 2 ^ 63) {chunk : UInt64} (h : s.load f chunk = .ok t) :
    s.MovedWithin f.size t :=
  ⟨load_home h, .inr (load_within hbounded h)⟩

theorem seek_cut (h : f'.CutOf f) (s : StreamReader) (chunk byte : UInt64) :
    Follows (s.MovedWithin f'.size) (s.seek f' chunk byte) (s.seek f chunk byte) := by
  rw [seek, seek]
  rcases load_cut h s chunk with hsame | ⟨e, hload, he⟩
  · rw [← hsame]
    cases hload : s.load f' chunk with
    | error e => exact .inl ⟨rfl, .refl s⟩
    | ok t =>
      have hmoved := load_moved h.bounded_cut hload
      dsimp only
      split
      · exact .inl ⟨rfl, hmoved⟩
      · exact .inl ⟨rfl, hmoved.unread _⟩
  · rw [hload]
    exact .inr ⟨e, rfl, he⟩

/-- Reading on follows what it would give of the whole file. The induction is on the chunks that may be brought in. -/
theorem readFrom_cut (h : f'.CutOf f) (fuel n : Nat) (acc : Bytes) (s : StreamReader) :
    Follows (s.MovedWithin f'.size) (s.readFrom f' n acc fuel) (s.readFrom f n acc fuel) := by
  induction fuel generalizing n acc s with
  | zero => exact .inl ⟨rfl, .refl s⟩
  | succ fuel ih =>
    have hconsumed : s.MovedWithin f'.size (s.consumed n) := (MovedWithin.refl s).unread _
    rw [readFrom_succ, readFrom_succ]
    split
    · exact .inl ⟨rfl, hconsumed⟩
    rcases load_cut h (s.consumed n) s.nextChunk with hsame | ⟨e, hload, he⟩
    · rw [← hsame]
      cases hload : (s.consumed n).load f' s.nextChunk with
      | error e => exact .inl ⟨rfl, hconsumed⟩
      | ok t =>
        have hmoved := hconsumed.trans (load_moved h.bounded_cut hload)
        exact (ih _ _ t).mono fun _ => hmoved.trans
    · rw [hload]
      exact .inr ⟨e, rfl, he⟩

theorem readByte_cut (h : f'.CutOf f) (s : StreamReader) :
    Follows (s.MovedWithin f'.size) (s.readByte f') (s.readByte f) := by
  rw [readByte, readByte, read, read]
  rcases (readFrom_cut h (s.length.toNat + 2) 1 [] s).cases with
    ⟨e, t, hread, he⟩ | ⟨result, t, hread, hread', hmoved⟩
  · rw [hread]
    exact .inr ⟨e, rfl, he⟩
  · rw [hread, hread']
    split <;> rename_i hsplit <;> obtain ⟨-, rfl⟩ := Prod.mk.inj hsplit <;> exact .inl ⟨rfl, hmoved⟩

/-- Reading all follows what it would give of the whole file. -/
theorem readChunks_cut (h : f'.CutOf f) (acc : Array UInt8) (s : StreamReader) (chunk : UInt64) (fuel : Nat) :
    Follows (fun _ => True) (s.readChunks f' acc chunk fuel) (s.readChunks f acc chunk fuel) := by
  induction fuel generalizing acc s chunk with
  | zero => exact .inl ⟨rfl, trivial⟩
  | succ fuel ih =>
    rw [readChunks, readChunks]
    split
    · rcases load_cut h s chunk with hsame | ⟨e, hload, he⟩
      · rw [← hsame]
        cases s.load f' chunk with
        | error e => exact .inl ⟨rfl, trivial⟩
        | ok t => exact ih _ t _
      · rw [hload]
        exact .inr ⟨e, rfl, he⟩
    · exact .inl ⟨rfl, trivial⟩

variable {compress? : Option (Bytes → Bytes)} {cs : List Bytes}

/-- When the chunks behind those of `done` are read as well, the whole stream lies within the file. The induction is on
the chunks that are left. -/
theorem readChunks_within (hcut : f'.CutOf f) {acc : Array UInt8} {fuel : Nat} {bs : Bytes} (done : List Bytes)
    {rest : List Bytes} (h : s.Stores f compress? (done ++ rest)) (hfuel : rest.length < fuel)
    (hdone : done ≠ [] → s.offset.toNat + (UInt64.ofNat (chunkBytes compress? done).length).toNat ≤ f'.size)
    (hread : (s.readChunks f' acc (UInt64.ofNat (chunkBytes compress? done).length) fuel).1 = .ok bs)
    (hne : done ++ rest ≠ []) : s.offset.toNat + s.length.toNat ≤ f'.size := by
  induction rest generalizing s acc done fuel with
  | nil =>
    rw [List.append_nil] at h hne
    have hend : UInt64.ofNat (chunkBytes compress? done).length = s.length := by
      rw [← h.length_eq, UInt64.ofNat_toNat]
    rw [← hend]
    exact hdone hne
  | cons c rest ih =>
    obtain ⟨fuel, rfl⟩ : ∃ m, fuel = m + 1 := ⟨fuel - 1, by omega⟩
    obtain ⟨t, hload, hstores, hpending, hnext⟩ := h.load
    rw [readChunks, if_pos h.start_lt] at hread
    rcases load_cut hcut s (UInt64.ofNat (chunkBytes compress? done).length) with hsame | ⟨e, hfails, -⟩
    · rw [hload] at hsame
      rw [hsame] at hread
      have hhome := load_home hload
      have hoffset : t.offset = s.offset := congrArg (·.offset) hhome
      have hlength : t.length = s.length := congrArg (·.length) hhome
      have hword : t.nextChunk = UInt64.ofNat (chunkBytes compress? (done ++ [c])).length := by
        rw [← hnext, UInt64.ofNat_toNat]
      have hcs : done ++ c :: rest = done ++ [c] ++ rest := by rw [List.append_assoc]; rfl
      have hwithin := load_within hcut.bounded_cut hsame
      rw [hcs] at hstores hne
      rw [List.length_cons] at hfuel
      dsimp only at hread
      rw [hword] at hread hwithin
      rw [← hoffset, ← hlength]
      rw [← hoffset] at hwithin
      exact ih (done ++ [c]) hstores (by omega) (fun _ => hwithin) hread hne
    · rw [hfails] at hread
      cases hread

/-- A stream that is read to its end lies within the file. -/
theorem readAll_within (hcut : f'.CutOf f) (h : s.Stores f compress? cs) (hne : cs ≠ []) {bs : Bytes}
    (hread : (s.readAll f').1 = .ok bs) : s.offset.toNat + s.length.toNat ≤ f'.size := by
  have hfuel : cs.length < s.length.toNat + 1 := by
    rw [h.length_eq]
    exact Nat.lt_succ_of_le (length_le_chunkBytes compress? cs)
  exact readChunks_within hcut [] h hfuel (fun hnil => absurd rfl hnil) hread hne

/-- A stream that was read from its start, and has nothing ahead, lies within the part of the file in which it went
on. -/
theorem within_of_delivers_nil (hfresh : s.nextChunk = 0) (hmoved : s.MovedWithin n t)
    (h : t.Delivers f compress? cs []) (hcs : ∀ c ∈ cs, c ≠ []) (hne : cs ≠ []) :
    s.offset.toNat + s.length.toNat ≤ n := by
  obtain ⟨-, hend⟩ := h.at_end hcs
  have hlength : t.length = s.length := congrArg (·.length) hmoved.home
  have hpos : 0 < s.length.toNat := by
    rw [← hlength, h.1.length_eq]
    exact Nat.lt_of_lt_of_le (List.length_pos_iff.mpr hne) (length_le_chunkBytes compress? cs)
  have hwithin := hmoved.within
  rw [hend, hlength, hfresh] at hwithin
  rcases hwithin with hzero | hwithin
  · rw [hzero] at hpos
    exact absurd hpos (by decide)
  · exact hwithin

end StreamReader

/-! ### Columns -/

namespace PlainReader

/-- The data stream went on within the first `n` bytes of the file. -/
def MovedWithin (n : Nat) (r r' : PlainReader) : Prop := r.data.MovedWithin n r'.data

variable {n : Nat} {r r' r'' : PlainReader}

theorem MovedWithin.refl (r : PlainReader) : r.MovedWithin n r := StreamReader.MovedWithin.refl r.data

theorem MovedWithin.trans (h : r.MovedWithin n r') (h' : r'.MovedWithin n r'') : r.MovedWithin n r'' :=
  StreamReader.MovedWithin.trans h h'

theorem readNull_cut (h : f'.CutOf f) (r : PlainReader) :
    Follows (r.MovedWithin f'.size) (r.readNull f') (r.readNull f) := by
  cases hp : r.present? with
  | none =>
    simp only [readNull, hp]
    exact .inl ⟨rfl, .refl r⟩
  | some p =>
    simp only [readNull, hp]
    rcases (StreamReader.readByte_cut h p).cases with ⟨e, p', hread, he⟩ | ⟨result, p', hread, hread', -⟩
    · rw [hread]
      exact .inr ⟨e, rfl, he⟩
    · rw [hread, hread']
      exact .inl ⟨rfl, .refl r⟩

theorem readData_cut (h : f'.CutOf f) (r : PlainReader) (n : Nat) :
    Follows (r.MovedWithin f'.size) (r.readData f' n) (r.readData f n) := by
  rw [readData, readData, StreamReader.read, StreamReader.read]
  rcases (StreamReader.readFrom_cut h (r.data.length.toNat + 2) n [] r.data).cases with
    ⟨e, d, hread, he⟩ | ⟨result, d, hread, hread', hmoved⟩
  · rw [hread]
    exact .inr ⟨e, rfl, he⟩
  · rw [hread, hread']
    exact .inl ⟨rfl, hmoved⟩

theorem readCell_cut (h : f'.CutOf f) (r : PlainReader) :
    Follows (r.MovedWithin f'.size) (r.readCell f') (r.readCell f) := by
  rw [readCell, readCell]
  rcases (readNull_cut h r).cases with ⟨e, r₁, hnull, he⟩ | ⟨result, r₁, hnull, hnull', hmoved₁⟩
  · rw [hnull]
    exact .inr ⟨e, rfl, he⟩
  rw [hnull, hnull']
  cases result with
  | error e => exact .inl ⟨rfl, hmoved₁⟩
  | ok isNull =>
    dsimp only
    rcases (readData_cut h r₁ (fixedWidth r₁.type)).cases with
      ⟨e, r₂, hfixed, he⟩ | ⟨result, r₂, hfixed, hfixed', hmoved₂⟩
    · rw [hfixed]
      exact .inr ⟨e, rfl, he⟩
    rw [hfixed, hfixed']
    have hmoved := hmoved₁.trans hmoved₂
    cases result with
    | error e => exact .inl ⟨rfl, hmoved⟩
    | ok bs =>
      dsimp only
      split
      · rcases (readData_cut h r₂ (leNat bs)).cases with
          ⟨e, r₃, htext, he⟩ | ⟨result, r₃, htext, htext', hmoved₃⟩
        · rw [htext]
          exact .inr ⟨e, rfl, he⟩
        · rw [htext, htext']
          cases result with
          | error e => exact .inl ⟨rfl, hmoved.trans hmoved₃⟩
          | ok text => exact .inl ⟨rfl, hmoved.trans hmoved₃⟩
      · exact .inl ⟨rfl, hmoved⟩

theorem readCells_cut (h : f'.CutOf f) (n : Nat) (r : PlainReader) (v : ColumnVector) :
    Follows (r.MovedWithin f'.size) (r.readCells f' n v) (r.readCells f n v) := by
  induction n generalizing r v with
  | zero => exact .inl ⟨rfl, .refl r⟩
  | succ n ih =>
    rw [readCells, readCells]
    rcases (readCell_cut h r).cases with ⟨e, r', hread, he⟩ | ⟨result, r', hread, hread', hmoved⟩
    · rw [hread]
      exact .inr ⟨e, rfl, he⟩
    rw [hread, hread']
    cases result with
    | error e => exact .inl ⟨rfl, hmoved⟩
    | ok x =>
      dsimp only
      cases v.push x with
      | error e => exact .inl ⟨rfl, hmoved⟩
      | ok w => exact (ih r' w).mono fun _ => hmoved.trans

theorem seekStream_cut (h : f'.CutOf f) (s : StreamReader) (positions : List UInt64) :
    Follows (s.MovedWithin f'.size) (seekStream f' s positions) (seekStream f s positions) := by
  rw [seekStream, seekStream]
  split
  · exact .inl ⟨rfl, .refl s⟩
  · rename_i chunk byte ps _
    dsimp only
    rcases (StreamReader.seek_cut h s chunk byte).cases with ⟨e, t, hseek, he⟩ | ⟨result, t, hseek, hseek', hmoved⟩
    · rw [hseek]
      exact .inr ⟨e, rfl, he⟩
    · rw [hseek, hseek']
      exact .inl ⟨rfl, hmoved⟩

theorem seekNulls_cut (h : f'.CutOf f) (r : PlainReader) (positions : List UInt64) :
    Follows (r.MovedWithin f'.size) (r.seekNulls f' positions) (r.seekNulls f positions) := by
  cases hp : r.present? with
  | none =>
    simp only [seekNulls, hp]
    exact .inl ⟨rfl, .refl r⟩
  | some p =>
    simp only [seekNulls, hp]
    rcases (seekStream_cut h p positions).cases with ⟨e, p', hseek, he⟩ | ⟨result, p', hseek, hseek', -⟩
    · rw [hseek]
      exact .inr ⟨e, rfl, he⟩
    · rw [hseek, hseek']
      exact .inl ⟨rfl, .refl r⟩

theorem seek_cut (h : f'.CutOf f) (r : PlainReader) (positions : List UInt64) :
    Follows (r.MovedWithin f'.size) (r.seek f' positions) (r.seek f positions) := by
  rw [seek, seek]
  rcases (seekNulls_cut h r positions).cases with ⟨e, r', hnulls, he⟩ | ⟨result, r', hnulls, hnulls', hmoved⟩
  · rw [hnulls]
    exact .inr ⟨e, rfl, he⟩
  rw [hnulls, hnulls']
  cases result with
  | error e => exact .inl ⟨rfl, hmoved⟩
  | ok ps =>
    dsimp only
    rcases (seekStream_cut h r'.data ps).cases with ⟨e, d, hseek, he⟩ | ⟨result, d, hseek, hseek', hdata⟩
    · rw [hseek]
      exact .inr ⟨e, rfl, he⟩
    · rw [hseek, hseek']
      exact .inl ⟨rfl, hmoved.trans hdata⟩

end PlainReader

namespace ColumnReader

/-- The data stream of a column that is stored. -/
def data? : ColumnReader → Option StreamReader
  | .plain r => some r.data
  | .constant _ _ => none

/-- The data stream, if there is one, went on within the first `n` bytes of the file. -/
def MovedWithin (n : Nat) (r r' : ColumnReader) : Prop :=
  ∀ d', r'.data? = some d' → ∃ d, r.data? = some d ∧ d.MovedWithin n d'

theorem MovedWithin.refl {n : Nat} (r : ColumnReader) : r.MovedWithin n r := fun d hd => ⟨d, hd, .refl d⟩

theorem movedWithin_plain {n : Nat} {p p' : PlainReader} (h : p.MovedWithin n p') :
    (plain p).MovedWithin n (plain p') := by
  intro d hd
  obtain rfl := Option.some.inj hd
  exact ⟨p.data, rfl, h⟩

theorem seek_cut (h : f'.CutOf f) (r : ColumnReader) (positions : List UInt64) :
    Follows (r.MovedWithin f'.size) (r.seek f' positions) (r.seek f positions) := by
  cases r with
  | constant uid v => exact .inl ⟨rfl, .refl _⟩
  | plain p =>
    rw [seek, seek]
    rcases (PlainReader.seek_cut h p positions).cases with ⟨e, p', hseek, he⟩ | ⟨result, p', hseek, hseek', hmoved⟩
    · rw [hseek]
      exact .inr ⟨e, rfl, he⟩
    · rw [hseek, hseek']
      exact .inl ⟨rfl, movedWithin_plain hmoved⟩

theorem nextVector_cut (h : f'.CutOf f) (type : FieldType) (n : Nat) (r : ColumnReader) :
    Follows (r.MovedWithin f'.size) (r.nextVector f' type n) (r.nextVector f type n) := by
  cases r with
  | constant uid v => exact .inl ⟨rfl, .refl _⟩
  | plain p =>
    rw [nextVector, nextVector]
    split
    · exact .inl ⟨rfl, .refl _⟩
    · rcases (PlainReader.readCells_cut h n p (.empty type)).cases with
        ⟨e, p', hread, he⟩ | ⟨result, p', hread, hread', hmoved⟩
      · rw [hread]
        exact .inr ⟨e, rfl, he⟩
      · rw [hread, hread']
        exact .inl ⟨rfl, movedWithin_plain hmoved⟩

end ColumnReader

/-! ### All columns -/

namespace ReaderTable

/-- The data stream of a column that is stored. -/
def data? (t : ReaderTable) (cid : ColumnId) : Option StreamReader := (t.lookup cid).bind ColumnReader.data?

/-- The data streams went on within the first `n` bytes of the file. -/
def MovedWithin (n : Nat) (t t' : ReaderTable) : Prop :=
  ∀ cid d', t'.data? cid = some d' → ∃ d, t.data? cid = some d ∧ d.MovedWithin n d'

variable {n : Nat} {t t' t'' : ReaderTable}

theorem MovedWithin.refl (t : ReaderTable) : t.MovedWithin n t := fun _ d hd => ⟨d, hd, .refl d⟩

theorem MovedWithin.trans (h : t.MovedWithin n t') (h' : t'.MovedWithin n t'') : t.MovedWithin n t'' := by
  intro cid d'' hd''
  obtain ⟨d', hd', hmoved'⟩ := h' cid d'' hd''
  obtain ⟨d, hd, hmoved⟩ := h cid d' hd'
  exact ⟨d, hd, hmoved.trans hmoved'⟩

theorem movedWithin_set {cid : ColumnId} {r r' : ColumnReader} (hlookup : t.lookup cid = some r)
    (h : r.MovedWithin n r') : t.MovedWithin n (t.set cid r') := by
  intro a d' hd'
  rw [data?, lookup_set] at hd'
  by_cases hsame : a = cid
  · subst hsame
    rw [if_pos rfl, hlookup] at hd'
    rw [data?, hlookup]
    exact h d' hd'
  · rw [if_neg hsame] at hd'
    exact ⟨d', hd', .refl d'⟩

end ReaderTable

namespace SegmentReader

open ReaderTable

/-- What is fatal is not taken for an end of the data. -/
theorem seekFailure_fatal (uid : UniqueId) (block : Nat) {e : StorageError} (he : e.Fatal) :
    (seekFailure uid block e).Fatal := by
  cases e with
  | streamEof => exact absurd rfl he.ne_streamEof
  | overflow => exact .overflow
  | _ => exact .columnSeek uid block

theorem seekColumns_cut (h : f'.CutOf f) (o : OpenSegment) (block : Nat) (ids : List ColumnId) (t : ReaderTable) :
    Follows (t.MovedWithin f'.size) (seekColumns f' o block ids t) (seekColumns f o block ids t) := by
  induction ids generalizing t with
  | nil => exact .inl ⟨rfl, .refl t⟩
  | cons cid ids ih =>
    rw [seekColumns, seekColumns]
    cases (o.mapping.uniqueId? cid).bind o.indexes.zoneMap? with
    | none => exact ih t
    | some z =>
      dsimp only
      cases hlookup : t.lookup cid with
      | none => exact .inl ⟨rfl, .refl t⟩
      | some r =>
        dsimp only
        rcases (r.seek_cut h (z.entries[block]?.getD default).positions).cases with
          ⟨e, r', hseek, he⟩ | ⟨result, r', hseek, hseek', hmoved⟩
        · rw [hseek]
          exact .inr ⟨_, rfl, seekFailure_fatal _ block he⟩
        · have hset := movedWithin_set hlookup hmoved
          rw [hseek, hseek']
          cases result with
          | ok _ => exact (ih (t.set cid r')).mono fun _ => hset.trans
          | error e => exact .inl ⟨rfl, hset⟩

theorem readColumns_cut (h : f'.CutOf f) (rows : Nat) (cs : List BatchColumn) (i : Nat) (t : ReaderTable)
    (batch : RowBatch) :
    Follows (fun x : ReaderTable × RowBatch => t.MovedWithin f'.size x.1) (readColumns f' rows cs i t batch)
      (readColumns f rows cs i t batch) := by
  induction cs generalizing i t batch with
  | nil => exact .inl ⟨rfl, .refl t⟩
  | cons c cs ih =>
    rw [readColumns, readColumns]
    cases hlookup : t.lookup c.id with
    | none => exact .inl ⟨rfl, .refl t⟩
    | some r =>
      dsimp only
      rcases (r.nextVector_cut h c.type rows).cases with ⟨e, r', hnext, he⟩ | ⟨result, r', hnext, hnext', hmoved⟩
      · rw [hnext]
        exact .inr ⟨e, rfl, he⟩
      · have hset := movedWithin_set hlookup hmoved
        rw [hnext, hnext']
        cases result with
        | error e => exact .inl ⟨rfl, hset⟩
        | ok v => exact (ih (i + 1) (t.set c.id r') (batch.setVector i v)).mono fun _ => hset.trans

variable {r : SegmentReader} {t : ReaderTable} {o : OpenSegment} {g g' : SegmentGroup}

theorem positionColumns_cut (h : f'.CutOf f) (hreaders : r.readers? = some t) (o : OpenSegment) (batch : RowBatch) :
    Follows (fun r' => ∃ t', r'.readers? = some t' ∧ t.MovedWithin f'.size t')
      (r.positionColumns f' o t batch) (r.positionColumns f o t batch) := by
  rw [positionColumns, positionColumns]
  dsimp only
  split
  · rcases (seekColumns_cut h o r.cursor.next batch.columnIds t).cases with
      ⟨e, t', hseek, he⟩ | ⟨result, t', hseek, hseek', hmoved⟩
    · rw [hseek]
      exact .inr ⟨e, rfl, he⟩
    · rw [hseek, hseek']
      cases result <;> exact .inl ⟨rfl, t', rfl, hmoved⟩
  · exact .inl ⟨rfl, t, hreaders, .refl t⟩

theorem loadBlock_cut (h : f'.CutOf f) (r : SegmentReader) (o : OpenSegment) (t : ReaderTable) (batch : RowBatch) :
    Follows (fun x : SegmentReader × RowBatch => ∃ t', x.1.readers? = some t' ∧ t.MovedWithin f'.size t')
      (r.loadBlock f' o t batch) (r.loadBlock f o t batch) := by
  rw [loadBlock, loadBlock]
  dsimp only
  rcases (readColumns_cut h (rowsToLoad o r.cursor.current batch.capacity) batch.columns 0 t batch).cases with
    ⟨e, x, hread, he⟩ | ⟨result, x, hread, hread', hmoved⟩
  · rw [hread]
    exact .inr ⟨e, rfl, he⟩
  · rw [hread, hread']
    cases result <;> exact .inl ⟨rfl, x.1, rfl, hmoved⟩

/-- A call to a group whose file is cut off gives what it gives of the whole file, or fails. -/
theorem getBlock_cut (ho : r.segment? = some o) (hreaders : r.readers? = some t)
    (h : SegmentFile.CutOf ⟨r.context.options.backend, g'.files.content o.file⟩
      ⟨r.context.options.backend, g.files.content o.file⟩) (batch : RowBatch) (stats : ScanStatistics) :
    Follows (fun x : SegmentReader × RowBatch × ScanStatistics => ∃ t', x.1.readers? = some t'
        ∧ t.MovedWithin (g'.files.content o.file).size t')
      (r.getBlock batch g' stats) (r.getBlock batch g stats) := by
  rw [getBlock, getBlock, ho, hreaders]
  split
  · exact .inl ⟨rfl, t, hreaders, .refl t⟩
  dsimp only
  rcases (positionColumns_cut h hreaders o batch).cases with
    ⟨e, r₁, hposition, he⟩ | ⟨result, r₁, hposition, hposition', t₁, ht₁, hmoved₁⟩
  · -- only an end of the data would be taken for the end of the scan
    rw [hposition]
    dsimp only
    rw [if_neg he.ne_dataEof]
    exact .inr ⟨e, rfl, he⟩
  rw [hposition, hposition']
  cases result with
  | error e =>
    dsimp only
    split <;> exact .inl ⟨rfl, t₁, ht₁, hmoved₁⟩
  | ok _ =>
    dsimp only
    rw [ht₁, Option.getD_some]
    rcases (loadBlock_cut h r₁ o t₁ batch).cases with
      ⟨e, x, hload, he⟩ | ⟨result, x, hload, hload', t₂, ht₂, hmoved₂⟩
    · rw [hload]
      exact .inr ⟨e, rfl, he⟩
    · rw [hload, hload']
      have hmoved := hmoved₁.trans hmoved₂
      cases result <;> exact .inl ⟨rfl, t₂, ht₂, hmoved⟩

end SegmentReader

end SegmentStore
