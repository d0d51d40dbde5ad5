import SegmentStore.Proofs.Failures

/-!
# What is read through any backend

Backends refuse in different ways what a file does not have, but whatever one of them reads, the others read as well.
No file is so long that its positions could not be moved to.

* `SegmentFile.SameContent` relates a file to the same file read in another way.
* `SegmentHeader.readFrom_backend` and `StreamReader.readAll_backend` say that headers and streams are then the same,
  where they can be read.
-/

namespace SegmentStore

theorem toOption_bind {ε α β : Type} (x : Except ε α) (f : α → Except ε β) :
    (x >>= f).toOption = x.toOption.bind fun a => (f a).toOption := by
  cases x <;> rfl

/-- Steps that go on from the same result need to agree there only. -/
theorem toOption_bind_congr {ε α β : Type} {f g : α → Except ε β} (x : Except ε α)
    (h : ∀ a, x = .ok a → (f a).toOption = (g a).toOption) : (x >>= f).toOption = (x >>= g).toOption := by
  cases x with
  | error e => rfl
  | ok a => exact h a rfl

theorem toOption_eq_some {ε α : Type} {x : Except ε α} {a : α} : x.toOption = some a ↔ x = .ok a := by
  cases x with
  | error e => exact iff_of_false (fun h => absurd h.symm (Option.some_ne_none a)) fun h => by cases h
  | ok b => exact ⟨fun h => congrArg Except.ok (Option.some.inj h), fun h => congrArg some (Except.ok.inj h)⟩

/-! ### Reading a range -/

namespace SegmentFile

/-- The same file, read in one way and in another. -/
structure SameContent (f f' : SegmentFile) : Prop where
  content : f.content = f'.content
  bounded : f.size < 2 ^ 63

variable {f f' : SegmentFile}

theorem SameContent.size (h : f.SameContent f') : f.size = f'.size := by
  rw [SegmentFile.size, SegmentFile.size, h.content]

theorem SameContent.symm (h : f.SameContent f') : f'.SameContent f := ⟨h.content.symm, h.size ▸ h.bounded⟩

/-- A range that does not start after the end of the file is read when it lies within the file. -/
theorem readAt_toOption (hbounded : f.size < 2 ^ 63) {offset length : Nat}
    (hstart : length ≠ 0 ∨ offset ≤ f.size) :
    (f.readAt offset length).toOption
      = if offset + length ≤ f.size then some ((f.toList.drop offset).take length) else none := by
  by_cases hfit : offset + length ≤ f.size
  · rw [if_pos hfit, readAt_eq_ok f hfit (by omega)]
    rfl
  · have hlength : length ≠ 0 := by omega
    have hmissing : f.size < offset + length := by omega
    rw [if_neg hfit, readAt]
    simp only [hlength, hmissing, if_true, if_false]
    split
    · rfl
    · rfl
    · split <;> rfl

theorem readAt_backend (h : f.SameContent f') {offset length : Nat}
    (hstart : length ≠ 0 ∨ offset ≤ f.size) :
    (f.readAt offset length).toOption = (f'.readAt offset length).toOption := by
  have hlist : f.toList = f'.toList := by rw [toList, toList, h.content]
  rw [readAt_toOption h.bounded hstart, readAt_toOption h.symm.bounded (h.size ▸ hstart), h.size, hlist]

/-- Bytes that were read lie within the file. -/
theorem le_size_of_readAt (hbounded : f.size < 2 ^ 63) {offset length : Nat} {bs : Bytes}
    (hlength : length ≠ 0) (h : f.readAt offset length = .ok bs) : offset + length ≤ f.size := by
  by_contra hmissing
  have hnone := readAt_toOption hbounded (.inl hlength : length ≠ 0 ∨ offset ≤ f.size)
  rw [h, if_neg hmissing] at hnone
  exact absurd hnone (Option.some_ne_none bs)

end SegmentFile

open SegmentFile

variable {f f' : SegmentFile}

/-! ### Headers -/

/-- A header that is read in one way is read in any. -/
theorem SegmentHeader.readFrom_backend (h : f.SameContent f') :
    (readFrom f).toOption = (readFrom f').toOption := by
  rw [readFrom, readFrom, h.size]
  by_cases hsmall : f'.size < prefixSize
  · simp only [hsmall, if_true]
    rfl
  have hstart : (f.readAt 0 prefixSize).toOption = (f'.readAt 0 prefixSize).toOption :=
    readAt_backend h (.inl (by decide))
  simp only [hsmall, if_false, toOption_bind, hstart]
  refine congrArg _ (funext fun start => congrArg _ (funext fun front => ?_))
  by_cases hlong : f'.size < prefixSize + front.1.bodyLength.toNat
  · simp only [hlong, if_true]
    rfl
  have hbody : (f.readAt prefixSize front.1.bodyLength.toNat).toOption
      = (f'.readAt prefixSize front.1.bodyLength.toNat).toOption := by
    apply readAt_backend h
    rw [h.size]
    omega
  simp only [hlong, if_false, toOption_bind, hbody]

/-! ### Streams -/

namespace StreamReader

variable {s : StreamReader}

/-- The payload of a chunk starts behind its head. -/
theorem start_payload {chunk start offset place : UInt64} (hstart : plus chunk 9 = .ok start)
    (hoffset : plus s.offset chunk = .ok offset) (hplace : plus s.offset start = .ok place) :
    place.toNat = offset.toNat + chunkHeadSize := by
  rw [toNat_of_plus hplace, toNat_of_plus hstart, toNat_of_plus hoffset, ← Nat.add_assoc]
  rfl

theorem readPayload_backend (h : f.SameContent f') {chunk start offset : UInt64} (head : ChunkHead)
    (hstart : plus chunk 9 = .ok start) (hoffset : plus s.offset chunk = .ok offset)
    (hhead : offset.toNat + chunkHeadSize ≤ f.size) :
    (s.readPayload f chunk start head).toOption = (s.readPayload f' chunk start head).toOption := by
  refine toOption_bind_congr _ fun stop _ => ?_
  split
  · rfl
  refine toOption_bind_congr _ fun place hplace => ?_
  have hread : (f.readAt place.toNat head.payloadLength.toUInt64.toNat).toOption
      = (f'.readAt place.toNat head.payloadLength.toUInt64.toNat).toOption := by
    apply readAt_backend h
    rw [start_payload hstart hoffset hplace]
    exact .inr hhead
  rw [toOption_bind, toOption_bind, hread]

/-- A chunk that is read in one way is read in any. -/
theorem readChunk_backend (h : f.SameContent f') (s : StreamReader) (chunk : UInt64) :
    (s.readChunk f chunk).toOption = (s.readChunk f' chunk).toOption := by
  rw [readChunk_eq, readChunk_eq]
  split
  · rfl
  refine toOption_bind_congr _ fun start hstart => ?_
  split
  · rfl
  refine toOption_bind_congr _ fun offset hoffset => ?_
  have hhead : (f.readAt offset.toNat chunkHeadSize).toOption = (f'.readAt offset.toNat chunkHeadSize).toOption :=
    readAt_backend h (.inl (by decide))
  cases hread : f.readAt offset.toNat chunkHeadSize with
  | error e =>
    rw [hread] at hhead
    rw [toOption_bind, toOption_bind, ← hhead]
    rfl
  | ok bs =>
    have hfits := le_size_of_readAt h.bounded (by decide) hread
    rw [hread] at hhead
    rw [toOption_bind, toOption_bind, ← hhead]
    show (liftFault (decodeHead bs) >>= fun head => s.readPayload f chunk start head.1).toOption
      = (liftFault (decodeHead bs) >>= fun head => s.readPayload f' chunk start head.1).toOption
    simp only [toOption_bind, readPayload_backend h _ hstart hoffset hfits]

theorem load_backend (h : f.SameContent f') (s : StreamReader) (chunk : UInt64) :
    (s.load f chunk).toOption = (s.load f' chunk).toOption := by
  rw [load, load, toOption_bind, toOption_bind, readChunk_backend h]

theorem readChunks_backend (h : f.SameContent f') (acc : Array UInt8) (s : StreamReader) (chunk : UInt64)
    (fuel : Nat) :
    (s.readChunks f acc chunk fuel).1.toOption = (s.readChunks f' acc chunk fuel).1.toOption := by
  induction fuel generalizing acc s chunk with
  | zero => rfl
  | succ fuel ih =>
    have hload := load_backend h s chunk
    rw [readChunks, readChunks]
    split
    · cases hf : s.load f chunk with
      | error e =>
        cases hf' : s.load f' chunk with
        | error e' => rfl
        | ok s' =>
          rw [hf, hf'] at hload
          exact absurd hload.symm (Option.some_ne_none s')
      | ok s' =>
        rw [hf] at hload
        rw [toOption_eq_some.mp hload.symm]
        exact ih _ _ _
    · rfl

/-- A stream that is read in one way is read in any. -/
theorem readAll_backend (h : f.SameContent f') (s : StreamReader) :
    (s.readAll f).1.toOption = (s.readAll f').1.toOption :=
  readChunks_backend h _ s _ _

end StreamReader

end SegmentStore
