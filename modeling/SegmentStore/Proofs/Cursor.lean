import SegmentStore.Proofs.Chunks
import SegmentStore.Proofs.Header
import SegmentStore.Stream.Reader

/-!
# Reading back a chunked stream

* `StreamReader.Stores` says that the stream of a reader is the chunks of some contents, in a file.
* `StreamReader.Delivers` says what lies ahead of the cursor, wherever the chunks are cut.
* `StreamReader.read_delivers`, `StreamReader.seek_delivers` and `StreamReader.readAll_stores` are the
  laws of the three operations: reading takes what lies ahead, a position noted while writing leads to
  what was written after it, and reading all gives all.
-/

namespace SegmentStore

/-- What the compressor makes smaller, the decompressor undoes within the limit of a chunk. -/
def Undoes (compress? : Option (Bytes → Bytes)) (decompress? : Option Decompressor) (limit : Nat) :
    Prop :=
  ∀ compress, compress? = some compress → ∃ decompress, decompress? = some decompress ∧
    ∀ content : Bytes, content.length ≤ max limit 1 → (compress content).length < content.length →
      decompress limit (compress content) = .ok content

theorem undoes_none (decompress? : Option Decompressor) (limit : Nat) :
    Undoes none decompress? limit := by
  intro compress h
  simp at h

/-! ### Bytes at a place of a file -/

namespace SegmentFile

/-- The bytes stand in the file from `offset` on. -/
def HasAt (f : SegmentFile) (offset : Nat) (bs : Bytes) : Prop :=
  ∃ before after, f.toList = before ++ (bs ++ after) ∧ before.length = offset

variable {f : SegmentFile} {offset : Nat} {bs cs : Bytes}

theorem HasAt.left (h : f.HasAt offset (bs ++ cs)) : f.HasAt offset bs := by
  obtain ⟨before, after, hf, hoffset⟩ := h
  exact ⟨before, cs ++ after, by rw [hf, List.append_assoc], hoffset⟩

theorem HasAt.right (h : f.HasAt offset (bs ++ cs)) : f.HasAt (offset + bs.length) cs := by
  obtain ⟨before, after, hf, hoffset⟩ := h
  exact ⟨before ++ bs, after, by rw [hf, List.append_assoc, List.append_assoc],
    by rw [List.length_append, hoffset]⟩

theorem HasAt.cut (h : f.HasAt offset bs) : (f.toList.drop offset).take bs.length = bs := by
  obtain ⟨before, after, hf, hoffset⟩ := h
  rw [hf, ← hoffset, List.drop_left, List.take_left]

theorem HasAt.readAt (h : f.HasAt offset bs) (hoffset : offset < 2 ^ 63) :
    f.readAt offset bs.length = .ok bs := by
  have hcut := h.cut
  obtain ⟨before, after, hf, hbefore⟩ := h
  have hsize : f.size = before.length + (bs.length + after.length) := by
    rw [← length_toList, hf, List.length_append, List.length_append]
  rw [readAt_eq_ok f (by omega) (by omega), hcut]

end SegmentFile

namespace StreamReader

open Decoder StreamWriter

variable {f : SegmentFile} {compress? : Option (Bytes → Bytes)} {cs : List Bytes} {s : StreamReader}

/-! ### One chunk -/

/-- The head of a chunk. -/
def headBytes (compressed : Bool) (payload : Bytes) : Bytes :=
  u32Bytes (UInt32.ofNat payload.length) ++ ([flagByte compressed] ++ u32Bytes (crc32 payload))

theorem length_headBytes (compressed : Bool) (payload : Bytes) :
    (headBytes compressed payload).length = chunkHeadSize := by
  simp [headBytes, u32Bytes, chunkHeadSize]

theorem encodeChunk_eq (compressed : Bool) (payload : Bytes) :
    encodeChunk compressed payload = headBytes compressed payload ++ payload := by
  simp [encodeChunk, headBytes]

theorem length_encodeChunk (compressed : Bool) (payload : Bytes) :
    (encodeChunk compressed payload).length = 9 + payload.length := by
  rw [encodeChunk_eq, List.length_append, length_headBytes, chunkHeadSize]

theorem reads_headBytes (compressed : Bool) (payload : Bytes) :
    Reads decodeHead ⟨UInt32.ofNat payload.length, compressed, crc32 payload⟩
      (headBytes compressed payload) :=
  (reads_u32 _).bind ((reads_flag compressed).bind (reads_u32 (crc32 payload)).map)

/-- The content of a chunk, from its payload. -/
def unpack (s : StreamReader) (compressed : Bool) (payload : Bytes) : Except StorageError Bytes :=
  if compressed then
    match s.decompress? with
    | none => .error (.format .unexpectedCompression)
    | some decompress => liftFault (decompress s.bufferSize payload)
  else .ok payload

/-- A chunk that lies within the stream is found, and its payload unpacked. -/
theorem readChunk_encodeChunk {k : Nat} {compressed : Bool} {payload : Bytes}
    (hfile : f.HasAt (s.offset.toNat + k) (encodeChunk compressed payload))
    (hend : k + (encodeChunk compressed payload).length ≤ s.length.toNat)
    (hbounded : s.offset.toNat + s.length.toNat < 2 ^ 63) (hpayload : payload.length < 2 ^ 32) :
    s.readChunk f (UInt64.ofNat k)
      = (s.unpack compressed payload).map fun c => (c, UInt64.ofNat payload.length) := by
  rw [length_encodeChunk] at hend
  rw [encodeChunk_eq] at hfile
  have hk : (UInt64.ofNat k).toNat = k := toNat_ofNat_u64 (by omega)
  have hk9 : (UInt64.ofNat k + 9).toNat = k + 9 := by
    rw [UInt64.toNat_add, hk]
    exact Nat.mod_eq_of_lt (by simp; omega)
  have hplace : (s.offset + UInt64.ofNat k).toNat = s.offset.toNat + k := by
    rw [toNat_add_u64 (by omega), hk]
  have hplace9 : (s.offset + (UInt64.ofNat k + 9)).toNat = s.offset.toNat + k + 9 := by
    rw [toNat_add_u64 (by omega), hk9, Nat.add_assoc]
  have hlen : (UInt32.ofNat payload.length).toNat = payload.length := toNat_ofNat_u32 hpayload
  have hword : (UInt32.ofNat payload.length).toUInt64 = UInt64.ofNat payload.length := by
    apply UInt64.toNat_inj.mp
    rw [UInt32.toNat_toUInt64, hlen, toNat_ofNat_u64 (by omega)]
  have hword' : (UInt64.ofNat payload.length).toNat = payload.length := toNat_ofNat_u64 (by omega)
  have hpast : (UInt64.ofNat k + 9 + UInt64.ofNat payload.length).toNat = k + 9 + payload.length := by
    rw [toNat_add_u64 (by omega), hk9, hword']
  have hsum9 : plus (UInt64.ofNat k) 9 = .ok (UInt64.ofNat k + 9) := plus_eq (by rw [hk]; simp; omega)
  have hsum : plus s.offset (UInt64.ofNat k) = .ok (s.offset + UInt64.ofNat k) := plus_eq (by omega)
  have hsumPast : plus (UInt64.ofNat k + 9) (UInt64.ofNat payload.length)
      = .ok (UInt64.ofNat k + 9 + UInt64.ofNat payload.length) := plus_eq (by omega)
  have hsumPayload : plus s.offset (UInt64.ofNat k + 9) = .ok (s.offset + (UInt64.ofNat k + 9)) := plus_eq (by omega)
  have hin : ¬s.length ≤ UInt64.ofNat k := by rw [UInt64.le_iff_toNat_le, hk]; omega
  have hhead : ¬s.length < UInt64.ofNat k + 9 := by rw [UInt64.lt_iff_toNat_lt, hk9]; omega
  have hover : ¬s.length < UInt64.ofNat k + 9 + UInt64.ofNat payload.length := by
    rw [UInt64.lt_iff_toNat_lt, hpast]
    omega
  have hreadHead : f.readAt (s.offset.toNat + k) chunkHeadSize = .ok (headBytes compressed payload) := by
    have h := hfile.left.readAt (by omega)
    rwa [length_headBytes] at h
  have hreadPayload : f.readAt (s.offset.toNat + k + 9) payload.length = .ok payload := by
    have h := hfile.right
    rw [length_headBytes] at h
    exact h.readAt (by simp only [chunkHeadSize]; omega)
  simp only [readChunk, hin, hsum9, hhead, if_false, hsum, hplace, hreadHead,
    (reads_headBytes compressed payload).apply_self, liftFault, hword, hsumPast, hover, hsumPayload, hplace9,
    hword', hreadPayload, SegmentHeader.verify_crc32, bind, Except.bind, pure, Except.pure]
  cases compressed with
  | false => rfl
  | true =>
    simp only [unpack, if_true]
    cases s.decompress? with
    | none => rfl
    | some decompress =>
      show Except.bind (liftFault (decompress s.bufferSize payload)) _
        = (liftFault (decompress s.bufferSize payload)).map _
      cases liftFault (decompress s.bufferSize payload) <;> rfl

/-! ### The stream of a reader -/

/-- The stream of the reader is the chunks of the contents `cs`, in the file `f`. -/
structure Stores (s : StreamReader) (f : SegmentFile) (compress? : Option (Bytes → Bytes))
    (cs : List Bytes) : Prop where
  held : f.HasAt s.offset.toNat (chunkBytes compress? cs)
  length_eq : s.length.toNat = (chunkBytes compress? cs).length
  bounded : s.offset.toNat + s.length.toNat < 2 ^ 63
  length_le : ∀ c ∈ cs, c.length ≤ max s.bufferSize 1
  narrow : max s.bufferSize 1 < 2 ^ 32
  undoes : Undoes compress? s.decompress? s.bufferSize

/-- The cursor does not matter. -/
theorem Stores.move (h : s.Stores f compress? cs) (pending : Bytes) (nextChunk : UInt64)
    (traffic : Traffic) :
    { s with pending, nextChunk, traffic : StreamReader }.Stores f compress? cs :=
  ⟨h.held, h.length_eq, h.bounded, h.length_le, h.narrow, h.undoes⟩

/-- The chunk of a content: some payload that unpacks to it. -/
theorem Stores.chunkOf_eq (h : s.Stores f compress? cs) {c : Bytes} (hc : c ∈ cs) :
    ∃ compressed payload, chunkOf compress? c = encodeChunk compressed payload
      ∧ payload.length < 2 ^ 32 ∧ s.unpack compressed payload = .ok c := by
  have hlength := h.length_le c hc
  have hnarrow := h.narrow
  rcases hcompress : compress? with _ | compress
  · exact ⟨false, c, rfl, by omega, rfl⟩
  · by_cases hsmaller : (compress c).length < c.length
    · obtain ⟨decompress, hsome, hundo⟩ := h.undoes compress hcompress
      refine ⟨true, compress c, by simp [chunkOf, hsmaller], by omega, ?_⟩
      simp only [unpack, if_true, hsome, hundo c hlength hsmaller, liftFault]
    · exact ⟨false, c, by simp [chunkOf, hsmaller], by omega, rfl⟩

/-- The chunk behind those of `done` is brought in. -/
theorem Stores.load {done rest : List Bytes} {c : Bytes}
    (h : s.Stores f compress? (done ++ c :: rest)) :
    ∃ s', s.load f (UInt64.ofNat (chunkBytes compress? done).length) = .ok s'
      ∧ s'.Stores f compress? (done ++ c :: rest) ∧ s'.pending = c
      ∧ s'.nextChunk.toNat = (chunkBytes compress? (done ++ [c])).length := by
  obtain ⟨compressed, payload, hchunk, hpayload, hunpack⟩ :=
    h.chunkOf_eq (c := c) (by simp)
  have hheld := h.held
  have hlength := h.length_eq
  have hbounded := h.bounded
  rw [chunkBytes_append, chunkBytes_cons, hchunk] at hheld hlength
  rw [List.length_append, List.length_append] at hlength
  have hread := readChunk_encodeChunk hheld.right.left (by omega) h.bounded hpayload
  rw [hunpack] at hread
  rw [length_encodeChunk] at hlength
  let s' : StreamReader := { s with
    pending := c
    nextChunk := UInt64.ofNat (chunkBytes compress? done).length + 9 + UInt64.ofNat payload.length
    traffic := s.traffic.add ⟨(UInt64.ofNat payload.length).toNat, c.length⟩ }
  refine ⟨s', ?_, h.move _ _ _, rfl, ?_⟩
  · rw [StreamReader.load, hread]
    rfl
  · have hdone : (UInt64.ofNat (chunkBytes compress? done).length).toNat
        = (chunkBytes compress? done).length := toNat_ofNat_u64 (by omega)
    have hword : (UInt64.ofNat payload.length).toNat = payload.length := toNat_ofNat_u64 (by omega)
    rw [chunkBytes_append, chunkBytes_cons, hchunk]
    show (UInt64.ofNat (chunkBytes compress? done).length + 9 + UInt64.ofNat payload.length).toNat = _
    rw [UInt64.toNat_add, UInt64.toNat_add, hdone, hword]
    rw [chunkBytes_nil, List.append_nil, List.length_append, length_encodeChunk,
      show (9 : UInt64).toNat = 9 from rfl]
    omega

/-! ### What lies ahead -/

/-- The stream is stored in the file, and what lies ahead of the cursor is `data`. -/
def Delivers (s : StreamReader) (f : SegmentFile) (compress? : Option (Bytes → Bytes))
    (cs : List Bytes) (data : Bytes) : Prop :=
  s.Stores f compress? cs ∧ ∃ done rest, cs = done ++ rest
    ∧ s.nextChunk.toNat = (chunkBytes compress? done).length ∧ data = s.pending ++ rest.flatten

/-- Each chunk takes bytes of the stream, so there are fewer chunks than bytes. -/
theorem length_le_chunkBytes (compress? : Option (Bytes → Bytes)) (cs : List Bytes) :
    cs.length ≤ (chunkBytes compress? cs).length := by
  induction cs with
  | nil => simp
  | cons c cs ih =>
    have hpos : 0 < (chunkOf compress? c).length := by
      unfold chunkOf
      cases compress? with
      | none => simp [length_encodeChunk]
      | some compress =>
        simp only
        split <;> simp [length_encodeChunk]
    rw [chunkBytes_cons, List.length_append, List.length_cons]
    omega

/-- Reading with enough fuel takes the bytes that lie ahead, chunk after chunk. -/
theorem readFrom_delivers (acc : Bytes) {fuel : Nat} {x data : Bytes} {done rest : List Bytes}
    (h : s.Stores f compress? cs) (hcs : cs = done ++ rest)
    (hnext : s.nextChunk.toNat = (chunkBytes compress? done).length)
    (hahead : s.pending ++ rest.flatten = x ++ data) (hfuel : rest.length < fuel) :
    ∃ s', s.readFrom f x.length acc fuel = (.ok (acc ++ x), s') ∧ s'.Delivers f compress? cs data := by
  induction fuel generalizing s acc x done rest with
  | zero => omega
  | succ fuel ih =>
    by_cases hshort : x.length ≤ s.pending.length
    · -- the chunk at hand holds all that is wanted
      have htake : s.pending.take x.length = x := by
        have := congrArg (List.take x.length) hahead
        rwa [List.take_append_of_le_length hshort, List.take_left] at this
      have hdrop : s.pending.drop x.length ++ rest.flatten = data := by
        have := congrArg (List.drop x.length) hahead
        rwa [List.drop_append_of_le_length hshort, List.drop_left] at this
      refine ⟨{ s with pending := s.pending.drop x.length }, ?_, h.move _ _ _, done, rest, hcs, hnext,
        hdrop.symm⟩
      simp only [readFrom, htake, Nat.sub_self, if_true]
    · -- the chunk at hand is used up, and another one brought in
      obtain ⟨y, hy⟩ : ∃ y, x = s.pending ++ y := by
        have := congrArg (List.take s.pending.length) hahead
        rw [List.take_left, List.take_append_of_le_length (by omega)] at this
        exact ⟨x.drop s.pending.length, by
          nth_rewrite 1 [← List.take_append_drop s.pending.length x]
          rw [← this]⟩
      have hrest : rest.flatten = y ++ data := by
        rw [hy, List.append_assoc] at hahead
        exact List.append_cancel_left hahead
      have hlen : x.length = s.pending.length + y.length := by rw [hy, List.length_append]
      have htake : s.pending.take x.length = s.pending := List.take_of_length_le (by omega)
      have hleft : x.length - s.pending.length = y.length := by omega
      have hne : ¬y.length = 0 := by omega
      rcases rest with _ | ⟨c, rest⟩
      · have := congrArg List.length hrest
        simp only [List.flatten_nil, List.length_nil, List.length_append] at this
        omega
      · have hmoved := h.move (s.pending.drop x.length) s.nextChunk s.traffic
        rw [hcs] at hmoved
        obtain ⟨s', hload, hstores, hpending, hnext'⟩ := hmoved.load
        rw [← hnext, UInt64.ofNat_toNat] at hload
        rw [← hcs] at hstores
        have hcs' : cs = (done ++ [c]) ++ rest := by rw [hcs, List.append_assoc]; rfl
        have hahead' : s'.pending ++ rest.flatten = y ++ data := by
          rw [hpending, ← hrest, List.flatten_cons]
        rw [List.length_cons] at hfuel
        obtain ⟨t, hread, ht⟩ := ih (acc ++ s.pending) hstores hcs' hnext' hahead' (by omega)
        refine ⟨t, ?_, ht⟩
        simp only [readFrom, htake, hleft, hne, if_false, hload, hread]
        rw [hy, List.append_assoc]

/-- Reading takes the bytes that lie ahead. -/
theorem read_delivers {x data : Bytes} (h : s.Delivers f compress? cs (x ++ data)) :
    ∃ s', s.read f x.length = (.ok x, s') ∧ s'.Delivers f compress? cs data := by
  obtain ⟨hstores, done, rest, hcs, hnext, hahead⟩ := h
  have hfuel : rest.length < s.length.toNat + 2 := by
    have hall := length_le_chunkBytes compress? cs
    rw [← hstores.length_eq, hcs, List.length_append] at hall
    omega
  obtain ⟨s', hread, hs'⟩ := readFrom_delivers [] hstores hcs hnext hahead.symm hfuel
  exact ⟨s', by simpa [read] using hread, hs'⟩

theorem readByte_delivers {b : UInt8} {data : Bytes} (h : s.Delivers f compress? cs (b :: data)) :
    ∃ s', s.readByte f = (.ok b, s') ∧ s'.Delivers f compress? cs data := by
  obtain ⟨s', hread, hs'⟩ := read_delivers (x := [b]) h
  refine ⟨s', ?_, hs'⟩
  rw [List.length_singleton] at hread
  rw [readByte, hread]

/-! ### Seeking -/

/-- A place inside a chunk, and what lies ahead there. -/
theorem seek_chunk {done rest : List Bytes} {c : Bytes} {k : Nat}
    (h : s.Stores f compress? (done ++ c :: rest)) (hk : k ≤ c.length) :
    ∃ s', s.seek f (UInt64.ofNat (chunkBytes compress? done).length) (UInt64.ofNat k) = (.ok (), s')
      ∧ s'.Delivers f compress? (done ++ c :: rest) (c.drop k ++ rest.flatten) := by
  obtain ⟨t, hload, hstores, hpending, hnext⟩ := h.load
  have hc := h.length_le c (by simp)
  have hnarrow := h.narrow
  have hk' : (UInt64.ofNat k).toNat = k := toNat_ofNat_u64 (by omega)
  have hfits : ¬t.pending.length < k := by rw [hpending]; omega
  refine ⟨{ t with pending := t.pending.drop k }, ?_, hstores.move _ _ _, done ++ [c], rest, ?_, hnext,
    ?_⟩
  · simp only [seek, hload, hk', hfits, if_false]
  · rw [List.append_assoc]
    rfl
  · rw [hpending]

/-- A position noted while writing leads to what was written after it. -/
theorem seek_delivers {limit : Nat} {data more : Bytes} (hmore : more ≠ [])
    (h : s.Stores f compress? (pieces (max limit 1) (data ++ more))) :
    ∃ s', s.seek f (UInt64.ofNat ((empty compress? limit).write data).position.1)
        (UInt64.ofNat ((empty compress? limit).write data).position.2) = (.ok (), s')
      ∧ s'.Delivers f compress? (pieces (max limit 1) (data ++ more)) more := by
  obtain ⟨c, later, hpieces, hk, hahead⟩ :=
    pieces_append (Nat.lt_of_lt_of_le Nat.one_pos (Nat.le_max_right limit 1)) data hmore
  rw [hpieces] at h ⊢
  rw [position_write]
  obtain ⟨s', hseek, hs'⟩ := seek_chunk h hk
  rw [hahead] at hs'
  exact ⟨s', hseek, hs'⟩

/-! ### Reading all -/

/-- A chunk starts within the stream, behind those before it. -/
theorem Stores.start_lt {done rest : List Bytes} {c : Bytes} (h : s.Stores f compress? (done ++ c :: rest)) :
    UInt64.ofNat (chunkBytes compress? done).length < s.length := by
  have hlength := h.length_eq
  have hbounded := h.bounded
  have hpos := length_le_chunkBytes compress? (c :: rest)
  rw [chunkBytes_append, List.length_append] at hlength
  rw [List.length_cons] at hpos
  rw [UInt64.lt_iff_toNat_lt, toNat_ofNat_u64 (by omega), hlength]
  omega

/-- Reading chunk after chunk gives the contents of all of them. -/
theorem readChunks_stores (acc : Array UInt8) {fuel : Nat} (done : List Bytes) {rest : List Bytes}
    (h : s.Stores f compress? (done ++ rest)) (hfuel : rest.length < fuel) :
    (s.readChunks f acc (UInt64.ofNat (chunkBytes compress? done).length) fuel).1
      = .ok (acc.toList ++ rest.flatten) := by
  have hlength := h.length_eq
  have hbounded := h.bounded
  rw [chunkBytes_append, List.length_append] at hlength
  have hdone : (UInt64.ofNat (chunkBytes compress? done).length).toNat
      = (chunkBytes compress? done).length := toNat_ofNat_u64 (by omega)
  induction fuel generalizing s acc done rest with
  | zero => omega
  | succ fuel ih =>
    rcases rest with _ | ⟨c, rest⟩
    · have hend : ¬UInt64.ofNat (chunkBytes compress? done).length < s.length := by
        rw [UInt64.lt_iff_toNat_lt, hdone, hlength]
        simp [chunkBytes]
      simp [readChunks, hend]
    · have hin := h.start_lt
      obtain ⟨s', hload, hstores, hpending, hnext⟩ := h.load
      have hcs : done ++ c :: rest = (done ++ [c]) ++ rest := by simp
      rw [hcs] at hstores
      have hlength' := hstores.length_eq
      have hbounded' := hstores.bounded
      rw [chunkBytes_append, List.length_append] at hlength'
      rw [List.length_cons] at hfuel
      simp only [readChunks, hin, if_true, hload]
      have hword : s'.nextChunk = UInt64.ofNat (chunkBytes compress? (done ++ [c])).length := by
        rw [← hnext, UInt64.ofNat_toNat]
      rw [hword, ih _ _ hstores (by omega) hlength' hbounded' (toNat_ofNat_u64 (by omega)), hpending]
      simp

/-- Reading all gives the contents of all chunks. -/
theorem readAll_stores (h : s.Stores f compress? cs) : (s.readAll f).1 = .ok cs.flatten := by
  have hfuel : cs.length < s.length.toNat + 1 := by
    have hall := length_le_chunkBytes compress? cs
    have := h.length_eq
    omega
  have hread := readChunks_stores #[] [] h hfuel
  simpa [readAll, chunkBytes] using hread

end StreamReader

end SegmentStore
