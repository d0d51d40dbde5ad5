import SegmentStore.Proofs.Chains

/-!
# Writing a stream and reading it back

Bytes are handed over to a stream in pieces, cut into chunks, and read in other pieces. None of the cuts shows.

* `StreamWriter.Copies` is the loop of handing over some bytes, turn by turn. `StreamWriter.copies_iff` says that it ends,
  and as if the bytes came one by one.
* `StreamReader.chain_written` is the chain of chunks of a written stream, at any place of a file.
* `StreamReader.seek_chain` and `StreamReader.seek_stop` say where a position leads: to a chunk, or to the end.
* `StreamReader.written_reads_back` says that a written stream is read back, as a whole and from each position that was
  noted while writing.
-/

namespace SegmentStore

/-! ### Handing over bytes -/

namespace StreamWriter

variable {w w' : StreamWriter}

/-- How many bytes go into the chunk being filled. -/
def room (w : StreamWriter) : Nat := w.bufferSize - w.current.size

/-- Puts as many bytes into the chunk being filled as there is room for, and writes it out once it is full. -/
def fill (w : StreamWriter) (bs : Bytes) : StreamWriter :=
  let w := { w with current := w.current ++ bs.take w.room }
  if w.current.size = w.bufferSize then w.spill else w

/-- The loop of handing over some bytes, with the writer behind it: each turn fills the chunk at hand. -/
inductive Copies : StreamWriter → Bytes → StreamWriter → Prop
  | done {w : StreamWriter} : Copies w [] w
  | turn {w w' : StreamWriter} {bs : Bytes} : bs ≠ [] → Copies (w.fill bs) (bs.drop w.room) w' → Copies w bs w'

/-- Handing over some bytes, and then more. -/
inductive CopiesEach : StreamWriter → List Bytes → StreamWriter → Prop
  | done {w : StreamWriter} : CopiesEach w [] w
  | next {w u w' : StreamWriter} {bs : Bytes} {parts : List Bytes} :
      Copies w bs u → CopiesEach u parts w' → CopiesEach w (bs :: parts) w'

/-- There is room in the chunk being filled. -/
def Open (w : StreamWriter) : Prop := w.current.size < w.bufferSize

theorem open_empty (compress? : Option (Bytes → Bytes)) (limit : Nat) : (empty compress? limit).Open := by
  show 0 < max limit 1
  omega

theorem Open.writeByte (h : w.Open) (b : UInt8) : (w.writeByte b).Open := by
  have hpushed : (w.current.push b).isEmpty = false := by simp [Array.isEmpty]
  have hopen : w.current.size < w.bufferSize := h
  rw [StreamWriter.writeByte]
  dsimp only
  split
  · show (spill _).current.size < (spill _).bufferSize
    simp only [spill, hpushed, Bool.false_eq_true, if_false]
    show 0 < w.bufferSize
    omega
  · rename_i hne
    show (w.current.push b).size < w.bufferSize
    rw [Array.size_push] at hne ⊢
    omega

theorem Open.write (h : w.Open) (bs : Bytes) : (w.write bs).Open := by
  induction bs generalizing w with
  | nil => exact h
  | cons b bs ih => exact ih (h.writeByte b)

/-- Bytes that do not fill the chunk stay in it. -/
theorem write_of_lt {bs : Bytes} (h : w.current.size + bs.length < w.bufferSize) :
    w.write bs = { w with current := w.current ++ bs } := by
  induction bs generalizing w with
  | nil =>
    show w = _
    simp
  | cons b bs ih =>
    rw [List.length_cons] at h
    have hbyte : w.writeByte b = { w with current := w.current.push b } := by
      have hne : ¬(w.current.push b).size = w.bufferSize := by
        rw [Array.size_push]
        omega
      rw [StreamWriter.writeByte]
      exact if_neg hne
    have hroom : (w.writeByte b).current.size + bs.length < (w.writeByte b).bufferSize := by
      rw [hbyte]
      show (w.current.push b).size + bs.length < w.bufferSize
      rw [Array.size_push]
      omega
    show (w.writeByte b).write bs = _
    rw [ih hroom, hbyte]
    simp

theorem push_appendList (bytes : Array UInt8) (bs : Bytes) (b : UInt8) :
    (bytes ++ bs).push b = bytes ++ (bs ++ [b]) := by
  apply Array.toList_inj.mp
  rw [Array.toList_push, Array.toList_appendList, Array.toList_appendList, List.append_assoc]

/-- A turn takes its bytes as if they came one by one. -/
theorem fill_eq (h : w.Open) (bs : Bytes) : w.fill bs = w.write (bs.take w.room) := by
  have hopen : w.current.size < w.bufferSize := h
  have hlength : (bs.take w.room).length ≤ w.bufferSize - w.current.size := by
    rw [List.length_take]
    exact Nat.min_le_left _ _
  have hsize := size_appendList w.current (bs.take w.room)
  rw [fill]
  dsimp only
  by_cases hfull : (w.current ++ bs.take w.room).size = w.bufferSize
  · rw [if_pos hfull]
    rw [hsize] at hfull
    -- the last of the bytes is the one that fills the chunk
    rcases List.eq_nil_or_concat (bs.take w.room) with hnil | ⟨front, b, hconcat⟩
    · rw [hnil, List.length_nil] at hfull
      omega
    · rw [List.concat_eq_append] at hconcat
      rw [hconcat, List.length_append, List.length_singleton] at hfull
      have hfront : w.write front = { w with current := w.current ++ front } := write_of_lt (by omega)
      have hfilled : ((w.current ++ front).push b).size = w.bufferSize := by
        rw [Array.size_push, size_appendList]
        omega
      rw [hconcat, write_append, write_singleton, hfront, StreamWriter.writeByte]
      dsimp only
      rw [if_pos hfilled, push_appendList]
  · rw [if_neg hfull]
    rw [hsize] at hfull
    exact (write_of_lt (by omega)).symm

/-- Handing over bytes ends, as if they came one by one. -/
theorem copies_iff (h : w.Open) {bs : Bytes} : w.Copies bs w' ↔ w' = w.write bs := by
  constructor
  · intro hcopies
    induction hcopies with
    | done => rfl
    | @turn w w' bs _ _ ih =>
      have hfill := fill_eq h bs
      rw [hfill] at ih
      rw [ih (h.write _), ← write_append, List.take_append_drop]
  · rintro rfl
    generalize hlength : bs.length = n
    induction n using Nat.strongRecOn generalizing w bs with
    | ind n ih =>
      by_cases hnil : bs = []
      · subst hnil
        exact .done
      · have hpos := List.length_pos_iff.mpr hnil
        have hroom : 0 < w.room := Nat.sub_pos_of_lt h
        have hfill := fill_eq h bs
        have hrest : (bs.drop w.room).length < n := by
          rw [List.length_drop]
          omega
        have hopen : (w.fill bs).Open := by
          rw [hfill]
          exact h.write _
        have hcopies := ih _ hrest hopen rfl
        rw [hfill, ← write_append, List.take_append_drop] at hcopies
        exact .turn hnil (hfill ▸ hcopies)

/-- It does not matter how bytes are split when they are handed over. -/
theorem copiesEach_iff (h : w.Open) {parts : List Bytes} : w.CopiesEach parts w' ↔ w' = w.write parts.flatten := by
  constructor
  · intro hcopies
    induction hcopies with
    | done => rfl
    | next hfirst _ ih =>
      obtain rfl := (copies_iff h).mp hfirst
      rw [ih (h.write _), List.flatten_cons, write_append]
  · rintro rfl
    induction parts generalizing w with
    | nil => exact .done
    | cons bs parts ih =>
      rw [List.flatten_cons, write_append]
      exact .next ((copies_iff h).mpr rfl) (ih (h.write bs))

end StreamWriter

/-! ### Where a cut falls -/

variable {α : Type} {size : Nat}

/-- A piece has just been put away exactly when the size divides the number of items. -/
theorem cut_snd_eq_nil_iff (hsize : 0 < size) (xs : List α) : (cut size xs).2 = [] ↔ size ∣ xs.length := by
  have hall := length_cut size xs
  have hroom := length_cut_lt hsize xs
  constructor
  · intro hnil
    rw [hnil, List.length_nil, Nat.add_zero] at hall
    exact ⟨_, hall.symm⟩
  · intro hdvd
    rw [← hall, Nat.dvd_add_right (Nat.dvd_mul_right _ _)] at hdvd
    exact List.eq_nil_of_length_eq_zero (Nat.eq_zero_of_dvd_of_lt hdvd hroom)

/-- Some items are all there are, and their number is divided by the size, exactly when nothing comes after them and no
piece is being filled. -/
theorem ends_full_iff (hsize : 0 < size) (xs more : List α) :
    xs.length = (xs ++ more).length ∧ size ∣ (xs ++ more).length ↔ more = [] ∧ (cut size xs).2 = [] := by
  rw [cut_snd_eq_nil_iff hsize, List.length_append, ← List.length_eq_zero_iff]
  constructor
  · rintro ⟨hall, hdvd⟩
    have hnone : more.length = 0 := by omega
    rw [hnone, Nat.add_zero] at hdvd
    exact ⟨hnone, hdvd⟩
  · rintro ⟨hnone, hdvd⟩
    rw [hnone, Nat.add_zero]
    exact ⟨rfl, hdvd⟩

/-- What comes after some items starts in a piece, right behind what is in it, unless nothing comes and no piece is being
filled. -/
theorem exists_piece (hsize : 0 < size) {xs more : List α} (h : ¬(more = [] ∧ (cut size xs).2 = [])) :
    ∃ c later, pieces size (xs ++ more) = (cut size xs).1 ++ c :: later
      ∧ (cut size xs).2.length ≤ c.length ∧ c.drop (cut size xs).2.length ++ later.flatten = more := by
  by_cases hmore : more = []
  · subst hmore
    have hne : ¬(cut size xs).2 = [] := fun hnil => h ⟨rfl, hnil⟩
    refine ⟨(cut size xs).2, [], ?_, le_rfl, by simp⟩
    rw [List.append_nil, pieces, if_neg hne]
  · exact pieces_append hsize xs hmore

/-! ### Reading back -/

namespace StreamReader

open StreamWriter

variable {f : SegmentFile} {s : StreamReader} {chunk byte : UInt64} {c : Bytes} {cs : List Bytes} {e : StorageError}
variable {compress? : Option (Bytes → Bytes)} {decompress? : Option Decompressor} {limit : Nat}

/-- The chunk of the content can be told by its head, and is unpacked to the content. -/
def Opens (s : StreamReader) (compress? : Option (Bytes → Bytes)) (c : Bytes) : Prop :=
  ∃ compressed payload, chunkOf compress? c = encodeChunk compressed payload
    ∧ payload.length < 2 ^ 32 ∧ s.unpack compressed payload = .ok c

theorem opens_of_undoes (hundoes : Undoes compress? s.decompress? s.bufferSize) (hc : c.length ≤ max s.bufferSize 1)
    (hnarrow : (chunkOf compress? c).length < chunkHeadSize + 2 ^ 32) : s.Opens compress? c := by
  have hplain : (encodeChunk false c).length < chunkHeadSize + 2 ^ 32 →
      ∃ payload, encodeChunk false c = encodeChunk false payload
        ∧ payload.length < 2 ^ 32 ∧ s.unpack false payload = .ok c := by
    intro hlength
    rw [length_encodeChunk, chunkHeadSize] at hlength
    exact ⟨c, rfl, by omega, rfl⟩
  cases hcompress : compress? with
  | none =>
    rw [hcompress] at hnarrow
    exact ⟨false, hplain hnarrow⟩
  | some compress =>
    rw [hcompress] at hnarrow
    by_cases hsmaller : (compress c).length < c.length
    · obtain ⟨decompress, hsome, hundo⟩ := hundoes compress hcompress
      have hchunk : chunkOf (some compress) c = encodeChunk true (compress c) := by simp [chunkOf, hsmaller]
      rw [hchunk, length_encodeChunk, chunkHeadSize] at hnarrow
      refine ⟨true, compress c, hchunk, by omega, ?_⟩
      simp only [unpack, if_true, hsome, hundo c hc hsmaller, liftFault]
    · have hchunk : chunkOf (some compress) c = encodeChunk false c := by simp [chunkOf, hsmaller]
      rw [hchunk] at hnarrow
      obtain ⟨payload, hpayload⟩ := hplain hnarrow
      exact ⟨false, payload, hchunk ▸ hpayload⟩

/-- The chunks of a written stream behind those of `done` are a chain up to the end of the stream. -/
theorem chain_written (done : List Bytes) {rest : List Bytes}
    (hheld : f.HasAt s.offset.toNat (chunkBytes compress? (done ++ rest)))
    (hlength : s.length.toNat = (chunkBytes compress? (done ++ rest)).length)
    (hbounded : s.offset.toNat + s.length.toNat < 2 ^ 63) (hopens : ∀ c ∈ rest, s.Opens compress? c) :
    s.Chain f (UInt64.ofNat (chunkBytes compress? done).length) rest .streamEof := by
  induction rest generalizing done with
  | nil =>
    rw [List.append_nil] at hlength
    apply Chain.stop
    apply readChunk_behind
    rw [← hlength, UInt64.ofNat_toNat]
    exact UInt64.lt_irrefl _
  | cons c rest ih =>
    obtain ⟨compressed, payload, hchunk, hpayload, hunpack⟩ := hopens c List.mem_cons_self
    have hsplit : chunkBytes compress? (done ++ c :: rest)
        = chunkBytes compress? done ++ (encodeChunk compressed payload ++ chunkBytes compress? rest) := by
      rw [chunkBytes_append, chunkBytes_cons, hchunk]
    have hdone : (chunkBytes compress? done).length + (encodeChunk compressed payload).length ≤ s.length.toNat := by
      rw [hlength, hsplit, List.length_append, List.length_append]
      omega
    have hread := readChunk_encodeChunk (hsplit ▸ hheld).right.left hdone hbounded hpayload
    rw [hunpack] at hread
    have hnext : UInt64.ofNat (chunkBytes compress? done).length + 9 + UInt64.ofNat payload.length
        = UInt64.ofNat (chunkBytes compress? (done ++ [c])).length := by
      rw [chunkBytes_append, chunkBytes_cons, hchunk, chunkBytes_nil, List.append_nil, List.length_append,
        length_encodeChunk, ← Nat.add_assoc, UInt64.ofNat_add, UInt64.ofNat_add]
      rfl
    apply Chain.more hread
    rw [hnext]
    have hcons : done ++ c :: rest = (done ++ [c]) ++ rest := by simp
    rw [hcons] at hheld hlength
    exact ih (done ++ [c]) hheld hlength fun c' hc' => hopens c' (List.mem_cons_of_mem c hc')

/-- A place in the first chunk of a chain, and what lies ahead there. -/
theorem seek_chain (hbounded : f.size < 2 ^ 63) (h : s.Chain f chunk (c :: cs) e) (hbyte : byte.toNat ≤ c.length) :
    (s.seek f chunk byte).1 = .ok () ∧ (s.seek f chunk byte).2.Ahead f (c.drop byte.toNat ++ cs.flatten) e := by
  cases h with
  | more hread hrest =>
    have hfits : ¬c.length < byte.toNat := by omega
    simp only [seek, load_eq, hread, Except.map, hfits, if_false]
    exact ⟨trivial, hbounded, cs, hrest.congr rfl, rfl⟩

/-- No place is in a chunk that cannot be brought in. -/
theorem seek_stop (h : s.Chain f chunk [] e) : (s.seek f chunk byte).1 = .error e := by
  cases h with
  | stop hread => simp only [seek, load_eq, hread, Except.map]

/-- A reader of a stream that was written, standing somewhere in the file, can bring in all the chunks of its data. -/
theorem chain_pieces (hundoes : Undoes compress? decompress? limit) {data : Bytes}
    (hnarrow : ∀ c ∈ pieces (max limit 1) data, (chunkOf compress? c).length < chunkHeadSize + 2 ^ 32)
    (hsize : f.size < 2 ^ 63) {offset : Nat} {stream : Bytes}
    (hstream : stream = chunkBytes compress? (pieces (max limit 1) data)) (hheld : f.HasAt offset stream)
    (hs : s.home = make (UInt64.ofNat offset) (UInt64.ofNat stream.length) decompress? limit) :
    ∀ done rest, pieces (max limit 1) data = done ++ rest →
      s.Chain f (UInt64.ofNat (chunkBytes compress? done).length) rest .streamEof := by
  have hle := hheld.le_size
  have hoffset : s.offset.toNat = offset := by
    rw [show s.offset = UInt64.ofNat offset from congrArg (·.offset) hs]
    exact Decoder.toNat_ofNat_u64 (by omega)
  have hlength : s.length.toNat = stream.length := by
    rw [show s.length = UInt64.ofNat stream.length from congrArg (·.length) hs]
    exact Decoder.toNat_ofNat_u64 (by omega)
  have hdecompress : s.decompress? = decompress? := congrArg (·.decompress?) hs
  have hlimit : s.bufferSize = limit := congrArg (·.bufferSize) hs
  intro done rest hsplit
  apply chain_written done
  · rw [hoffset, ← hsplit, ← hstream]
    exact hheld
  · rw [hlength, ← hsplit, ← hstream]
  · omega
  · intro c hc
    have hmem : c ∈ pieces (max limit 1) data := hsplit ▸ List.mem_append_right done hc
    apply opens_of_undoes
    · rw [hdecompress, hlimit]
      exact hundoes
    · rw [hlimit]
      exact (length_of_mem_pieces (by omega) hmem).2
    · exact hnarrow c hmem

/-- The position noted behind some data leads to what was written after it. If that is nothing, and no chunk was being
filled, it leads nowhere. -/
theorem seek_position (hlimit : limit < 2 ^ 64) (hbounded : f.size < 2 ^ 63) {data more : Bytes}
    (hchain : ∀ done rest, pieces (max limit 1) (data ++ more) = done ++ rest →
      s.Chain f (UInt64.ofNat (chunkBytes compress? done).length) rest .streamEof) :
    let p := ((empty compress? limit).write data).position
    let sought := s.seek f (UInt64.ofNat p.1) (UInt64.ofNat p.2)
    if more = [] ∧ (cut (max limit 1) data).2 = [] then sought.1 = .error .streamEof
    else sought.1 = .ok () ∧ sought.2.Ahead f more .streamEof := by
  have hpos : 0 < max limit 1 := by omega
  rw [position_write]
  intro p sought
  split
  · rename_i hend
    obtain ⟨rfl, hfull⟩ := hend
    have hpieces : pieces (max limit 1) (data ++ []) = (cut (max limit 1) data).1 ++ [] := by
      rw [List.append_nil, pieces, if_pos hfull]
    exact seek_stop (hchain _ _ hpieces)
  · rename_i hend
    obtain ⟨c, later, hpieces, hle, hahead⟩ := exists_piece hpos hend
    have hroom := length_cut_lt hpos data
    have hbyte : (UInt64.ofNat (cut (max limit 1) data).2.length).toNat = (cut (max limit 1) data).2.length :=
      Decoder.toNat_ofNat_u64 (by omega)
    obtain ⟨hok, hsought⟩ := seek_chain hbounded (hchain _ _ hpieces) (hbyte.trans_le hle)
    rw [hbyte, hahead] at hsought
    exact ⟨hok, hsought⟩

/-- However data is handed over to a stream, the stream is the same. At any place of a file it is read back as a whole.
From a position that was noted while writing, reading in whatever pieces gives the data that was handed over later, and
then the end of the stream. Only behind a last chunk that is full there is no such place. -/
theorem written_reads_back (hlimit : limit < 2 ^ 64) (hundoes : Undoes compress? decompress? limit) (data : Bytes)
    (hnarrow : ∀ c ∈ pieces (max limit 1) data, (chunkOf compress? c).length < chunkHeadSize + 2 ^ 32)
    (hsize : f.size < 2 ^ 63) {offset : Nat} (hheld : f.HasAt offset ((empty compress? limit).write data).finish) :
    let w := (empty compress? limit).write data
    let s := make (UInt64.ofNat offset) (UInt64.ofNat w.finish.length) decompress? limit
    (∀ parts w', parts.flatten = data → ((empty compress? limit).CopiesEach parts w' ↔ w' = w))
      ∧ (∀ t : StreamReader, t.home = s → (t.readAll f).1 = .ok data)
      ∧ ∀ done rest v, (done ++ rest).flatten = data → (empty compress? limit).CopiesEach done v →
        ∀ t : StreamReader, t.home = s →
          let sought := t.seek f (UInt64.ofNat v.position.1) (UInt64.ofNat v.position.2)
          if done.flatten.length = data.length ∧ max limit 1 ∣ data.length then sought.1 = .error .streamEof
          else sought.1 = .ok ()
            ∧ ∀ ns, sought.2.readEach f ns = serve .streamEof ns (data.drop done.flatten.length) := by
  intro w s
  have hpos : 0 < max limit 1 := by omega
  have hchain : ∀ t : StreamReader, t.home = s → ∀ done rest,
      pieces (max limit 1) data = done ++ rest →
        t.Chain f (UInt64.ofNat (chunkBytes compress? done).length) rest .streamEof :=
    fun t ht => chain_pieces hundoes hnarrow hsize (finish_write compress? limit data) hheld ht
  refine ⟨?_, ?_, ?_⟩
  · rintro parts w' rfl
    exact copiesEach_iff (open_empty compress? limit)
  · intro t ht
    obtain ⟨hread, -⟩ := readAll_chain hsize (hchain t ht [] (pieces (max limit 1) data) rfl)
    rw [hread, if_pos rfl, pieces_flatten]
  · intro done rest v hdata hdone t ht
    have hall := hchain t ht
    obtain rfl := (copiesEach_iff (open_empty compress? limit)).mp hdone
    rw [List.flatten_append] at hdata
    subst hdata
    have hlast := ends_full_iff hpos done.flatten rest.flatten
    have hsought := seek_position hlimit hsize hall
    intro sought
    split
    · rename_i hend
      exact (if_pos (hlast.mp hend)).mp hsought
    · rename_i hend
      obtain ⟨hok, hahead⟩ := (if_neg (mt hlast.mpr hend)).mp hsought
      rw [List.drop_left]
      exact ⟨hok, readEach_ahead hahead⟩

/-- Five bytes in chunks of two, between other bytes. -/
def fiveBytesFile : SegmentFile :=
  ⟨.seeking, ⟨⟨0xAA :: (((empty none 2).write [1, 2, 3, 4, 5]).finish ++ [0xBB])⟩⟩⟩

def fiveBytesReader : StreamReader := make 1 32 none 2

/-- The five bytes handed over as one and four, and read as a whole and from behind the first. -/
theorem written_reads_back_five :
    fiveBytesFile.HasAt 1 ((empty none 2).write [1, 2, 3, 4, 5]).finish
      ∧ (fiveBytesReader.readAll fiveBytesFile).1 = .ok [1, 2, 3, 4, 5]
      ∧ ∃ chunk byte, (fiveBytesReader.seek fiveBytesFile chunk byte).1 = .ok ()
        ∧ ∀ ns, (fiveBytesReader.seek fiveBytesFile chunk byte).2.readEach fiveBytesFile ns
          = serve .streamEof ns [2, 3, 4, 5] := by
  have hheld : fiveBytesFile.HasAt 1 ((empty none 2).write [1, 2, 3, 4, 5]).finish := ⟨[0xAA], [0xBB], rfl, rfl⟩
  have hnarrow : ∀ c ∈ pieces (max 2 1) ([1, 2, 3, 4, 5] : Bytes),
      (chunkOf none c).length < chunkHeadSize + 2 ^ 32 := by decide
  have hlength : ((empty none 2).write [1, 2, 3, 4, 5]).finish.length = 32 := by decide +kernel
  have hhome : fiveBytesReader.home
      = make (UInt64.ofNat 1) (UInt64.ofNat ((empty none 2).write [1, 2, 3, 4, 5]).finish.length) none 2 := by
    rw [hlength]
    rfl
  obtain ⟨-, hall, hsought⟩ := written_reads_back (by decide) (undoes_none none 2) [1, 2, 3, 4, 5] hnarrow
    (by decide +kernel) hheld
  have hdone : (empty none 2).CopiesEach [[1]] ((empty none 2).write ([[1]] : List Bytes).flatten) :=
    (copiesEach_iff (open_empty none 2)).mpr rfl
  have hread := hsought [[1]] [[2, 3, 4, 5]] _ rfl hdone fiveBytesReader hhome
  exact ⟨hheld, hall fiveBytesReader hhome, _, _, (if_neg (by decide)).mp hread⟩

end StreamReader

end SegmentStore
