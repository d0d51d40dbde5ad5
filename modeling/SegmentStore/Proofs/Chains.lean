import SegmentStore.Proofs.Shortened

/-!
# Reading any stream, sound or not

From each of its offsets on a stream has some chunks that can be brought in, and then one that cannot: the end of the
stream, or a chunk that is malformed. Whatever reads the stream shows the contents of the former and the failure of the
latter.

* `StreamReader.Chain` is a chain of chunks with the failure behind them. `StreamReader.exists_chain` says that there is
  one from every offset on: each chunk takes bytes of the stream, even if its content is empty.
* `StreamReader.Fills` and `StreamReader.Collects` are the loops of reading some bytes and of reading all, turn by turn, so
  that a loop that never ended would have no run. `StreamReader.fills_read` and `StreamReader.collects_readAll` say that
  both end as the reading does.
* `serve` answers requests for bytes from data at hand, `StreamReader.readEach` by reading.
* `StreamReader.readAll_iff_readEach` says that reading all and reading bit by bit agree.
-/

namespace SegmentStore

/-! ### Failures that are not the end of a stream -/

/-- The outcome fails with nothing that could be taken for an end. -/
abbrev FailsFatally {α : Type} (x : Except StorageError α) : Prop := FailsWith StorageError.Fatal x

theorem FailsFatally.lift {α : Type} (x : Except FormatFault α) : FailsFatally (liftFault x) :=
  FailsWith.lift StorageError.Fatal.format x

theorem plus_fatal (a b : UInt64) : FailsFatally (plus a b) := by
  rw [plus]
  split
  · exact .ok _
  · exact .error .overflow

theorem SegmentFile.readAt_failsFatally (f : SegmentFile) (offset length : Nat) : FailsFatally (f.readAt offset length) :=
  fun _ he => readAt_fatal he

namespace StreamReader

variable {f : SegmentFile} {s t u : StreamReader} {chunk : UInt64} {cs : List Bytes} {e : StorageError}

/-- Within the stream a chunk is brought in or is malformed, but is no end of the stream. -/
theorem readChunk_fatal (h : chunk < s.length) : FailsFatally (s.readChunk f chunk) := by
  rw [readChunk_eq, if_neg (UInt64.not_le.mpr h)]
  refine .bind (plus_fatal _ _) fun start _ => ?_
  split
  · exact .error (.format _)
  refine .bind (plus_fatal _ _) fun offset _ => .bind (f.readAt_failsFatally _ _) fun bs _ => ?_
  refine .bind (FailsFatally.lift _) fun head _ => .bind (plus_fatal _ _) fun stop _ => ?_
  split
  · exact .error (.format _)
  refine .bind (plus_fatal _ _) fun place _ => .bind (f.readAt_failsFatally _ _) fun payload _ => ?_
  exact .bind (FailsFatally.lift _) fun _ _ => (s.unpack_failsWith .format _ _).map _

theorem readChunk_behind (h : ¬chunk < s.length) : s.readChunk f chunk = .error .streamEof := by
  rw [readChunk_eq, if_pos (UInt64.not_lt.mp h)]

theorem load_eq (f : SegmentFile) (s : StreamReader) (chunk : UInt64) :
    s.load f chunk = (s.readChunk f chunk).map fun x =>
      { s with
        pending := x.1
        nextChunk := chunk + 9 + x.2
        traffic := s.traffic.add ⟨x.2.toNat, x.1.length⟩ } := by
  rw [load]
  cases s.readChunk f chunk <;> rfl

/-! ### Chains of chunks -/

/-- From an offset on the stream has chunks with the given contents, and bringing in the one behind them fails. -/
inductive Chain (f : SegmentFile) (s : StreamReader) : UInt64 → List Bytes → StorageError → Prop
  | stop {chunk : UInt64} {e : StorageError} : s.readChunk f chunk = .error e → Chain f s chunk [] e
  | more {chunk payloadLength : UInt64} {c : Bytes} {cs : List Bytes} {e : StorageError} :
      s.readChunk f chunk = .ok (c, payloadLength) → Chain f s (chunk + 9 + payloadLength) cs e →
      Chain f s chunk (c :: cs) e

/-- The cursor does not matter. -/
theorem Chain.congr (h : s.Chain f chunk cs e) (hhome : s.home = t.home) : t.Chain f chunk cs e := by
  induction h with
  | stop hread => exact .stop ((readChunk_congr hhome.symm _).trans hread)
  | more hread _ ih => exact .more ((readChunk_congr hhome.symm _).trans hread) ih

/-- A chunk that fails has none behind it. -/
theorem Chain.of_error (h : s.Chain f chunk cs e) {e' : StorageError} (hread : s.readChunk f chunk = .error e') :
    cs = [] ∧ e = e' := by
  cases h with
  | stop h =>
    rw [h] at hread
    exact ⟨rfl, Except.error.inj hread⟩
  | more h _ =>
    rw [h] at hread
    cases hread

/-- A chunk that is brought in is the first of the chain. -/
theorem Chain.of_load (h : s.Chain f chunk cs e) (hload : s.load f chunk = .ok t) :
    ∃ rest, cs = t.pending :: rest ∧ t.Chain f t.nextChunk rest e := by
  rw [load_eq] at hload
  cases h with
  | stop hread =>
    rw [hread] at hload
    cases hload
  | more hread rest =>
    rw [hread] at hload
    obtain rfl := Except.ok.inj hload
    exact ⟨_, rfl, rest.congr rfl⟩

theorem readChunk_of_load_error (hload : s.load f chunk = .error e) : s.readChunk f chunk = .error e := by
  rw [load_eq] at hload
  cases hread : s.readChunk f chunk with
  | error e' =>
    rw [hread] at hload
    exact congrArg Except.error (Except.error.inj hload)
  | ok x =>
    rw [hread] at hload
    cases hload

/-- The next chunk starts behind the one that was read, which lies within the stream. -/
theorem readChunk_progress (hbounded : f.size < 2 ^ 63) {payloadLength : UInt64} {c : Bytes}
    (hread : s.readChunk f chunk = .ok (c, payloadLength)) :
    chunk.toNat < (chunk + 9 + payloadLength).toNat ∧ (chunk + 9 + payloadLength).toNat ≤ s.length.toNat := by
  obtain ⟨hnext, hinside, -⟩ := readChunk_extent hbounded hread
  rw [chunkHeadSize] at hnext
  exact ⟨by omega, hinside⟩

/-- From every offset on there is a chain: what is left of the stream gets less with each chunk. -/
theorem exists_chain (s : StreamReader) (hbounded : f.size < 2 ^ 63) (chunk : UInt64) : ∃ cs e, s.Chain f chunk cs e := by
  generalize hleft : s.length.toNat - chunk.toNat = left
  induction left using Nat.strongRecOn generalizing chunk with
  | ind left ih =>
    cases hread : s.readChunk f chunk with
    | error e => exact ⟨[], e, .stop hread⟩
    | ok x =>
      obtain ⟨c, payloadLength⟩ := x
      obtain ⟨hnext, hinside⟩ := readChunk_progress hbounded hread
      obtain ⟨cs, e, hrest⟩ := ih _ (by omega) (chunk + 9 + payloadLength) rfl
      exact ⟨c :: cs, e, .more hread hrest⟩

/-- A chain has fewer chunks than the stream has bytes. -/
theorem Chain.length_le (hbounded : f.size < 2 ^ 63) (h : s.Chain f chunk cs e) :
    cs.length ≤ s.length.toNat - chunk.toNat := by
  induction h with
  | stop _ => exact Nat.zero_le _
  | more hread _ ih =>
    obtain ⟨hnext, hinside⟩ := readChunk_progress hbounded hread
    rw [List.length_cons]
    omega

/-! ### The loop of reading some bytes -/

/-- The loop that fills a place of `n` bytes, turn by turn: as long as there is room, it takes what the current chunk has,
or brings in the next one if there is nothing left of it. With the run stand the bytes that are filled in, the end of the
loop, and the stream behind it. -/
inductive Fills (f : SegmentFile) : StreamReader → Nat → Bytes → Except StorageError Unit → StreamReader → Prop
  | full {s : StreamReader} : Fills f s 0 [] (.ok ()) s
  | take {s t : StreamReader} {n : Nat} {bs : Bytes} {r : Except StorageError Unit} :
      n ≠ 0 → s.pending ≠ [] → Fills f (s.consumed n) (n - s.pending.length) bs r t →
      Fills f s n (s.pending.take n ++ bs) r t
  | load {s u t : StreamReader} {n : Nat} {bs : Bytes} {r : Except StorageError Unit} :
      n ≠ 0 → s.pending = [] → s.load f s.nextChunk = .ok u → Fills f u n bs r t → Fills f s n bs r t
  | fail {s : StreamReader} {n : Nat} {e : StorageError} :
      n ≠ 0 → s.pending = [] → s.load f s.nextChunk = .error e → Fills f s n [] (.error e) s

variable {n : Nat} {bs : Bytes} {r : Except StorageError Unit}

theorem consumed_of_pending_nil (h : s.pending = []) : s.consumed n = s := by
  cases s
  simp only at h
  simp [consumed, h]

/-- Taking what the current chunk has is a turn, or nothing to do. -/
theorem Fills.take_pending (h : (s.consumed n).Fills f (n - s.pending.length) bs r t) :
    s.Fills f n (s.pending.take n ++ bs) r t := by
  by_cases hn : n = 0
  · subst hn
    rw [Nat.zero_sub] at h
    rw [List.take_zero, List.nil_append]
    exact h
  by_cases hleft : s.pending = []
  · rw [consumed_of_pending_nil hleft, hleft, List.length_nil, Nat.sub_zero] at h
    rw [hleft, List.take_nil, List.nil_append]
    exact h
  · exact .take hn hleft h

/-- With fuel for the chunks of the chain, reading is the loop. The induction is on the fuel. -/
theorem fills_readFrom {fuel : Nat} (h : s.Chain f s.nextChunk cs e) (hfuel : cs.length < fuel) (n : Nat) (acc : Bytes) :
    ∃ bs r t, s.Fills f n bs r t ∧ s.readFrom f n acc fuel = (r.map fun _ => acc ++ bs, t) := by
  induction fuel generalizing s cs n acc with
  | zero => omega
  | succ fuel ih =>
    have hleft : n - (s.pending.take n).length = n - s.pending.length := by
      rw [List.length_take]
      omega
    rw [readFrom_succ, hleft]
    by_cases hfull : n - s.pending.length = 0
    · have hdone : (s.consumed n).Fills f (n - s.pending.length) [] (.ok ()) (s.consumed n) := by
        rw [hfull]
        exact .full
      refine ⟨s.pending.take n ++ [], .ok (), s.consumed n, hdone.take_pending, ?_⟩
      rw [if_pos hfull, List.append_nil]
      rfl
    rw [if_neg hfull]
    have hused : (s.consumed n).pending = [] := by
      show s.pending.drop n = []
      rw [List.drop_eq_nil_iff]
      omega
    have hchain : (s.consumed n).Chain f s.nextChunk cs e := h.congr rfl
    cases hload : (s.consumed n).load f s.nextChunk with
    | error e' =>
      have hstop : (s.consumed n).Fills f (n - s.pending.length) [] (.error e') (s.consumed n) :=
        .fail hfull hused hload
      exact ⟨s.pending.take n ++ [], .error e', s.consumed n, hstop.take_pending, rfl⟩
    | ok u =>
      obtain ⟨rest, rfl, hrest⟩ := hchain.of_load hload
      rw [List.length_cons] at hfuel
      obtain ⟨bs, r, t, hfills, hread⟩ := ih hrest (by omega) (n - s.pending.length) (acc ++ s.pending.take n)
      have hnext : (s.consumed n).Fills f (n - s.pending.length) bs r t := .load hfull hused hload hfills
      refine ⟨s.pending.take n ++ bs, r, t, hnext.take_pending, ?_⟩
      rw [← List.append_assoc]
      exact hread

/-- Reading is the loop, which always ends. -/
theorem fills_read (hbounded : f.size < 2 ^ 63) (n : Nat) :
    ∃ bs r, s.Fills f n bs r (s.read f n).2 ∧ (s.read f n).1 = r.map fun _ => bs := by
  obtain ⟨cs, e, hchain⟩ := s.exists_chain hbounded s.nextChunk
  have hfuel : cs.length < s.length.toNat + 2 := by
    have hlength := hchain.length_le hbounded
    omega
  obtain ⟨bs, r, t, hfills, hread⟩ := fills_readFrom hchain hfuel n []
  rw [read, hread]
  exact ⟨bs, r, hfills, rfl⟩

/-! ### What lies ahead -/

/-- Ahead of the cursor lie the bytes `data`, and then the failure. -/
structure Ahead (s : StreamReader) (f : SegmentFile) (data : Bytes) (e : StorageError) : Prop where
  bounded : f.size < 2 ^ 63
  chained : ∃ cs, s.Chain f s.nextChunk cs e ∧ data = s.pending ++ cs.flatten

variable {data : Bytes}

/-- What is taken of two pieces is taken of the first, and then of what is left of both. -/
theorem take_in_turns (bs rest : Bytes) (n : Nat) :
    bs.take n ++ (bs.drop n ++ rest).take (n - bs.length) = (bs ++ rest).take n := by
  rcases Nat.le_total n bs.length with hle | hle
  · rw [Nat.sub_eq_zero_of_le hle, List.take_zero, List.append_nil, List.take_append_of_le_length hle]
  · rw [List.drop_eq_nil_of_le hle, List.nil_append, List.take_append]

theorem drop_in_turns (bs rest : Bytes) (n : Nat) :
    (bs.drop n ++ rest).drop (n - bs.length) = (bs ++ rest).drop n := by
  rcases Nat.le_total n bs.length with hle | hle
  · rw [Nat.sub_eq_zero_of_le hle, List.drop_zero, List.drop_append_of_le_length hle]
  · rw [List.drop_eq_nil_of_le hle, List.nil_append, List.drop_append, List.drop_eq_nil_of_le hle, List.nil_append]

/-- The loop takes what lies ahead. If that is not enough, it fails as the chunk behind does. -/
theorem Fills.delivers (h : s.Fills f n bs r t) (hahead : s.Ahead f data e) :
    t.Ahead f (data.drop n) e ∧ bs = data.take n ∧ r = if n ≤ data.length then .ok () else .error e := by
  induction h generalizing data with
  | full => simpa using hahead
  | @take s t n bs r hn hleft _ ih =>
    obtain ⟨hbounded, cs, hchain, rfl⟩ := hahead
    have hused : (s.consumed n).Ahead f (s.pending.drop n ++ cs.flatten) e :=
      ⟨hbounded, cs, hchain.congr rfl, rfl⟩
    obtain ⟨hafter, hbs, hr⟩ := ih hused
    rw [drop_in_turns] at hafter
    refine ⟨hafter, ?_, ?_⟩
    · rw [hbs, take_in_turns]
    · have henough : n - s.pending.length ≤ (s.pending.drop n ++ cs.flatten).length
          ↔ n ≤ (s.pending ++ cs.flatten).length := by
        simp only [List.length_append, List.length_drop]
        omega
      simp only [hr, henough]
  | @load s u t n bs r hn hempty hload _ ih =>
    obtain ⟨hbounded, cs, hchain, rfl⟩ := hahead
    obtain ⟨rest, rfl, hrest⟩ := hchain.of_load hload
    rw [hempty, List.nil_append, List.flatten_cons]
    exact ih ⟨hbounded, rest, hrest, rfl⟩
  | @fail s n e' hn hempty hload =>
    obtain ⟨hbounded, cs, hchain, rfl⟩ := hahead
    obtain ⟨rfl, rfl⟩ := hchain.of_error (readChunk_of_load_error hload)
    rw [hempty, List.nil_append, List.flatten_nil, List.drop_nil, List.take_nil]
    refine ⟨⟨hbounded, [], hchain, by rw [hempty]; rfl⟩, rfl, ?_⟩
    rw [List.length_nil, if_neg (by omega)]

/-- Reading gives what lies ahead, or fails as the chunk behind does. -/
theorem read_ahead (h : s.Ahead f data e) (n : Nat) :
    ∃ t, t.Ahead f (data.drop n) e
      ∧ s.read f n = (if n ≤ data.length then .ok (data.take n) else .error e, t) := by
  obtain ⟨bs, r, hfills, hread⟩ := fills_read h.bounded n
  obtain ⟨hahead, rfl, rfl⟩ := hfills.delivers h
  refine ⟨_, hahead, Prod.ext ?_ rfl⟩
  rw [hread]
  split <;> rfl

/-! ### Requests one after the other -/

/-- Answers requests for so many bytes each with what `data` has there, up to the first for which it is too short. The
failure of that one comes last. -/
def serve (e : StorageError) : List Nat → Bytes → List Bytes × Option StorageError
  | [], _ => ([], none)
  | n :: ns, data =>
    if n ≤ data.length then (data.take n :: (serve e ns (data.drop n)).1, (serve e ns (data.drop n)).2)
    else ([], some e)

/-- Answers requests for so many bytes each by reading on, up to the first that fails. -/
def readEach (f : SegmentFile) : List Nat → StreamReader → List Bytes × Option StorageError
  | [], _ => ([], none)
  | n :: ns, s =>
    match s.read f n with
    | (.ok bs, t) => (bs :: (readEach f ns t).1, (readEach f ns t).2)
    | (.error e, _) => ([], some e)

/-- However it is split, reading on gives what lies ahead, and then the failure. -/
theorem readEach_ahead (h : s.Ahead f data e) (ns : List Nat) : s.readEach f ns = serve e ns data := by
  induction ns generalizing s data with
  | nil => rfl
  | cons n ns ih =>
    obtain ⟨t, hahead, hread⟩ := read_ahead h n
    by_cases hn : n ≤ data.length
    · rw [if_pos hn] at hread
      simp only [readEach, serve, hread, if_pos hn, ih hahead]
    · rw [if_neg hn] at hread
      simp only [readEach, serve, hread, if_neg hn]

/-- As long as there is enough, the answers are the start of the data. -/
theorem serve_of_le {ns : List Nat} (h : ns.sum ≤ data.length) :
    (serve e ns data).1.flatten = data.take ns.sum ∧ (serve e ns data).2 = none := by
  induction ns generalizing data with
  | nil => simp [serve]
  | cons n ns ih =>
    rw [List.sum_cons] at h ⊢
    have hrest : ns.sum ≤ (data.drop n).length := by
      rw [List.length_drop]
      omega
    obtain ⟨hbytes, hnone⟩ := ih hrest
    rw [serve, if_pos (by omega)]
    refine ⟨?_, hnone⟩
    simp only [List.flatten_cons, hbytes]
    rw [List.take_add]

/-- Requests for more than there is end with the failure. -/
theorem serve_of_lt {ns : List Nat} (h : data.length < ns.sum) : (serve e ns data).2 = some e := by
  induction ns generalizing data with
  | nil => simp at h
  | cons n ns ih =>
    rw [List.sum_cons] at h
    rw [serve]
    split
    · apply ih
      rw [List.length_drop]
      omega
    · rfl

/-- The answers to all requests tell what is served, and what comes behind. -/
theorem serve_inj {data' : Bytes} {e' : StorageError} (h : ∀ ns, serve e ns data = serve e' ns data') :
    data = data' ∧ e = e' := by
  have hlength : data.length = data'.length := by
    have hend : ∀ n, data.length < n ↔ data'.length < n := by
      intro n
      have hn := congrArg Prod.snd (h [n])
      simp only [serve] at hn
      split at hn <;> split at hn <;> first | omega | cases hn
    have hle := hend data.length
    have hle' := hend data'.length
    omega
  refine ⟨?_, ?_⟩
  · have hall : (serve e [data.length] data).1.flatten = (serve e' [data.length] data').1.flatten := by rw [h]
    rw [(serve_of_le (by simp)).1, (serve_of_le (by simp [hlength])).1] at hall
    rw [List.sum_singleton, List.take_length, hlength, List.take_length] at hall
    exact hall
  · have hpast := congrArg Prod.snd (h [data.length + 1])
    rw [serve_of_lt (by simp), serve_of_lt (by simp [hlength])] at hpast
    exact Option.some.inj hpast

/-! ### The loop of reading all -/

/-- The stream with its cursor put back to its start. -/
def rewound (s : StreamReader) : StreamReader := { s with pending := [], nextChunk := 0 }

/-- The loop that collects the contents of all chunks from an offset on, turn by turn. With the run stand the bytes that
are collected, the end of the loop, and the stream behind it. -/
inductive Collects (f : SegmentFile) : StreamReader → UInt64 → Bytes → Except StorageError Unit → StreamReader → Prop
  | done {s : StreamReader} {chunk : UInt64} : ¬chunk < s.length → Collects f s chunk [] (.ok ()) s
  | more {s u t : StreamReader} {chunk : UInt64} {bs : Bytes} {r : Except StorageError Unit} :
      chunk < s.length → s.load f chunk = .ok u → Collects f u u.nextChunk bs r t →
      Collects f s chunk (u.pending ++ bs) r t
  | fail {s : StreamReader} {chunk : UInt64} {e : StorageError} :
      chunk < s.length → s.load f chunk = .error e → Collects f s chunk [] (.error e) s

/-- With fuel for the chunks of the chain, reading chunks is the loop. The induction is on the fuel. -/
theorem collects_readChunks {fuel : Nat} (h : s.Chain f chunk cs e) (hfuel : cs.length < fuel) (acc : Array UInt8) :
    ∃ bs r t, s.Collects f chunk bs r t ∧ (s.readChunks f acc chunk fuel).1 = (r.map fun _ => acc.toList ++ bs)
      ∧ (r = .ok () → (s.readChunks f acc chunk fuel).2 = t.rewound) := by
  induction fuel generalizing s chunk cs acc with
  | zero => omega
  | succ fuel ih =>
    rw [readChunks]
    by_cases hin : chunk < s.length
    · rw [if_pos hin]
      cases hload : s.load f chunk with
      | error e' =>
        refine ⟨[], .error e', s, .fail hin hload, rfl, ?_⟩
        intro hok
        cases hok
      | ok u =>
        obtain ⟨rest, rfl, hrest⟩ := h.of_load hload
        rw [List.length_cons] at hfuel
        obtain ⟨bs, r, t, hcollects, hread, hrewound⟩ := ih hrest (by omega) (acc ++ u.pending)
        refine ⟨u.pending ++ bs, r, t, .more hin hload hcollects, ?_, hrewound⟩
        show (u.readChunks f (acc ++ u.pending) u.nextChunk fuel).1 = _
        rw [hread, Array.toList_appendList]
        simp only [List.append_assoc]
    · rw [if_neg hin]
      refine ⟨[], .ok (), s, .done hin, ?_, fun _ => rfl⟩
      rw [List.append_nil]
      rfl

/-- Reading all is the loop, which always ends. -/
theorem collects_readAll (hbounded : f.size < 2 ^ 63) :
    ∃ bs r t, s.Collects f 0 bs r t ∧ (s.readAll f).1 = (r.map fun _ => bs)
      ∧ (r = .ok () → (s.readAll f).2 = t.rewound) := by
  obtain ⟨cs, e, hchain⟩ := s.exists_chain hbounded 0
  have hfuel : cs.length < s.length.toNat + 1 := by
    have hlength := hchain.length_le hbounded
    omega
  exact collects_readChunks hchain hfuel #[]

/-- The loop collects the contents of the chain, and fails as the chunk behind them does, unless that is the end. -/
theorem Collects.delivers {bs : Bytes} {r : Except StorageError Unit} (h : s.Collects f chunk bs r t)
    (hchain : s.Chain f chunk cs e) :
    t.home = s.home ∧ bs = cs.flatten ∧ r = if e = .streamEof then .ok () else .error e := by
  induction h generalizing cs with
  | @done s chunk hend =>
    obtain ⟨rfl, rfl⟩ := hchain.of_error (readChunk_behind hend)
    exact ⟨rfl, rfl, rfl⟩
  | @more s u t chunk bs r hin hload _ ih =>
    obtain ⟨rest, rfl, hrest⟩ := hchain.of_load hload
    obtain ⟨hhome, rfl, rfl⟩ := ih hrest
    exact ⟨hhome.trans (load_home hload), rfl, rfl⟩
  | @fail s chunk e' hin hload =>
    have hread := readChunk_of_load_error hload
    obtain ⟨rfl, rfl⟩ := hchain.of_error hread
    have hne := (readChunk_fatal hin _ hread).ne_streamEof
    exact ⟨rfl, rfl, (if_neg hne).symm⟩

/-- Reading all gives the contents of the chain from the start of the stream on, and fails as the chunk behind them does,
unless that is the end. Then the cursor is put back. -/
theorem readAll_chain (hbounded : f.size < 2 ^ 63) (h : s.Chain f 0 cs e) :
    (s.readAll f).1 = (if e = .streamEof then .ok cs.flatten else .error e)
      ∧ (e = .streamEof → (s.readAll f).2.Ahead f cs.flatten e) := by
  obtain ⟨bs, r, t, hcollects, hread, hrewound⟩ := collects_readAll hbounded
  obtain ⟨hhome, rfl, rfl⟩ := hcollects.delivers h
  refine ⟨?_, ?_⟩
  · rw [hread]
    split <;> rfl
  · intro he
    rw [hrewound (if_pos he)]
    exact ⟨hbounded, cs, h.congr hhome.symm, rfl⟩

/-- From the start of the stream on lie the contents of its chain. -/
theorem ahead_home (hbounded : f.size < 2 ^ 63) (h : s.Chain f 0 cs e) : s.home.Ahead f cs.flatten e :=
  ⟨hbounded, cs, h.congr rfl, rfl⟩

/-! ### Reading all and reading bit by bit -/

/-- Both ways of reading end. Reading all gives some bytes exactly when reading from the start of the stream, in whatever
pieces, gives these bytes and then the end of the stream. Where reading all fails, reading in pieces gives the contents of
the chunks before the bad one, and then that failure. Once all was read, the stream reads from its start again. -/
theorem readAll_iff_readEach (s : StreamReader) (hbounded : f.size < 2 ^ 63) :
    (∀ n, ∃ bs r, s.Fills f n bs r (s.read f n).2 ∧ (s.read f n).1 = r.map fun _ => bs)
      ∧ (∃ bs r t, s.Collects f 0 bs r t ∧ (s.readAll f).1 = (r.map fun _ => bs)
        ∧ (r = .ok () → (s.readAll f).2 = t.rewound))
      ∧ (∀ data, (s.readAll f).1 = .ok data ↔ ∀ ns, s.home.readEach f ns = serve .streamEof ns data)
      ∧ (∀ e, (s.readAll f).1 = .error e →
        ∃ cs, s.Chain f 0 cs e ∧ ∀ ns, s.home.readEach f ns = serve e ns cs.flatten)
      ∧ ∀ data t, s.readAll f = (.ok data, t) → ∀ ns, t.readEach f ns = serve .streamEof ns data := by
  obtain ⟨cs, e, hchain⟩ := s.exists_chain hbounded 0
  obtain ⟨hall, hrewound⟩ := readAll_chain hbounded hchain
  have hpieces := readEach_ahead (ahead_home hbounded hchain)
  refine ⟨fills_read hbounded, collects_readAll hbounded, fun data => ⟨?_, ?_⟩, ?_, ?_⟩
  · intro hdata
    rw [hdata] at hall
    split at hall
    · rename_i he
      rw [Except.ok.inj hall, ← he]
      exact hpieces
    · cases hall
  · intro hserved
    obtain ⟨rfl, rfl⟩ := serve_inj fun ns => (hpieces ns).symm.trans (hserved ns)
    exact hall
  · intro e' he'
    rw [he'] at hall
    split at hall
    · cases hall
    · obtain rfl := Except.error.inj hall
      exact ⟨cs, hchain, hpieces⟩
  · intro data t hread
    rw [hread] at hall hrewound
    split at hall
    · rename_i he
      obtain rfl := Except.ok.inj hall
      subst he
      exact readEach_ahead (hrewound rfl)
    · cases hall

/-- A stream of a chunk with two bytes, an empty chunk, and half a head of a chunk, behind a byte of the file. -/
def brokenFile : SegmentFile :=
  ⟨.memory, ⟨⟨0xAA :: (encodeChunk false [7, 8] ++ encodeChunk false [] ++ [1, 0, 0, 0])⟩⟩⟩

def brokenStream : StreamReader := .make 1 24 none 16

theorem readAll_iff_readEach_broken :
    brokenFile.size < 2 ^ 63
      ∧ ∃ cs, brokenStream.Chain brokenFile 0 cs (.format .truncatedChunkHead)
        ∧ ∀ ns, brokenStream.home.readEach brokenFile ns = serve (.format .truncatedChunkHead) ns cs.flatten := by
  have hbounded : brokenFile.size < 2 ^ 63 := by decide +kernel
  obtain ⟨-, -, -, hfails, -⟩ := readAll_iff_readEach brokenStream hbounded
  exact ⟨hbounded, hfails _ (by decide +kernel)⟩

end StreamReader

end SegmentStore
