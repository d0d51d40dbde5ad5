import SegmentStore.Proofs.ZonePruning

/-!
# Bloom filters lose rows only by the bits of a literal

A bloom filter knows values by their bytes, a predicate by their order. For zeros and NaNs these differ.

* `Predicate.asked` are the literals that a filter is asked for.
* `WrittenSegment.StoresLiterals`: where a row of the block satisfies the conditions, the block stores a
  literal that the row's value equals. `WrittenSegment.storesLiterals_of_hasTwins` says that this is so
  unless zeros or NaNs are asked for.
* `PruneRequest.bloomTest_of_satisfies`: a bloom filter of such a block passes it if a row satisfies the
  conditions.
* `SegmentReader.seekToBlock_bloom_keeps_matches`: of the blocks that bloom filters exclude in a seek,
  exactly these lose no row. `SegmentReader.seekToBlock_bloom_loses_zero` shows a zero that is lost.
-/

namespace SegmentStore

namespace Predicate

/-- The literals that a bloom filter is asked for. -/
def asked : Predicate → List Value
  | .compare .eq l => [l]
  | .isIn ls => ls
  | _ => []

/-- A value that satisfies a predicate with literals to ask for equals one of them. -/
theorem exists_asked_of_holds {p : Predicate} {v : Value} (hp : p.holds v = true) (hne : p.asked ≠ []) :
    ∃ l ∈ p.asked, v.eqv l = true := by
  cases p with
  | isNull => exact absurd rfl hne
  | isNotNull => exact absurd rfl hne
  | compare op l =>
    cases op with
    | eq =>
      simp only [holds, Bool.and_eq_true] at hp
      exact ⟨l, List.mem_singleton_self l, hp.2⟩
    | _ => exact absurd rfl hne
  | isIn ls =>
    simp only [holds, Bool.and_eq_true, List.any_eq_true] at hp
    obtain ⟨-, l, hl, -, heq⟩ := hp
    exact ⟨l, hl, heq⟩

/-- Null satisfies no predicate with literals to ask for. -/
theorem isNull_of_holds {p : Predicate} {v : Value} (hp : p.holds v = true) (hne : p.asked ≠ []) :
    v.isNull = false := by
  cases p with
  | isNull => exact absurd rfl hne
  | isNotNull => exact absurd rfl hne
  | compare op l =>
    simp only [holds, Bool.and_eq_true, Bool.not_eq_true'] at hp
    exact hp.1.1
  | isIn ls =>
    simp only [holds, Bool.and_eq_true, Bool.not_eq_true'] at hp
    exact hp.1

/-- A filter that passes one of the literals does not rule out what some value satisfies. -/
theorem mayMatchBloom_of_asked {p : Predicate} {v : Value} {test : Value → Bool}
    (hp : p.holds v = true) (htest : p.asked ≠ [] → ∃ l ∈ p.asked, test l = true) :
    p.mayMatchBloom test = true := by
  cases p with
  | isNull => rfl
  | isNotNull => rfl
  | compare op l =>
    cases op with
    | eq =>
      obtain ⟨l', hl', hpass⟩ := htest (List.cons_ne_nil l [])
      obtain rfl := List.mem_singleton.mp hl'
      exact hpass
    | _ => rfl
  | isIn ls =>
    have hne : ls ≠ [] := by
      rintro rfl
      simp [holds] at hp
    exact List.any_eq_true.mpr (htest hne)

end Predicate

/-- The condition found for a column is one of the conditions. -/
theorem Conditions.mem_entries_of_get? {c : Conditions} {cid : ColumnId} {cond : ColumnCondition}
    (h : c.get? cid = some cond) : (cid, cond) ∈ c.entries := mem_of_lookup_eq_some h

/-! ### The filters of a segment -/

/-- The bloom filter that a set has of a block passes the values of its rows. -/
theorem IndexSet.Of.test_bloom {set : IndexSet} {s : WrittenSegment} (h : set.Of s) {j : Nat}
    {cid : ColumnId} {c : Column} (hcid : s.cids[j]? = some cid) (hc : s.cols[j]? = some c)
    {f : Loaded BloomFilter} (hf : set.bloom? c.uniqueId = some f) {b : Nat}
    (hb : b < s.blocks.length) {row : List Value} (hrow : row ∈ s.block b)
    (hnull : (s.cell row cid).isNull = false) :
    f.entries[b]?.elim true (·.test (s.cell row cid)) = true := by
  obtain ⟨i, d, hd, huid, hbloom, hentries⟩ := h.blooms _ f hf
  obtain rfl := WrittenSegment.eq_of_uniqueId hd hc huid
  obtain rfl : d = c := Option.some.inj (hd.symm.trans hc)
  have hvalid := WrittenSegment.validParameters (s := s) (by
    intro hnil
    rw [Column.hasBloom, hnil] at hbloom
    simp at hbloom)
  have hbits : 0 < s.options.bloomBits.toNat := by
    simp only [BloomFilter.validParameters, Bool.and_eq_true, bne_iff_ne] at hvalid
    omega
  have hentry := congrArg (fun l => l[b]?) hentries
  simp only [Array.getElem?_toList, List.getElem?_map, WrittenSegment.getElem?_columnBlocks hcid hb,
    Option.map_some] at hentry
  rw [hentry, Option.elim_some, Column.blockBloom]
  refine BloomFilter.test_ofValues hbits _ (List.mem_filter.mpr ⟨?_, by rw [hnull]; rfl⟩)
  exact List.mem_map_of_mem hrow

/-! ### Literals and values -/

namespace WrittenSegment

variable {s : WrittenSegment} {conditions : Conditions} {bloom : List ColumnId} {b : Nat}

/-- Where a row of the block satisfies the conditions, one of the literals that its value in a column with
a bloom filter equals is itself a value of the block. -/
def StoresLiterals (s : WrittenSegment) (conditions : Conditions) (bloom : List ColumnId) (b : Nat) :
    Prop :=
  ∀ row ∈ s.block b, s.satisfies conditions row = true →
    ∀ e ∈ conditions.entries, e.1 ∈ bloom → e.1 ∈ s.cids →
      ∀ p ∈ e.2.predicates, p.asked ≠ [] →
        ∃ l ∈ p.asked, (s.cell row e.1).eqv l = true ∧ ∃ row' ∈ s.block b, s.cell row' e.1 = l

/-- This is so wherever no zeros and NaNs are asked for. -/
theorem storesLiterals_of_hasTwins
    (h : ∀ e ∈ conditions.entries, e.1 ∈ bloom → ∀ p ∈ e.2.predicates, ∀ l ∈ p.asked,
      l.hasTwins = false) : s.StoresLiterals conditions bloom b := by
  intro row hrow hsatisfies e he hbloom hcid p hp hne
  obtain ⟨j, c, hj, hc⟩ := exists_column hcid
  obtain ⟨cid, hcid', hcolumn⟩ := getElem?_cols.mp hc
  obtain rfl : e.1 = cid := Option.some.inj (hj.symm.trans hcid')
  have hholds := holds_of_satisfies hsatisfies he hcolumn
  obtain ⟨l, hl, heq⟩ := Predicate.exists_asked_of_holds (List.all_eq_true.mp hholds p hp) hne
  exact ⟨l, hl, heq, row, hrow, Value.eq_of_eqv heq (h e he hbloom p hp l hl)⟩

end WrittenSegment

namespace PruneRequest

variable {q : PruneRequest} {s : WrittenSegment} {used : List ColumnId} {conditions : Conditions}

/-- The test of a bloom filter passes a block with a row that satisfies the conditions, if the block stores
the literals that its values equal. -/
theorem bloomTest_of_satisfies (hq : q.Of s used) {b : Nat} (hb : b < s.blocks.length)
    (hliterals : s.StoresLiterals conditions q.bloomColumns b) {row : List Value}
    (hrow : row ∈ s.block b) (h : s.satisfies conditions row = true) :
    ∀ test ∈ q.bloomTests conditions, test b = true := by
  intro test htest
  rw [bloomTests, List.mem_filterMap] at htest
  obtain ⟨cid, hbloom, htest⟩ := htest
  simp only [bloomTest?] at htest
  split at htest
  · rw [Option.bind_eq_some_iff] at htest
    obtain ⟨cond, hlookup, htest⟩ := htest
    rw [Option.map_eq_some_iff] at htest
    obtain ⟨f, hf, rfl⟩ := htest
    rw [Option.bind_eq_some_iff] at hf
    obtain ⟨uid, huid, hf⟩ := hf
    obtain ⟨j, c, hcid, hc, rfl⟩ := hq.mapping.storedId?_eq_some.mp huid
    obtain ⟨cid', hcid', hcolumn⟩ := WrittenSegment.getElem?_cols.mp hc
    obtain rfl : cid = cid' := Option.some.inj (hcid.symm.trans hcid')
    have hcond := Conditions.mem_entries_of_get? hlookup
    have hholds := WrittenSegment.holds_of_satisfies h hcond hcolumn
    refine List.all_eq_true.mpr fun p hp => ?_
    have hvalue := List.all_eq_true.mp hholds p hp
    refine Predicate.mayMatchBloom_of_asked hvalue fun hne => ?_
    -- the filter has the literal, whatever the bits of the value that equals it
    obtain ⟨l, hl, heq, row', hrow', rfl⟩ :=
      hliterals row hrow h _ hcond hbloom (List.mem_of_getElem? hcid) p hp hne
    refine ⟨_, hl, ?_⟩
    have hnull' : (s.cell row' cid).isNull = false := by
      rw [← Bool.not_eq_true, Value.isNull_iff_key, ← Value.eqv_iff_key.mp heq, ← Value.isNull_iff_key,
        Predicate.isNull_of_holds hvalue hne]
      exact Bool.false_ne_true
    have hpass := hq.indexes.test_bloom hcid hc hf hb hrow' hnull'
    show (f.entries[b]?.elim (fun _ => true) BloomFilter.test) (s.cell row' cid) = true
    cases hentry : f.entries[b]? with
    | none => rfl
    | some filter => simpa [hentry] using hpass
  · cases htest

end PruneRequest

/-! ### Seeking with bloom filters -/

namespace SegmentReader

/-- A block that bloom filters exclude, after deletes and zone maps have left it, has no row that satisfies
the conditions, exactly if it stores the literals that such rows equal. -/
theorem seekToBlock_bloom_keeps_matches (s : WrittenSegment) (hfits : s.Fits) (hlossless : s.Lossless)
    {r : SegmentReader} {g : SegmentGroup} {file : FileId} (hg : g.Hosts r.segmentId s file)
    {cache : IndexCache}
    (hcache : r.context.cached = true → cache.Agrees (g.segmentPath r.segmentId) s)
    (hr : Answerable r.context s.schema) {conditions : Conditions}
    (hconditions : r.context.conditions? = some conditions) {first last : Nat} (hrange : first ≤ last)
    (hfirst : first < s.blocks.length) (fillCache : Bool) (stats : ScanStatistics) :
    (r.init fillCache g cache stats).result = .ok ()
      ∧ ∃ o p r' stats' m, (r.init fillCache g cache stats).reader.segment? = some o
      ∧ (r.init fillCache g cache stats).reader.seekToBlock first last false
          (r.init fillCache g cache stats).group (r.init fillCache g cache stats).stats
            = (.ok p, r', stats')
      ∧ r'.blocks? = some m
      ∧ ∀ b, (((r.init fillCache g cache stats).reader.pruneRequest o
          (r.init fillCache g cache stats).group).zoned conditions first
            (min last (s.blocks.length - 1))).blocks.get b ≠ .excluded →
          m.get b = .excluded →
          (s.StoresLiterals conditions r.context.bloomColumns b
            ↔ ∀ row ∈ s.block b, s.satisfies conditions row = false) := by
  obtain ⟨hresult, o, q, p, r', stats', hsegment, hq, hof, hasks, hseek, hmap⟩ :=
    init_seekToBlock hfits hlossless hg hcache hr hrange hfirst fillCache stats
  have hsome := hasks.conditions.trans hconditions
  have hlast : min last (s.blocks.length - 1) < q.indexes.blockCount := by
    rw [hof.indexes.blockCount]
    omega
  refine ⟨hresult, o, p, r', stats', _, hsegment, hseek, hmap, ?_⟩
  intro b hleft hexcluded
  rw [hq] at hleft
  rcases PruneRequest.get_pruned hsome first hlast b with hsame | ⟨hb, ⟨test, htest, hfalse⟩, -⟩
  · exact absurd (hsame.symm.trans hexcluded) hleft
  constructor
  · intro hliterals row hrow
    rw [← Bool.not_eq_true]
    intro hsatisfies
    rw [← hasks.bloomColumns] at hliterals
    have hpass := PruneRequest.bloomTest_of_satisfies hof (by omega) hliterals hrow hsatisfies test htest
    rw [hpass] at hfalse
    cases hfalse
  · intro hnone row hrow hsatisfies
    rw [hnone row hrow] at hsatisfies
    cases hsatisfies

/-! ### A zero and a one -/

/-- A table of doubles. -/
def doubleSchema : TabletSchema := ⟨[⟨20, "value", .float64, false, false, .none, none⟩]⟩

def doubleOptions : WriterOptions := ⟨2, .none, 64, true, [20], 32, 1, .standard⟩

def doubleWriter : SegmentWriter :=
  ⟨doubleOptions, doubleSchema.columns.map (SegmentWriter.columnWriter doubleOptions), 0, 0⟩

/-- One block, of a zero and a one, with a bloom filter. -/
def doubleSegment : WrittenSegment where
  schema := doubleSchema
  cids := [0]
  options := doubleOptions
  rows := [[.float64 .zero], [.float64 ⟨0x3FF0000000000000⟩]]
  start := doubleWriter
  writer := doubleWriter.appendRows [[.float64 .zero], [.float64 ⟨0x3FF0000000000000⟩]]
  distinctIds := by decide
  distinctColumns := by decide
  made := rfl
  accepted := SegmentWriter.appendAll_eq (by decide +kernel)

theorem fits_doubleSegment : doubleSegment.Fits where
  texts := by simp [doubleSegment, Value.Fits]
  header := by decide +kernel
  blocks := by decide +kernel
  bytes := by decide +kernel

theorem lossless_doubleSegment : doubleSegment.Lossless := undoes_none none _

/-- The block is wanted for doubles equal to a literal. -/
def equalTo (x : Float64) : Conditions := .ofList [(0, .compare .eq (.float64 x))]

/-- The bloom filter is asked, however few blocks are left. -/
def doubleContext (x : Float64) : ReadContext :=
  ⟨[0], [0], some (equalTo x), none, .unknown, false, ⟨0, .positioned, 0⟩⟩

theorem answerable_double (x : Float64) :
    Answerable (make 0 (doubleContext x)).context doubleSegment.schema :=
  ⟨rfl, List.all_eq_true.mp rfl, List.all_eq_true.mp rfl⟩

/-- The reader right after it was initialised. -/
def doubleOpened (x : Float64) : InitResult :=
  (make 0 (doubleContext x)).init true (.single doubleSegment) .empty .zero

/-- What becomes of the block before and after the bloom filter is asked. -/
def doubleOutcome (x : Float64) : Option (Disposition × Disposition) := do
  let opened := doubleOpened x
  let o ← opened.reader.segment?
  let m ← (opened.reader.seekToBlock 0 0 false opened.group opened.stats).2.1.blocks?
  return (((opened.reader.pruneRequest o opened.group).zoned (equalTo x) 0 0).blocks.get 0, m.get 0)

theorem doubleOutcome_eq {x : Float64} {o : OpenSegment} {p : ScanPosition} {r : SegmentReader}
    {stats : ScanStatistics} {m : BlockMap} (hsegment : (doubleOpened x).reader.segment? = some o)
    (hseek : (doubleOpened x).reader.seekToBlock 0 0 false (doubleOpened x).group (doubleOpened x).stats
      = (.ok p, r, stats))
    (hmap : r.blocks? = some m) :
    doubleOutcome x = some ((((doubleOpened x).reader.pruneRequest o (doubleOpened x).group).zoned
      (equalTo x) 0 0).blocks.get 0, m.get 0) := by
  simp only [doubleOutcome, hsegment, hseek, hmap]
  rfl

/-- A half, which no row has. -/
def half : Float64 := ⟨0x3FE0000000000000⟩

set_option maxRecDepth 100000 in
theorem doubleOutcome_half : doubleOutcome half = some (.included, .excluded) := by
  decide +kernel

theorem seekToBlock_bloom_keeps_matches_half :
    ∃ o p r stats m, (doubleOpened half).reader.segment? = some o
      ∧ (doubleOpened half).reader.seekToBlock 0 0 false (doubleOpened half).group
          (doubleOpened half).stats = (.ok p, r, stats)
      ∧ r.blocks? = some m
      ∧ (((doubleOpened half).reader.pruneRequest o (doubleOpened half).group).zoned
          (equalTo half) 0 0).blocks.get 0 ≠ .excluded
      ∧ m.get 0 = .excluded
      ∧ ∀ row ∈ doubleSegment.block 0, doubleSegment.satisfies (equalTo half) row = false := by
  have hcache : (make 0 (doubleContext half)).context.cached = true →
      IndexCache.empty.Agrees ((SegmentGroup.single doubleSegment).segmentPath 0) doubleSegment := nofun
  have hliterals : doubleSegment.StoresLiterals (equalTo half) [0] 0 :=
    WrittenSegment.storesLiterals_of_hasTwins (by decide)
  obtain ⟨-, o, p, r, stats, m, hsegment, hseek, hmap, hlost⟩ :=
    seekToBlock_bloom_keeps_matches doubleSegment fits_doubleSegment lossless_doubleSegment
      (SegmentGroup.hosts_single doubleSegment) hcache (answerable_double half) rfl (Nat.le_refl 0)
      (by decide +kernel) true .zero
  rw [← doubleOpened] at hsegment hseek hlost
  have houtcome := (doubleOutcome_eq hsegment hseek hmap).symm.trans doubleOutcome_half
  obtain ⟨hleft, hexcluded⟩ := Prod.mk.inj (Option.some.inj houtcome)
  have hleft' : (((doubleOpened half).reader.pruneRequest o (doubleOpened half).group).zoned
      (equalTo half) 0 0).blocks.get 0 ≠ .excluded := by
    rw [hleft]
    decide
  exact ⟨o, p, r, stats, m, hsegment, hseek, hmap, hleft', hexcluded,
    (hlost 0 hleft' hexcluded).mp hliterals⟩

set_option maxRecDepth 100000 in
theorem doubleOutcome_negative_zero :
    doubleOutcome Float64.zero.neg = some (.included, .excluded) := by
  decide +kernel

/-- The bloom filter of a stored zero rules negative zero out, though the two are equal. -/
theorem seekToBlock_bloom_loses_zero :
    (doubleOpened Float64.zero.neg).result = .ok ()
      ∧ ∃ o p r stats m, (doubleOpened Float64.zero.neg).reader.segment? = some o
      ∧ (doubleOpened Float64.zero.neg).reader.seekToBlock 0 0 false
          (doubleOpened Float64.zero.neg).group (doubleOpened Float64.zero.neg).stats = (.ok p, r, stats)
      ∧ r.blocks? = some m
      ∧ (((doubleOpened Float64.zero.neg).reader.pruneRequest o
          (doubleOpened Float64.zero.neg).group).zoned (equalTo Float64.zero.neg) 0 0).blocks.get 0
            ≠ .excluded
      ∧ m.get 0 = .excluded
      ∧ ∃ row ∈ doubleSegment.block 0, doubleSegment.satisfies (equalTo Float64.zero.neg) row = true := by
  have hcache : (make 0 (doubleContext Float64.zero.neg)).context.cached = true →
      IndexCache.empty.Agrees ((SegmentGroup.single doubleSegment).segmentPath 0) doubleSegment := nofun
  obtain ⟨hresult, o, q, p, r, stats, hsegment, -, -, -, hseek, hmap⟩ :=
    init_seekToBlock fits_doubleSegment lossless_doubleSegment
      (SegmentGroup.hosts_single doubleSegment) hcache (answerable_double Float64.zero.neg)
      (Nat.le_refl 0) (by decide +kernel) true .zero
  rw [← doubleOpened] at hresult hsegment hseek
  have houtcome := (doubleOutcome_eq hsegment hseek hmap).symm.trans doubleOutcome_negative_zero
  obtain ⟨hleft, hexcluded⟩ := Prod.mk.inj (Option.some.inj houtcome)
  refine ⟨hresult, o, p, r, stats, _, hsegment, hseek, hmap, ?_, hexcluded, [.float64 .zero],
    by decide +kernel, by decide +kernel⟩
  rw [hleft]
  decide

end SegmentReader

end SegmentStore
