import SegmentStore.Proofs.Accounting
import SegmentStore.Proofs.Addresses

/-!
# Whether the blocks hold all rows

The rows of a segment are counted in 64 bits, its blocks in 32. The number of blocks is what the rows of the header fill,
cut down to 32 bits. An index that is loaded shows if something was cut off, since it has an entry for each block. Without
one, nothing does.

* `OpenSegment.heldRows` is the number of rows that the blocks have together, and `OpenSegment.countableRows` the number
  of rows of as many blocks as 32 bits can count.
* `OpenSegment.filled_iff` and `OpenSegment.heldRows_eq_iff` say what comes of a number of blocks that is cut down.
* `SegmentReader.init_covers_iff` says so of every segment that is opened.
-/

namespace SegmentStore

namespace OpenSegment

/-- The rows that are loaded from all blocks together. -/
def heldRows (o : OpenSegment) : Nat :=
  ((List.range o.indexes.blockCount).map fun b => SegmentReader.rowsToLoad o b o.rowsPerBlock).sum

/-- The rows of as many full blocks as 32 bits can count. -/
def countableRows (o : OpenSegment) : Nat := (2 ^ 32 - 1) * o.rowsPerBlock

/-- The segment has as many blocks as its rows fill, cut down to 32 bits. -/
structure CutDown (o : OpenSegment) : Prop where
  rowsPerBlock_pos : 0 < o.rowsPerBlock
  blockCount : o.indexes.blockCount
    = (o.info.header.rowCount.toNat + o.rowsPerBlock - 1) / o.rowsPerBlock % 2 ^ 32

variable {o : OpenSegment}

/-- When 32 bits can count the blocks that the rows fill. -/
theorem blocks_lt_iff (hpos : 0 < o.rowsPerBlock) :
    (o.info.header.rowCount.toNat + o.rowsPerBlock - 1) / o.rowsPerBlock < 2 ^ 32
      ↔ o.info.header.rowCount.toNat ≤ o.countableRows := by
  rw [Nat.div_lt_iff_lt_mul hpos, countableRows]
  omega

theorem CutDown.blockCount_lt (ho : o.CutDown) : o.indexes.blockCount < 2 ^ 32 := by
  rw [ho.blockCount]
  exact Nat.mod_lt _ (Nat.two_pow_pos 32)

theorem filled_iff (ho : o.CutDown) : o.Filled ↔ o.info.header.rowCount.toNat ≤ o.countableRows := by
  rw [← blocks_lt_iff ho.rowsPerBlock_pos]
  constructor
  · rintro ⟨-, hcount⟩
    rw [← hcount]
    exact ho.blockCount_lt
  · intro hfits
    exact ⟨ho.rowsPerBlock_pos, by rw [ho.blockCount, Nat.mod_eq_of_lt hfits]⟩

/-- A block before the last one is full, however many blocks were cut off. -/
theorem CutDown.full (ho : o.CutDown) {b : Nat} (hb : b + 1 < o.indexes.blockCount) :
    (b + 1) * o.rowsPerBlock ≤ o.info.header.rowCount.toNat := by
  have hless : b + 1 < (o.info.header.rowCount.toNat + o.rowsPerBlock - 1) / o.rowsPerBlock := by
    rw [ho.blockCount] at hb
    exact Nat.lt_of_lt_of_le hb (Nat.mod_le _ _)
  rw [Nat.lt_div_iff_mul_lt ho.rowsPerBlock_pos] at hless
  omega

theorem heldRows_eq (ho : o.CutDown) :
    o.heldRows = min o.info.header.rowCount.toNat (o.indexes.blockCount * o.rowsPerBlock) := by
  have hload : (List.range o.indexes.blockCount).map (fun b => SegmentReader.rowsToLoad o b o.rowsPerBlock)
      = (List.range o.indexes.blockCount).map o.rowsOf := by
    refine List.map_congr_left fun b hb => rowsToLoad_of_full (fun hlast => ho.full ?_) (Nat.le_refl _)
    have := List.mem_range.mp hb
    omega
  rw [heldRows, hload, List.range_eq_range', sum_rowsOf_range']
  simp only [Nat.zero_add, Nat.zero_mul, Nat.min_zero, Nat.sub_zero]

/-- Blocks that were cut off take their rows with them. -/
theorem heldRows_eq_iff (ho : o.CutDown) :
    o.heldRows = o.info.header.rowCount.toNat ↔ o.info.header.rowCount.toNat ≤ o.countableRows := by
  rw [heldRows_eq ho, min_eq_left_iff]
  constructor
  · intro hheld
    exact hheld.trans (Nat.mul_le_mul_right _ (Nat.le_sub_one_of_lt ho.blockCount_lt))
  · intro hfits
    exact ((filled_iff ho).mpr hfits).rows_le

end OpenSegment

namespace SegmentReader

variable {r : SegmentReader} {o : OpenSegment} {g : SegmentGroup} {stats : ScanStatistics}
variable {fillCache : Bool} {cache : IndexCache}

/-- The number of blocks of a segment that is opened is cut down. -/
theorem cutDown_of_init (h : (r.init fillCache g cache stats).result = .ok ())
    (ho : (r.init fillCache g cache stats).reader.segment? = some o) : o.CutDown := by
  obtain ⟨hpos, hnumbered⟩ := numbered_of_init h ho
  exact ⟨hpos, hnumbered.blockCount⟩

/-! ### A segment without columns -/

/-- A header of a segment that stores no column. Each row is a block of its own. -/
def bareHeader (rows : UInt64) : SegmentHeader :=
  { magic := SegmentHeader.segmentMagic, version := SegmentHeader.currentVersion, rowCount := rows, rowsPerBlock := 1
    compression := 0, bufferSize := 64, bloomHashes := 4, bloomBits := 4096, nullSupported := true
    columns := [], streams := [] }

/-- A group with a segment of that header, of a table that has a column by now. -/
def bareGroup (rows : UInt64) : SegmentGroup :=
  ⟨"group", ⟨[⟨10, "key", .int32, true, false, .none, none⟩]⟩, 0, 1,
    ⟨[(0, 0)], #[⟨(bareHeader rows).encode.toArray⟩]⟩, [], .standard⟩

/-- A scan of that column. -/
def bareContext : ReadContext := ⟨[0], [], none, none, .unknown, false, .default⟩

/-- The segment without columns is opened, without an index. -/
theorem init_bare (rows : UInt64) :
    ((make 0 bareContext).init true (bareGroup rows) .empty .zero).result = .ok ()
      ∧ ∃ o, ((make 0 bareContext).init true (bareGroup rows) .empty .zero).reader.segment? = some o
        ∧ o.info.header.rowCount = rows ∧ o.rowsPerBlock = 1 := by
  let info : SegmentMeta := ⟨bareHeader rows, UInt64.ofNat (bareHeader rows).encode.length⟩
  have hfile : (make 0 bareContext).openFile (bareGroup rows)
      = .ok (0, ⟨.positioned, (bareGroup rows).files.content 0⟩) := rfl
  have hbody : (bareHeader rows).encodeBody.length < 2 ^ 32 := by
    rw [SegmentHeader.length_encodeBody]
    exact show 37 + 7 * 0 + 13 * 0 < 2 ^ 32 by decide
  have hread : SegmentHeader.readFrom ⟨.positioned, (bareGroup rows).files.content 0⟩
      = .ok (bareHeader rows, UInt64.ofNat (bareHeader rows).encode.length) :=
    SegmentHeader.readFrom_encode (List.append_nil _).symm hbody
  have hmeta : (bareGroup rows).segmentMeta 0 ⟨.positioned, (bareGroup rows).files.content 0⟩
      = .ok (info, { bareGroup rows with metas := [(0, info)] }) := by
    rw [SegmentGroup.segmentMeta]
    simp only [bareGroup, List.lookup_nil] at hread ⊢
    rw [hread]
    rfl
  obtain ⟨o, hopen, hinfo, hrows⟩ : ∃ o, (make 0 bareContext).openSegment 0 info
      { bareGroup rows with metas := [(0, info)] } = .ok o ∧ o.info = info ∧ o.rowsPerBlock = 1 :=
    ⟨_, rfl, rfl, rfl⟩
  have haddressable : info.Addressable := by
    rw [SegmentMeta.Addressable, StreamInfo.totalLength, show info.header.streams = [] from rfl, List.map_nil,
      List.sum_nil, Nat.add_zero]
    exact info.headerLength.toNat_lt
  have hload : ∀ q : IndexRequest, q.info = info → q.load .empty = (.ok q.emptySet, .empty, .zero) := by
    intro q hq
    refine IndexRequest.load_of_unneeded (by rwa [hq]) ?_ .empty
    rw [hq]
    exact List.forall_mem_nil _
  rw [init_of_opened hfile hmeta hopen, hload _ rfl]
  refine ⟨rfl, _, rfl, ?_, hrows⟩
  show o.info.header.rowCount = rows
  rw [hinfo]
  rfl

/-! ### Every segment -/

/-- Whatever a file holds, whichever columns are read and however many rows the blocks of its group have: the blocks of a
segment that is opened are as many as its rows fill, and hold all rows, exactly if 32 bits can count them. They can if an
index was loaded. -/
theorem init_covers_iff (h : (r.init fillCache g cache stats).result = .ok ()) :
    ∃ o, (r.init fillCache g cache stats).reader.segment? = some o
      ∧ (r.init fillCache g cache stats).reader.blockCount? = some o.indexes.blockCount
      ∧ (o.Filled ↔ o.info.header.rowCount.toNat ≤ o.countableRows)
      ∧ (o.heldRows = o.info.header.rowCount.toNat ↔ o.info.header.rowCount.toNat ≤ o.countableRows)
      ∧ (o.indexes.Counted → o.info.header.rowCount.toNat ≤ o.countableRows) := by
  obtain ⟨o, -, -, hreader, -⟩ := init_ok h
  have ho : (r.init fillCache g cache stats).reader.segment? = some o := by rw [hreader]
  have hcut := cutDown_of_init h ho
  refine ⟨o, ho, by rw [blockCount?, ho, Option.map_some], OpenSegment.filled_iff hcut,
    OpenSegment.heldRows_eq_iff hcut, fun hcounted => ?_⟩
  obtain ⟨hpos, hcount⟩ := blockCount_of_init h ho hcounted
  exact (OpenSegment.filled_iff hcut).mp ⟨hpos, hcount⟩

/-- Five rows are held by five blocks. -/
theorem init_covers_iff_bare :
    ((make 0 bareContext).init true (bareGroup 5) .empty .zero).result = .ok ()
      ∧ ∃ o, ((make 0 bareContext).init true (bareGroup 5) .empty .zero).reader.segment? = some o
        ∧ o.Filled ∧ o.heldRows = 5 := by
  obtain ⟨hresult, o, ho, hrows, hfull⟩ := init_bare 5
  obtain ⟨o', ho', -, hfilled, hheld, -⟩ := init_covers_iff hresult
  obtain rfl : o = o' := Option.some.inj (ho.symm.trans ho')
  rw [OpenSegment.countableRows, hrows, hfull] at hfilled hheld
  exact ⟨hresult, o, ho, hfilled.mpr (by decide), hheld.mpr (by decide)⟩

/-- More rows than 32 bits can count, each in a block of its own. All blocks but one are cut off, and what is left holds
a single row. -/
theorem init_loses_blocks :
    ((make 0 bareContext).init true (bareGroup 4294967297) .empty .zero).result = .ok ()
      ∧ ∃ o, ((make 0 bareContext).init true (bareGroup 4294967297) .empty .zero).reader.segment? = some o
        ∧ o.info.header.rowCount.toNat = 4294967297 ∧ o.rowsPerBlock = 1
        ∧ o.indexes.blockCount = 1 ∧ o.heldRows = 1 := by
  obtain ⟨hresult, o, ho, hrows, hfull⟩ := init_bare 4294967297
  have hcut := cutDown_of_init hresult ho
  have hcount := hcut.blockCount
  have hheld := OpenSegment.heldRows_eq hcut
  rw [hrows, hfull] at hcount hheld
  have hone : o.indexes.blockCount = 1 := hcount.trans (by decide)
  rw [hone] at hheld
  exact ⟨hresult, o, ho, by rw [hrows]; decide, hfull, hone, hheld.trans (by decide)⟩

end SegmentReader

end SegmentStore
