import SegmentStore.Proofs.Indexes
import SegmentStore.Segment.Writer

/-!
# Bloom filters are the probes of their blocks

One writer puts out the filters of all blocks of a column, one behind the other. What is read back for a block are the
probes of its values and nothing else: neither the order of the values nor how often they come counts, nor what is in any
other block.

* `BloomFilter.Probed` are the bits that the values of a block set, `BloomFilter.ofValues_eq_iff` says that filters
  differ exactly in these.
* `BloomWriter.ofBlocks` is the run of a writer over some blocks and `BloomWriter.ofBlocks_eq` what it leaves behind,
  from one block (`BloomWriter.addBlock_eq`) by induction.
* `BloomWriter.ofBlocks_reads_back` says what is read of it.
-/

namespace SegmentStore

namespace BloomFilter

variable {bits hashes : Nat} {f g : BloomFilter} {vs ws : List Value}

/-- The bit is a probe of some value. -/
def Probed (bits hashes : Nat) (vs : List Value) (p : Nat) : Prop := ∃ v ∈ vs, p ∈ probes v bits hashes

/-- Only which values there are counts. -/
theorem probed_congr (h : ∀ v, v ∈ vs ↔ v ∈ ws) (p : Nat) : Probed bits hashes vs p ↔ Probed bits hashes ws p := by
  simp only [Probed, h]

/-- A byte of a filter, bit by bit. -/
theorem testBit_byte {i : Nat} (hi : i < f.bytes.size) {k : Nat} (hk : k < 8) :
    f.bytes[i].toNat.testBit k = f.get (8 * i + k) := by
  have hbyte : (8 * i + k) / 8 = i := by omega
  have hbit : (8 * i + k) % 8 = k := by omega
  rw [get, hbyte, hbit, Array.getElem?_eq_getElem hi, Option.getD_some]

/-- Filters of one size with the same bits are the same. -/
theorem Shape.ext (hf : f.Shape bits hashes) (hg : g.Shape bits hashes) (h : ∀ p, f.get p = g.get p) : f = g := by
  have hbytes : f.bytes = g.bytes := by
    refine Array.ext (hf.size.trans hg.size.symm) fun i hi hi' => ?_
    refine UInt8.toNat_inj.mp (Nat.eq_of_testBit_eq fun k => ?_)
    by_cases hk : k < 8
    · rw [testBit_byte hi hk, testBit_byte hi' hk, h]
    · -- a byte has no more than eight bits
      have hwide : 2 ^ 8 ≤ 2 ^ k := Nat.pow_le_pow_right (by decide) (Nat.not_lt.mp hk)
      rw [Nat.testBit_lt_two_pow (Nat.lt_of_lt_of_le f.bytes[i].toNat_lt hwide),
        Nat.testBit_lt_two_pow (Nat.lt_of_lt_of_le g.bytes[i].toNat_lt hwide)]
  obtain ⟨fbytes, fbits, fhashes⟩ := f
  obtain ⟨gbytes, gbits, ghashes⟩ := g
  obtain rfl : fbits = gbits := hf.bitCount.trans hg.bitCount.symm
  obtain rfl : fhashes = ghashes := hf.hashes.trans hg.hashes.symm
  obtain rfl : fbytes = gbytes := hbytes
  rfl

/-- Two lists of values have the same filter exactly if they have the same probes. -/
theorem ofValues_eq_iff (hbits : 0 < bits) :
    ofValues bits hashes vs = ofValues bits hashes ws
      ↔ ∀ p, Probed bits hashes vs p ↔ Probed bits hashes ws p := by
  constructor
  · intro h p
    rw [Probed, Probed, ← get_ofValues hbits, ← get_ofValues hbits, h]
  · intro h
    refine (shape_ofValues bits hashes vs).ext (shape_ofValues bits hashes ws) fun p => ?_
    rw [Bool.eq_iff_iff, get_ofValues hbits, get_ofValues hbits]
    exact h p

/-- A value passes the filter of a list exactly if each of its probes is one of the list. -/
theorem test_ofValues_iff (hbits : 0 < bits) {v : Value} :
    (ofValues bits hashes vs).test v = true ↔ ∀ p ∈ probes v bits hashes, Probed bits hashes vs p := by
  rw [test_iff (shape_ofValues bits hashes vs)]
  simp only [get_ofValues hbits, Probed]

end BloomFilter

namespace BloomWriter

open BloomFilter

variable {bits hashes : Nat}

/-- Adds the values of a block and ends it. -/
def addBlock (w : BloomWriter) (vs : List Value) : BloomWriter := (vs.foldl add w).finishBlock

/-- The writer of some blocks. -/
def ofBlocks (bits hashes : Nat) (blocks : List (List Value)) : BloomWriter :=
  blocks.foldl addBlock (empty bits hashes)

theorem foldl_add (w : BloomWriter) (vs : List Value) :
    vs.foldl add w = ⟨vs.foldl BloomFilter.add w.current, w.output⟩ := by
  induction vs generalizing w with
  | nil => rfl
  | cons v vs ih => exact ih (w.add v)

/-- A block leaves its filter behind, and the next one starts without any bit of it. -/
theorem addBlock_eq (output : Array UInt8) (vs : List Value) :
    addBlock ⟨.empty bits hashes, output⟩ vs
      = ⟨.empty bits hashes, output ++ (ofValues bits hashes vs).encode⟩ := by
  have hshape := shape_ofValues bits hashes vs
  rw [addBlock, foldl_add]
  change finishBlock ⟨ofValues bits hashes vs, output⟩ = _
  rw [finishBlock, hshape.bitCount, hshape.hashes]

theorem ofBlocks_eq (bits hashes : Nat) (blocks : List (List Value)) :
    ofBlocks bits hashes blocks
      = ⟨.empty bits hashes, ((blocks.map (ofValues bits hashes)).flatMap BloomFilter.encode).toArray⟩ := by
  induction blocks using List.reverseRecOn with
  | nil => rfl
  | append_singleton blocks vs ih =>
    rw [ofBlocks, List.foldl_append]
    change addBlock (ofBlocks bits hashes blocks) vs = _
    rw [ih, addBlock_eq]
    simp

/-- The filters of all blocks are read back. -/
theorem decode_ofBlocks (hvalid : validParameters bits hashes = true) (blocks : List (List Value)) :
    decode bits hashes (ofBlocks bits hashes blocks).output.toList = .ok (blocks.map (ofValues bits hashes)) := by
  rw [ofBlocks_eq]
  refine decode_flatMap hvalid fun f hf => ?_
  obtain ⟨vs, -, rfl⟩ := List.mem_map.mp hf
  exact shape_ofValues bits hashes vs

/-- Probes are bits of the filter. What a writer puts out is read back as one filter for each block, whose bits are the
probes of the values of that block. It passes a value exactly if all probes of the value are set, so it passes those that
were added, whatever else was. A block with the same values has the same filter, in whichever order and however often they
come, and whatever other blocks there are. -/
theorem ofBlocks_reads_back (hbits : 0 < bits) (hwhole : bits % 8 = 0) (hhashes : 0 < hashes) :
    (∀ v, ∀ p ∈ probes v bits hashes, p < bits) ∧
    ∀ blocks, ∃ filters, decode bits hashes (ofBlocks bits hashes blocks).output.toList = .ok filters
      ∧ filters.length = blocks.length
      ∧ ∀ (i : Nat) (vs : List Value) (f : BloomFilter), blocks[i]? = some vs → filters[i]? = some f →
        (∀ p, f.get p = true ↔ Probed bits hashes vs p)
        ∧ (∀ v, f.test v = true ↔ ∀ p ∈ probes v bits hashes, f.get p = true)
        ∧ (∀ v, ∀ w ∈ vs, w.encode = v.encode → f.test v = true)
        ∧ ∀ (blocks' : List (List Value)) (filters' : List BloomFilter) (j : Nat) (ws : List Value),
          decode bits hashes (ofBlocks bits hashes blocks').output.toList = .ok filters' →
          blocks'[j]? = some ws → (∀ v, v ∈ vs ↔ v ∈ ws) → filters'[j]? = some f := by
  have hvalid : validParameters bits hashes = true := by
    simp only [validParameters, Bool.and_eq_true, bne_iff_ne, beq_iff_eq]
    omega
  refine ⟨fun v p hp => lt_of_mem_probes hbits hp, fun blocks => ?_⟩
  refine ⟨_, decode_ofBlocks hvalid blocks, List.length_map _, fun i vs f hvs hf => ?_⟩
  obtain rfl : ofValues bits hashes vs = f := by
    rw [List.getElem?_map, hvs] at hf
    exact Option.some.inj hf
  refine ⟨fun p => get_ofValues hbits, fun v => test_iff (shape_ofValues bits hashes vs), ?_, ?_⟩
  · intro v w hw hkey
    -- probes depend on the stored form alone
    have hprobes : probes v bits hashes = probes w bits hashes := by rw [probes, probes, hkey]
    rw [test_ofValues_iff hbits, hprobes]
    exact fun p hp => ⟨w, hw, hp⟩
  · intro blocks' filters' j ws hdecode hws hsame
    obtain rfl := Except.ok.inj ((decode_ofBlocks hvalid blocks').symm.trans hdecode)
    rw [List.getElem?_map, hws, Option.map_some, (ofValues_eq_iff hbits).mpr (probed_congr hsame)]

/-- Two blocks of the same three numbers, one of them in another order and with a number twice, with others between. -/
theorem ofBlocks_reads_back_numbers :
    ∃ filters, decode 64 2 (ofBlocks 64 2 [[.int32 1, .int32 2, .null], [.string "other"],
          [.null, .int32 2, .int32 1, .int32 2], []]).output.toList = .ok filters
      ∧ filters.length = 4 ∧ filters[0]? = filters[2]?
      ∧ ∀ f, filters[0]? = some f → f.test (.int32 2) = true := by
  obtain ⟨filters, hdecode, hlength, hfilters⟩ :=
    (ofBlocks_reads_back (show 0 < 64 by decide) (by decide) (show 0 < 2 by decide)).2
      [[.int32 1, .int32 2, .null], [.string "other"], [.null, .int32 2, .int32 1, .int32 2], []]
  have hpos : 0 < filters.length := hlength ▸ (by decide)
  have hfirst : filters[0]? = some filters[0] := List.getElem?_eq_getElem hpos
  obtain ⟨-, -, htest, hsame⟩ := hfilters 0 _ _ rfl hfirst
  refine ⟨filters, hdecode, hlength, ?_, ?_⟩
  · rw [hfirst, hsame _ filters 2 [.null, .int32 2, .int32 1, .int32 2] hdecode rfl]
    intro v
    simp only [List.mem_cons, List.not_mem_nil, or_false]
    tauto
  · intro f hf
    obtain rfl := Option.some.inj (hfirst.symm.trans hf)
    exact htest _ (.int32 2) (by simp) rfl

end BloomWriter

end SegmentStore
