import Mathlib.Data.List.Induction
import SegmentStore.Index.Bloom

/-!
# Bloom filters know their members

* `BloomFilter.Shape` collects what values leave alone: the number of bits, of probes and of bytes.
* `BloomFilter.get_set` is the law of a single bit, `BloomFilter.get_foldl_set` that of many.
* `BloomFilter.get_ofValues` says that the bits of a filter are the probes of the values that were put into it, and
  `BloomFilter.test_ofValues` that it passes each of them.
-/

namespace SegmentStore

/-- Probes are bits of the filter. -/
theorem lt_of_mem_probes {v : Value} {bits hashes p : Nat} (hbits : 0 < bits)
    (hp : p ∈ probes v bits hashes) : p < bits := by
  simp only [probes, List.mem_map] at hp
  obtain ⟨i, -, rfl⟩ := hp
  rw [Nat.div_lt_iff_lt_mul (by decide), Nat.mul_comm]
  exact Nat.mul_lt_mul_of_pos_left (UInt64.toNat_lt_size _) hbits

namespace BloomFilter

/-- The size of a filter. -/
structure Shape (f : BloomFilter) (bits hashes : Nat) : Prop where
  bitCount : f.bitCount = bits
  hashes : f.hashes = hashes
  size : f.bytes.size = (bits + 7) / 8

variable {f : BloomFilter} {bits hashes : Nat} {v w : Value}

theorem shape_empty (bits hashes : Nat) : (empty bits hashes).Shape bits hashes :=
  ⟨rfl, rfl, by simp [empty]⟩

theorem shape_set (h : f.Shape bits hashes) (bit : Nat) : (f.set bit).Shape bits hashes :=
  ⟨h.bitCount, h.hashes, by simp [set, h.size]⟩

theorem shape_foldl_set (h : f.Shape bits hashes) (ps : List Nat) :
    (ps.foldl set f).Shape bits hashes := by
  induction ps generalizing f with
  | nil => exact h
  | cons p ps ih => exact ih (shape_set h p)

theorem shape_add (h : f.Shape bits hashes) (v : Value) : (f.add v).Shape bits hashes :=
  shape_foldl_set h _

theorem shape_ofValues (bits hashes : Nat) (vs : List Value) :
    (ofValues bits hashes vs).Shape bits hashes := by
  induction vs using List.reverseRecOn with
  | nil => exact shape_empty bits hashes
  | append_singleton vs v ih =>
    rw [ofValues, List.foldl_append]
    exact shape_add ih v

/-! ### Bits -/

/-- One bit of a byte. -/
theorem testBit_one_shiftLeft (k i : Nat) (hk : k < 8) :
    ((1 : UInt8) <<< UInt8.ofNat k).toNat.testBit i = decide (i = k) := by
  have hk' : (UInt8.ofNat k).toNat = k := UInt8.toNat_ofNat_of_lt' (Nat.lt_trans hk (by decide))
  rw [UInt8.toNat_shiftLeft, hk', Nat.mod_eq_of_lt hk]
  show ((1 <<< k) % 2 ^ 8).testBit i = _
  rw [Nat.testBit_mod_two_pow, Nat.one_shiftLeft, Nat.testBit_two_pow]
  by_cases hik : i = k
  · simp [hik, hk]
  · simp [hik, Ne.symm hik]

/-- Setting a bit of the filter sets that bit and no other. -/
theorem get_set (h : f.Shape bits hashes) {bit : Nat} (hbit : bit < bits) (other : Nat) :
    (f.set bit).get other = (f.get other || decide (other = bit)) := by
  have hsize := h.size
  rw [get, get, set]
  by_cases hbyte : other / 8 = bit / 8
  · have hlt : bit / 8 < f.bytes.size := by omega
    have hlt' : bit / 8 < (f.bytes.modify (bit / 8) fun b => b ||| 1 <<< UInt8.ofNat (bit % 8)).size := by
      rwa [Array.size_modify]
    have hsame : decide (other % 8 = bit % 8) = decide (other = bit) := decide_eq_decide.mpr (by omega)
    rw [hbyte, Array.getElem?_eq_getElem hlt', Array.getElem?_eq_getElem hlt, Array.getElem_modify_self,
      Option.getD_some, Option.getD_some, UInt8.toNat_or, Nat.testBit_or,
      testBit_one_shiftLeft _ _ (Nat.mod_lt bit (by decide)), hsame]
  · have hne : other ≠ bit := fun heq => hbyte (by rw [heq])
    rw [Array.getElem?_modify, if_neg fun heq => hbyte heq.symm, decide_eq_false hne, Bool.or_false]

theorem get_foldl_set (h : f.Shape bits hashes) {ps : List Nat} (hps : ∀ p ∈ ps, p < bits)
    (other : Nat) : (ps.foldl set f).get other = (f.get other || decide (other ∈ ps)) := by
  induction ps generalizing f with
  | nil => simp
  | cons p ps ih =>
    rw [List.foldl_cons, ih (shape_set h p) fun x hx => hps x (List.mem_cons_of_mem p hx),
      get_set h (hps p List.mem_cons_self), Bool.or_assoc]
    simp [Bool.decide_or]

/-! ### Values -/

/-- The test of a filter, by its bits. -/
theorem test_iff (h : f.Shape bits hashes) :
    f.test v = true ↔ ∀ p ∈ probes v bits hashes, f.get p = true := by
  rw [test, h.bitCount, h.hashes, List.all_eq_true]

theorem get_add (h : f.Shape bits hashes) (hbits : 0 < bits) (v : Value) (p : Nat) :
    (f.add v).get p = (f.get p || decide (p ∈ probes v bits hashes)) := by
  rw [add, h.bitCount, h.hashes]
  exact get_foldl_set h (fun p hp => lt_of_mem_probes hbits hp) p

theorem get_empty (bits hashes p : Nat) : (empty bits hashes).get p = false := by
  rw [get, empty]
  cases h : (Array.replicate ((bits + 7) / 8) (0 : UInt8))[p / 8]? with
  | none => exact Nat.zero_testBit _
  | some b =>
    obtain rfl := Array.eq_of_mem_replicate (Array.mem_of_getElem? h)
    exact Nat.zero_testBit _

/-- The bits of the filter of a list of values are their probes. -/
theorem get_ofValues (hbits : 0 < bits) {vs : List Value} {p : Nat} :
    (ofValues bits hashes vs).get p = true ↔ ∃ v ∈ vs, p ∈ probes v bits hashes := by
  induction vs using List.reverseRecOn with
  | nil => simp [ofValues, get_empty]
  | append_singleton vs w ih =>
    have hlast := get_add (shape_ofValues bits hashes vs) hbits w p
    rw [ofValues, List.foldl_append]
    change ((ofValues bits hashes vs).add w).get p = true ↔ _
    rw [hlast, Bool.or_eq_true, ih, decide_eq_true_iff]
    simp [or_and_right, exists_or]

/-- The filter of a list of values passes each of them. -/
theorem test_ofValues (hbits : 0 < bits) (hashes : Nat) {vs : List Value} (hv : v ∈ vs) :
    (ofValues bits hashes vs).test v = true := by
  rw [test_iff (shape_ofValues bits hashes vs)]
  intro p hp
  exact (get_ofValues hbits).mpr ⟨v, hv, hp⟩

end BloomFilter

end SegmentStore
