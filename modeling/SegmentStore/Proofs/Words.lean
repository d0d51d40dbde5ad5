import Mathlib.Tactic.Ring
import SegmentStore.Bytes.Decoder

/-!
# Words read back

* `leNat_leBytes` says what is left of a natural that was written as a word.
* `splitExact?_leBytes`, `Decoder.u32_append` and `Decoder.u64_append` read a word off the front of the bytes it was
  written to.
* `size_appendList` and `appendList_appendList` are about bytes that are put behind others.
-/

namespace SegmentStore

theorem leNat_leBytes (width n : Nat) : leNat (leBytes width n) = n % 256 ^ width := by
  induction width generalizing n with
  | zero => simp [leBytes, leNat, Nat.mod_one]
  | succ width ih =>
    have hlow : (UInt8.ofNat n).toNat = n % 256 := UInt8.toNat_ofNat'
    rw [leBytes, leNat, ih, hlow, Nat.pow_succ', Nat.mod_mul]

theorem splitExact?_leBytes (width n : Nat) (rest : Bytes) :
    splitExact? width (leBytes width n ++ rest) = some (leBytes width n, rest) := by
  have h := splitExact?_append (leBytes width n) rest
  rwa [length_leBytes] at h

theorem size_appendList (bytes : Array UInt8) (bs : Bytes) : (bytes ++ bs).size = bytes.size + bs.length := by
  rw [← Array.length_toList, Array.toList_appendList, List.length_append, Array.length_toList]

theorem appendList_appendList (bytes : Array UInt8) (bs cs : Bytes) : bytes ++ bs ++ cs = bytes ++ (bs ++ cs) := by
  apply Array.toList_inj.mp
  rw [Array.toList_appendList, Array.toList_appendList, Array.toList_appendList, List.append_assoc]

namespace Decoder

/-- Exactly the wanted bytes are taken. -/
theorem bytes_append {n : Nat} {x : Bytes} (h : x.length = n) (rest : Bytes) (fault : FormatFault) :
    bytes n fault (x ++ rest) = .ok (x, rest) := by
  subst h
  rw [bytes, splitExact?_append]

theorem u32_append (x : UInt32) (rest : Bytes) : u32 (u32Bytes x ++ rest) = .ok (x, rest) := by
  have hbytes := bytes_append (length_leBytes 4 x.toNat) rest .endOfBuffer
  have hx : UInt32.ofNat (leNat (u32Bytes x)) = x := by
    have hlt := x.toNat_lt
    rw [u32Bytes, leNat_leBytes, Nat.mod_eq_of_lt (by omega)]
    exact UInt32.ofNat_toNat
  show (match bytes 4 .endOfBuffer (leBytes 4 x.toNat ++ rest) with
    | .error e => Except.error e
    | .ok (bs, rest) => .ok (UInt32.ofNat (leNat bs), rest)) = _
  rw [hbytes]
  exact congrArg (fun y => Except.ok (y, rest)) hx

theorem u64_append (x : UInt64) (rest : Bytes) : u64 (u64Bytes x ++ rest) = .ok (x, rest) := by
  have hbytes := bytes_append (length_leBytes 8 x.toNat) rest .endOfBuffer
  have hx : UInt64.ofNat (leNat (u64Bytes x)) = x := by
    have hlt := x.toNat_lt
    rw [u64Bytes, leNat_leBytes, Nat.mod_eq_of_lt (by omega)]
    exact UInt64.ofNat_toNat
  show (match bytes 8 .endOfBuffer (leBytes 8 x.toNat ++ rest) with
    | .error e => Except.error e
    | .ok (bs, rest) => .ok (UInt64.ofNat (leNat bs), rest)) = _
  rw [hbytes]
  exact congrArg (fun y => Except.ok (y, rest)) hx

end Decoder

end SegmentStore
