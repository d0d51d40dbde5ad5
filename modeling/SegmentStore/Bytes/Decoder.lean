import SegmentStore.Error

/-!
# Taking bytes off the front

* `Decoder α` takes some bytes off the front of a sequence and makes an `α` of them, or fails.
* `Decoder.u8`, `Decoder.u32` and `Decoder.u64` read words, `Decoder.many` repeats a decoder.
* `splitExact?_append` says that exactly the wanted bytes are taken, `splitExact?_eq_none` that
  only a shortage of bytes fails.
-/

namespace SegmentStore

/-- The first `n` bytes and the rest, if there are so many. -/
def splitExact? (n : Nat) (bs : Bytes) : Option (Bytes × Bytes) :=
  let front := bs.take n
  if front.length = n then some (front, bs.drop n) else none

theorem splitExact?_append (x rest : Bytes) : splitExact? x.length (x ++ rest) = some (x, rest) := by
  simp [splitExact?]

theorem splitExact?_eq_none {n : Nat} {bs : Bytes} : splitExact? n bs = none ↔ bs.length < n := by
  simp only [splitExact?, List.length_take]
  split
  · simp only [reduceCtorEq, false_iff]
    omega
  · simp only [true_iff]
    omega

theorem append_of_splitExact? {n : Nat} {bs x rest : Bytes} (h : splitExact? n bs = some (x, rest)) :
    x ++ rest = bs ∧ x.length = n := by
  simp only [splitExact?] at h
  split at h
  · rename_i hlen
    simp only [Option.some.injEq, Prod.mk.injEq] at h
    obtain ⟨rfl, rfl⟩ := h
    exact ⟨List.take_append_drop n bs, hlen⟩
  · simp at h

/-- Takes bytes off the front of a sequence, or finds a fault. -/
abbrev Decoder (α : Type) := StateT Bytes (Except FormatFault) α

namespace Decoder

/-- Fails with the given fault. -/
def fail {α : Type} (fault : FormatFault) : Decoder α := fun _ => .error fault

/-- The next `n` bytes. -/
def bytes (n : Nat) (fault : FormatFault) : Decoder Bytes := fun bs =>
  match splitExact? n bs with
  | some r => .ok r
  | none => .error fault

/-- The next byte. -/
def u8 : Decoder UInt8
  | [] => .error .endOfBuffer
  | b :: bs => .ok (b, bs)

/-- The next 32-bit word. -/
def u32 : Decoder UInt32 := do
  let bs ← bytes 4 .endOfBuffer
  return UInt32.ofNat (leNat bs)

/-- The next 64-bit word. -/
def u64 : Decoder UInt64 := do
  let bs ← bytes 8 .endOfBuffer
  return UInt64.ofNat (leNat bs)

/-- A flag: any byte but zero is true. -/
def flag : Decoder Bool := do
  let b ← u8
  return b != 0

/-- The decoder `n` times over. -/
def many {α : Type} (d : Decoder α) : Nat → Decoder (List α)
  | 0 => pure []
  | n + 1 => do
    let x ← d
    let xs ← many d n
    return x :: xs

/-- The value named by a tag, or the fault for a tag that names none. -/
def named {α : Type} (x : Option α) (fault : FormatFault) : Decoder α :=
  match x with
  | some a => pure a
  | none => fail fault

/-- Decodes a whole sequence: nothing may be left over. -/
def whole {α : Type} (d : Decoder α) (trailing : FormatFault) (bs : Bytes) : Except FormatFault α :=
  match d bs with
  | .ok (x, []) => .ok x
  | .ok (_, _ :: _) => .error trailing
  | .error e => .error e

end Decoder

end SegmentStore
