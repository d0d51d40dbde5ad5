import SegmentStore.Proofs.Words
import SegmentStore.Value.Codec

/-!
# Decoders that read an encoding

* `Decoder.Reads d x bs` says that `d` takes exactly `bs` off the front of any sequence and makes `x` of
  it: the round trip of a code together with its being a prefix code.
* `Decoder.Reads.bind` and `Decoder.Reads.many` put codes together, so that the law of a record follows
  from the laws of its fields.
* `plus_eq_ok_iff` says when the sum of two words is a word, for lengths and places that were read.
* `Value.reads_encode` is the law of tagged values, with `Value.Fits` for the width of a text's length.
-/

namespace SegmentStore

namespace Decoder

variable {α β : Type}

/-- Whatever follows the bytes `bs`, the decoder takes exactly them and makes `x` of them. -/
def Reads (d : Decoder α) (x : α) (bs : Bytes) : Prop := ∀ rest, d (bs ++ rest) = .ok (x, rest)

theorem reads_pure (x : α) : Reads (pure x) x [] := fun _ => rfl

theorem Reads.bind {d : Decoder α} {f : α → Decoder β} {x : α} {y : β} {bs cs : Bytes}
    (hd : Reads d x bs) (hf : Reads (f x) y cs) : Reads (d >>= f) y (bs ++ cs) := by
  intro rest
  show (d (bs ++ cs ++ rest) >>= fun r => f r.1 r.2) = _
  rw [List.append_assoc, hd (cs ++ rest)]
  exact hf rest

/-- The last step of a decoder only puts the parts together. -/
theorem Reads.map {d : Decoder α} {f : α → β} {x : α} {bs : Bytes} (hd : Reads d x bs) :
    Reads (d >>= fun a => pure (f a)) (f x) bs := by
  have h := Reads.bind (f := fun a => pure (f a)) hd (reads_pure (f x))
  rwa [List.append_nil] at h

theorem Reads.many {d : Decoder α} {encode : α → Bytes} {xs : List α}
    (h : ∀ x ∈ xs, Reads d x (encode x)) : Reads (many d xs.length) xs (xs.flatMap encode) := by
  induction xs with
  | nil => exact reads_pure []
  | cons x xs ih =>
    rw [List.flatMap_cons]
    have hx := h x List.mem_cons_self
    have hxs := ih fun y hy => h y (List.mem_cons_of_mem x hy)
    exact hx.bind hxs.map

/-- Nothing is left of the encoding itself. -/
theorem Reads.apply_self {d : Decoder α} {x : α} {bs : Bytes} (h : Reads d x bs) :
    d bs = .ok (x, []) := by
  simpa using h []

theorem Reads.whole {d : Decoder α} {x : α} {bs : Bytes} (h : Reads d x bs) (trailing : FormatFault) :
    whole d trailing bs = .ok x := by
  rw [Decoder.whole, h.apply_self]

/-! ### Words, flags and names -/

theorem reads_bytes (bs : Bytes) (fault : FormatFault) : Reads (bytes bs.length fault) bs bs :=
  fun rest => bytes_append rfl rest fault

theorem reads_u8 (b : UInt8) : Reads u8 b [b] := fun _ => rfl

theorem reads_u32 (x : UInt32) : Reads u32 x (u32Bytes x) := u32_append x

theorem reads_u64 (x : UInt64) : Reads u64 x (u64Bytes x) := u64_append x

theorem flagByte_bne_zero (b : Bool) : (flagByte b != 0) = b := by
  cases b <;> decide

theorem reads_flag (b : Bool) : Reads flag b [flagByte b] := by
  have h : Reads flag (flagByte b != 0) [flagByte b] := (reads_u8 (flagByte b)).map
  rwa [flagByte_bne_zero] at h

theorem reads_named {x : Option α} {a : α} (h : x = some a) (fault : FormatFault) :
    Reads (named x fault) a [] := by
  subst h
  exact reads_pure a

/-- A count that fits its word is read back as it was. -/
theorem toNat_ofNat_u32 {n : Nat} (h : n < 2 ^ 32) : (UInt32.ofNat n).toNat = n :=
  UInt32.toNat_ofNat_of_lt' h

theorem toNat_ofNat_u64 {n : Nat} (h : n < 2 ^ 64) : (UInt64.ofNat n).toNat = n :=
  UInt64.toNat_ofNat_of_lt' h

/-- The sum of two words does not wrap around where it fits a word. -/
theorem toNat_add_u64 {a b : UInt64} (h : a.toNat + b.toNat < 2 ^ 64) : (a + b).toNat = a.toNat + b.toNat := by
  rw [UInt64.toNat_add, Nat.mod_eq_of_lt h]

end Decoder

/-! ### Sums of words -/

theorem plus_eq {a b : UInt64} (h : a.toNat + b.toNat < 2 ^ 64) : plus a b = .ok (a + b) := if_pos h

theorem plus_overflow {a b : UInt64} (h : ¬a.toNat + b.toNat < 2 ^ 64) : plus a b = .error .overflow := if_neg h

theorem plus_eq_ok_iff {a b c : UInt64} : plus a b = .ok c ↔ a.toNat + b.toNat < 2 ^ 64 ∧ c = a + b := by
  by_cases h : a.toNat + b.toNat < 2 ^ 64
  · rw [plus_eq h, Except.ok.injEq, and_iff_right h, eq_comm]
  · rw [plus_overflow h]
    exact iff_of_false nofun fun hsum => h hsum.1

theorem toNat_of_plus {a b c : UInt64} (h : plus a b = .ok c) : c.toNat = a.toNat + b.toNat := by
  obtain ⟨hfits, rfl⟩ := plus_eq_ok_iff.mp h
  exact Decoder.toNat_add_u64 hfits

/-! ### Values -/

namespace Value

open Decoder

/-- The length of a text fits the word that records it. -/
def Fits : Value → Prop
  | .string s => (Utf8.encode s).length < 2 ^ 32
  | _ => True

theorem reads_plain {v : Value} {ty : FieldType} (hty : v.fieldType? = some ty) (hv : v.Fits) :
    Reads (decodePlain ty) v v.plain := by
  cases v with
  | null => simp [fieldType?] at hty
  | bool b =>
    obtain rfl : FieldType.bool = ty := by simpa [fieldType?] using hty
    exact (reads_flag b).map
  | int32 n =>
    obtain rfl : FieldType.int32 = ty := by simpa [fieldType?] using hty
    exact (reads_u32 n.toUInt32).map
  | int64 n =>
    obtain rfl : FieldType.int64 = ty := by simpa [fieldType?] using hty
    exact (reads_u64 n.toUInt64).map
  | float64 x =>
    obtain rfl : FieldType.float64 = ty := by simpa [fieldType?] using hty
    exact (reads_u64 x.bits).map
  | string s =>
    obtain rfl : FieldType.varchar = ty := by simpa [fieldType?] using hty
    have hlen : (UInt32.ofNat (Utf8.encode s).length).toNat = (Utf8.encode s).length :=
      toNat_ofNat_u32 hv
    have htext : Reads (do
        let bs ← bytes (UInt32.ofNat (Utf8.encode s).length).toNat .truncatedString
        let t ← named (Utf8.decode? bs) .invalidString
        pure (Value.string t)) (.string s) (Utf8.encode s) := by
      rw [hlen]
      have hname : Reads (named (Utf8.decode? (Utf8.encode s)) .invalidString >>=
          fun t => pure (Value.string t)) (.string s) [] :=
        (reads_named (Utf8.decode?_encode s) .invalidString).map
      have h := Reads.bind (f := fun bs => named (Utf8.decode? bs) .invalidString >>=
        fun t => pure (Value.string t)) (reads_bytes (Utf8.encode s) .truncatedString) hname
      rwa [List.append_nil] at h
    exact (reads_u32 _).bind htext

/-- The tagged form is read back, to the bit. -/
theorem reads_encode {v : Value} (hv : v.Fits) : Reads decode v v.encode := by
  rcases hty : v.fieldType? with _ | ty
  · obtain rfl : v = .null := by cases v <;> simp_all [fieldType?]
    intro rest
    rfl
  · have htag : ty.tag ≠ 0 := by cases ty <;> decide
    have hname := reads_named (FieldType.ofTag?_tag ty) (.unknownValueTag ty.tag)
    have hrest : Reads (if ty.tag = 0 then pure Value.null
        else named (FieldType.ofTag? ty.tag) (.unknownValueTag ty.tag) >>= decodePlain) v v.plain := by
      rw [if_neg htag]
      exact hname.bind (reads_plain hty hv)
    have henc : v.encode = [ty.tag] ++ v.plain := by simp [encode, hty]
    rw [henc]
    exact (reads_u8 ty.tag).bind hrest

end Value

end SegmentStore
