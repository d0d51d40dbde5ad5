import SegmentStore.Proofs.Framing

/-!
# Tagged values as a prefix code

Values of six kinds and many widths share one code. No value's code goes on from that of another, so that values can
stand one behind the other and the code of a value can stand for the value itself, as in a bloom filter.

* `Decoder.Stops d bs fault` says that `d` refuses the bytes `bs` cut short, and with which fault. It goes through
  `bind` as `Decoder.Reads` does.
* `Value.stops_encode` says where the code of a value may be cut, `Value.cutFault` being what is found there.
* `Value.encode_prefix_code` puts reading, cutting and telling apart together, and adds what comes of bytes that were
  not written as values.
-/

namespace SegmentStore

namespace Decoder

variable {α β : Type} {d : Decoder α} {f : α → Decoder β} {x : α} {bs cs : Bytes} {fault fault' : Nat → FormatFault}
variable {e : FormatFault}

/-- The bytes `bs` are refused when they are cut short, with the fault `fault n` if the first `n` of them are left. -/
def Stops (d : Decoder α) (bs : Bytes) (fault : Nat → FormatFault) : Prop :=
  ∀ n < bs.length, d (bs.take n) = .error (fault n)

/-- Nothing can be cut off from nothing. -/
theorem stops_nil (d : Decoder α) (fault : Nat → FormatFault) : Stops d [] fault :=
  fun _ h => nomatch h

theorem Stops.congr (h : Stops d bs fault) (hfault : ∀ n < bs.length, fault n = fault' n) : Stops d bs fault' := by
  intro n hn
  rw [h n hn, hfault n hn]

/-- What is refused is refused whatever is to follow. -/
theorem Stops.andThen (hd : Stops d bs fault) (f : α → Decoder β) : Stops (d >>= f) bs fault := by
  intro n hn
  show (d (bs.take n) >>= fun r => f r.1 r.2) = _
  rw [hd n hn]
  rfl

/-- A cut falls into the first part, which then is not read, or into the second, before which the first is read. -/
theorem Stops.bind (hreads : Reads d x bs) (hd : Stops d bs fault) (hf : Stops (f x) cs fault') :
    Stops (d >>= f) (bs ++ cs) fun n => if n < bs.length then fault n else fault' (n - bs.length) := by
  intro n hn
  show (d ((bs ++ cs).take n) >>= fun r => f r.1 r.2)
    = .error (if n < bs.length then fault n else fault' (n - bs.length))
  rw [List.take_append]
  by_cases hfirst : n < bs.length
  · rw [if_pos hfirst, Nat.sub_eq_zero_of_le (Nat.le_of_lt hfirst), List.take_zero, List.append_nil]
    exact hd.andThen f n hfirst
  · rw [List.length_append] at hn
    rw [if_neg hfirst, List.take_of_length_le (Nat.le_of_not_lt hfirst), hreads]
    exact hf (n - bs.length) (by omega)

/-! ### Words and flags -/

theorem stops_bytes (bs : Bytes) (e : FormatFault) : Stops (bytes bs.length e) bs fun _ => e := by
  intro n hn
  have hshort : (bs.take n).length < bs.length := by
    rw [List.length_take]
    omega
  rw [bytes, splitExact?_eq_none.mpr hshort]

theorem stops_u8 (b : UInt8) : Stops u8 [b] fun _ => .endOfBuffer := by
  intro n hn
  obtain rfl : n = 0 := Nat.lt_one_iff.mp hn
  rfl

theorem stops_flag (b : UInt8) : Stops flag [b] fun _ => .endOfBuffer := (stops_u8 b).andThen _

theorem stops_u32 (x : UInt32) : Stops u32 (u32Bytes x) fun _ => .endOfBuffer := by
  have hbytes := stops_bytes (u32Bytes x) .endOfBuffer
  rw [u32Bytes, length_leBytes] at hbytes
  exact hbytes.andThen _

theorem stops_u64 (x : UInt64) : Stops u64 (u64Bytes x) fun _ => .endOfBuffer := by
  have hbytes := stops_bytes (u64Bytes x) .endOfBuffer
  rw [u64Bytes, length_leBytes] at hbytes
  exact hbytes.andThen _

end Decoder

namespace Value

open Decoder

/-- What is found when `n` bytes are left of the tagged form of a value: a text of which the length is there, or
something that ends too soon. -/
def cutFault : Value → Nat → FormatFault
  | .string _, n => if n < 5 then .endOfBuffer else .truncatedString
  | _, _ => .endOfBuffer

/-- A stored form is refused when it is cut short. -/
theorem stops_plain {v : Value} {ty : FieldType} (hty : v.fieldType? = some ty) (hv : v.Fits) :
    Stops (decodePlain ty) v.plain fun n => v.cutFault (n + 1) := by
  cases v with
  | null => cases hty
  | bool b =>
    obtain rfl := Option.some.inj hty
    exact (stops_flag (flagByte b)).andThen _
  | int32 n =>
    obtain rfl := Option.some.inj hty
    exact (stops_u32 n.toUInt32).andThen _
  | int64 n =>
    obtain rfl := Option.some.inj hty
    exact (stops_u64 n.toUInt64).andThen _
  | float64 x =>
    obtain rfl := Option.some.inj hty
    exact (stops_u64 x.bits).andThen _
  | string s =>
    obtain rfl := Option.some.inj hty
    have htext : Stops (bytes (UInt32.ofNat (Utf8.encode s).length).toNat .truncatedString) (Utf8.encode s)
        fun _ => .truncatedString := by
      rw [toNat_ofNat_u32 hv]
      exact stops_bytes (Utf8.encode s) .truncatedString
    refine (Stops.bind (reads_u32 _) (stops_u32 _) (htext.andThen _)).congr fun n _ => ?_
    rw [u32Bytes, length_leBytes, cutFault]
    exact if_congr Nat.succ_lt_succ_iff.symm rfl rfl

/-- The tagged form of a value is refused when it is cut short. -/
theorem stops_encode {v : Value} (hv : v.Fits) : Stops decode v.encode v.cutFault := by
  cases hty : v.fieldType? with
  | none =>
    obtain rfl : v = .null := by
      cases v with
      | null => rfl
      | _ => cases hty
    exact (stops_u8 0).andThen _
  | some ty =>
    have htag : ty.tag ≠ 0 := by cases ty <;> decide
    have hrest : Stops (if ty.tag = 0 then pure Value.null
        else named (FieldType.ofTag? ty.tag) (.unknownValueTag ty.tag) >>= decodePlain) v.plain
        fun n => v.cutFault (n + 1) := by
      rw [if_neg htag]
      have hnamed := reads_named (FieldType.ofTag?_tag ty) (.unknownValueTag ty.tag)
      exact (Stops.bind hnamed (stops_nil _ v.cutFault) (stops_plain hty hv)).congr fun _ _ => rfl
    have hencode : v.encode = [ty.tag] ++ v.plain := by rw [encode, hty, List.singleton_append]
    rw [hencode]
    refine (Stops.bind (reads_u8 ty.tag) (stops_u8 ty.tag) hrest).congr fun n _ => ?_
    rw [List.length_singleton]
    split
    · rename_i hn
      obtain rfl := Nat.lt_one_iff.mp hn
      cases v <;> rfl
    · rename_i hn
      rw [Nat.sub_add_cancel (Nat.le_of_not_lt hn)]

/-- A value of which the code starts that of another value is that value. -/
theorem eq_of_encode_leads {v w : Value} (hv : v.Fits) (hw : w.Fits) (h : w.encode <+: v.encode) : w = v := by
  obtain ⟨tail, htail⟩ := h
  have hread := reads_encode hw tail
  rw [htail, (reads_encode hv).apply_self] at hread
  exact (congrArg Prod.fst (Except.ok.inj hread)).symm

/-- Any bytes may follow the code of a value, and it is read as that value to the bit. Cut short it is refused. It
starts with the code of no other value, hence is that of no other. What is read from any bytes is a value whose own code
is read as it, though the bytes may have been others. -/
theorem encode_prefix_code :
    (∀ v : Value, v.Fits →
      (∀ rest, decode (v.encode ++ rest) = .ok (v, rest))
        ∧ (∀ front tail, front ++ tail = v.encode → tail ≠ [] → decode front = .error (v.cutFault front.length))
        ∧ ∀ w : Value, w.Fits → (w.encode <+: v.encode ↔ w = v) ∧ (w.encode = v.encode ↔ w = v)) ∧
    ∀ (bs : Bytes) (v : Value) (rest : Bytes), decode bs = .ok (v, rest) →
      v.Fits ∧ ∀ rest', decode (v.encode ++ rest') = .ok (v, rest') := by
  constructor
  · intro v hv
    refine ⟨reads_encode hv, ?_, fun w hw => ⟨⟨eq_of_encode_leads hv hw, ?_⟩, ?_, congrArg encode⟩⟩
    · intro front tail hcut htail
      have hshort : front.length < v.encode.length := by
        rw [← hcut, List.length_append]
        exact Nat.lt_add_of_pos_right (List.length_pos_of_ne_nil htail)
      have hstop := stops_encode hv front.length hshort
      rwa [← hcut, List.take_left] at hstop
    · rintro rfl
      exact List.prefix_refl w.encode
    · intro h
      exact eq_of_encode_leads hv hw (h ▸ List.prefix_refl w.encode)
  · intro bs v rest h
    obtain ⟨-, -, hfits, -⟩ := takes_decode h
    exact ⟨hfits, reads_encode hfits⟩

/-- A double that is no number stands before a text. The text is cut within its length and behind it, the zeros have
different codes, and a flag is read that was written as two. -/
theorem encode_prefix_code_doubles :
    let nan : Value := .float64 ⟨0x7FF8000000000001⟩
    let text : Value := .string "key"
    decode (nan.encode ++ text.encode) = .ok (nan, text.encode)
      ∧ decode (text.encode.take 4) = .error .endOfBuffer
      ∧ decode (text.encode.take 7) = .error .truncatedString
      ∧ (Value.float64 .zero).encode ≠ (Value.float64 Float64.zero.neg).encode
      ∧ decode [1, 2, 9] = .ok (.bool true, [9])
      ∧ decode ((Value.bool true).encode ++ [9]) = .ok (.bool true, [9]) := by
  intro nan text
  have htext : text.Fits := show (Utf8.encode "key").length < 2 ^ 32 by decide
  obtain ⟨-, hcut, -⟩ := encode_prefix_code.1 text htext
  obtain ⟨-, -, hzeros⟩ := encode_prefix_code.1 (.float64 Float64.zero.neg) trivial
  have hflag : decode [1, 2, 9] = .ok (.bool true, [9]) := rfl
  refine ⟨(encode_prefix_code.1 nan trivial).1 text.encode, ?_, ?_, ?_, hflag, ?_⟩
  · exact hcut _ _ (List.take_append_drop 4 _) (by decide)
  · exact hcut _ _ (List.take_append_drop 7 _) (by decide)
  · intro h
    exact absurd ((hzeros (.float64 .zero) trivial).2.mp h) (by decide)
  · exact (encode_prefix_code.2 _ _ _ hflag).2 [9]

end Value

end SegmentStore
