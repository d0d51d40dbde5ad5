import SegmentStore.Proofs.Indexes

/-!
# Bytes that a decoder accepts

`Decoder.Reads` is about bytes that were written. Here the bytes are any that a decoder accepts, whoever wrote them.

* `Decoder.Takes d P` says that `d` never looks behind the bytes it takes off the front, and that `P` holds of these
  bytes and of what is made of them. It goes through `bind` and `many` as `Decoder.Reads` does.
* `Decoder.Takes.whole_append` and `Decoder.Takes.whole_front`: of two sequences of which one goes on from the other, a
  decoder for whole sequences accepts at most one.
* `ZoneMap.writable_of_decode` says that only zone maps that can be written are read, `ZoneMap.decode_framed` that each is
  read back, and that no zone map is read as a shorter or a longer one.
-/

namespace SegmentStore

theorem bind_eq_ok {ε α β : Type} {x : Except ε α} {f : α → Except ε β} {b : β} :
    (x >>= f) = .ok b ↔ ∃ a, x = .ok a ∧ f a = .ok b := by
  cases x with
  | error e => exact iff_of_false (fun h => nomatch h) fun ⟨_, h, _⟩ => nomatch h
  | ok a =>
    constructor
    · intro h
      exact ⟨a, rfl, h⟩
    · intro h
      obtain ⟨a', ha, h⟩ := h
      rwa [← Except.ok.inj ha] at h

theorem ok_of_liftFault {α : Type} {x : Except FormatFault α} {a : α} (h : liftFault x = .ok a) :
    x = .ok a := by
  cases x with
  | error e => cases h
  | ok b => rw [Except.ok.inj h]

namespace Decoder

variable {α β : Type} {d : Decoder α} {P : Bytes → α → Prop} {Q : Bytes → β → Prop}

/-- Whatever is accepted starts with bytes that give the same value before any other bytes, and `P` holds of these bytes
and the value. -/
def Takes (d : Decoder α) (P : Bytes → α → Prop) : Prop :=
  ∀ ⦃bs x rest⦄, d bs = .ok (x, rest) → ∃ front, bs = front ++ rest ∧ P front x ∧ Reads d x front

theorem takes_pure {x : α} (h : P [] x) : Takes (pure x) P := by
  intro bs y rest hy
  obtain ⟨rfl, rfl⟩ := Prod.mk.inj (Except.ok.inj hy)
  exact ⟨[], rfl, h, reads_pure x⟩

theorem takes_fail (fault : FormatFault) : Takes (fail fault) P := by
  intro bs x rest h
  cases h

theorem Takes.mono {R : Bytes → α → Prop} (hd : Takes d P) (h : ∀ {front x}, P front x → R front x) : Takes d R := by
  intro bs x rest hx
  obtain ⟨front, hbs, hP, hreads⟩ := hd hx
  exact ⟨front, hbs, h hP, hreads⟩

theorem Takes.bind {f : α → Decoder β} (hd : Takes d P)
    (hf : ∀ {front x}, P front x → Takes (f x) fun back y => Q (front ++ back) y) : Takes (d >>= f) Q := by
  intro bs y rest h
  obtain ⟨⟨x, mid⟩, hx, hy⟩ := bind_eq_ok.mp h
  obtain ⟨front, rfl, hP, hfront⟩ := hd hx
  obtain ⟨back, rfl, hQ, hback⟩ := hf hP hy
  exact ⟨front ++ back, (List.append_assoc front back rest).symm, hQ, hfront.bind hback⟩

theorem Takes.map {f : α → β} (hd : Takes d P) (hf : ∀ {front x}, P front x → Q front (f x)) :
    Takes (d >>= fun x => pure (f x)) Q := by
  apply hd.bind
  intro front x hP
  apply takes_pure
  rw [List.append_nil]
  exact hf hP

/-- Of what is decoded over and over, anything holds that holds of nothing and that each turn keeps. -/
theorem Takes.many {R : Bytes → List α → Prop} (hd : Takes d P) (hnil : R [] [])
    (hcons : ∀ {front x back xs}, P front x → R back xs → R (front ++ back) (x :: xs)) (n : Nat) :
    Takes (many d n) fun front xs => xs.length = n ∧ R front xs := by
  induction n with
  | zero => exact takes_pure ⟨rfl, hnil⟩
  | succ n ih =>
    apply hd.bind
    intro front x hP
    apply ih.map
    intro back xs hxs
    exact ⟨congrArg (· + 1) hxs.1, hcons hP hxs.2⟩

/-! ### Words, flags and names -/

theorem takes_bytes (n : Nat) (fault : FormatFault) :
    Takes (bytes n fault) fun front x => front = x ∧ x.length = n := by
  intro bs x rest h
  rw [bytes] at h
  split at h
  · rename_i r hsplit
    rw [Except.ok.inj h] at hsplit
    obtain ⟨rfl, rfl⟩ := append_of_splitExact? hsplit
    exact ⟨x, rfl, ⟨rfl, rfl⟩, reads_bytes x fault⟩
  · cases h

theorem takes_u8 : Takes u8 fun front b => front = [b] := by
  intro bs b rest h
  cases bs with
  | nil => cases h
  | cons b' bs =>
    obtain ⟨rfl, rfl⟩ := Prod.mk.inj (Except.ok.inj h)
    exact ⟨[b'], rfl, rfl, reads_u8 b'⟩

theorem leNat_lt (bs : Bytes) : leNat bs < 256 ^ bs.length := by
  induction bs with
  | nil => decide
  | cons b bs ih =>
    have hb := b.toNat_lt
    rw [leNat, List.length_cons, Nat.pow_succ]
    omega

theorem u32Bytes_leNat {bs : Bytes} (h : bs.length = 4) : u32Bytes (UInt32.ofNat (leNat bs)) = bs := by
  have hlt := leNat_lt bs
  rw [h] at hlt
  rw [u32Bytes, toNat_ofNat_u32 (by omega), ← h, leBytes_leNat]

theorem u64Bytes_leNat {bs : Bytes} (h : bs.length = 8) : u64Bytes (UInt64.ofNat (leNat bs)) = bs := by
  have hlt := leNat_lt bs
  rw [h] at hlt
  rw [u64Bytes, toNat_ofNat_u64 (by omega), ← h, leBytes_leNat]

theorem takes_u32 : Takes u32 fun front x => front = u32Bytes x := by
  apply (takes_bytes 4 .endOfBuffer).map
  rintro front bs ⟨rfl, hlength⟩
  exact (u32Bytes_leNat hlength).symm

theorem takes_u64 : Takes u64 fun front x => front = u64Bytes x := by
  apply (takes_bytes 8 .endOfBuffer).map
  rintro front bs ⟨rfl, hlength⟩
  exact (u64Bytes_leNat hlength).symm

/-- Which byte a flag took is not known from the flag, since any byte but zero is true. -/
theorem takes_flag : Takes flag fun front b => ∃ mark, front = [mark] ∧ (mark != 0) = b := by
  apply takes_u8.map
  rintro front mark rfl
  exact ⟨mark, rfl, rfl⟩

theorem takes_named (x : Option α) (fault : FormatFault) :
    Takes (named x fault) fun front a => front = [] ∧ x = some a := by
  cases x with
  | none => exact takes_fail fault
  | some a => exact takes_pure ⟨rfl, rfl⟩

/-! ### Whole sequences -/

theorem eq_of_whole {trailing : FormatFault} {bs : Bytes} {x : α} (h : whole d trailing bs = .ok x) :
    d bs = .ok (x, []) := by
  rw [whole] at h
  split at h
  · rename_i y hd
    rw [hd, Except.ok.inj h]
  · cases h
  · cases h

/-- The value of a sequence that is accepted as a whole has what the decoder makes sure of. -/
theorem Takes.of_whole (hd : Takes d P) {trailing : FormatFault} {bs : Bytes} {x : α}
    (h : whole d trailing bs = .ok x) : P bs x ∧ Reads d x bs := by
  obtain ⟨front, rfl, hP, hreads⟩ := hd (eq_of_whole h)
  rw [List.append_nil]
  exact ⟨hP, hreads⟩

/-- The bytes behind a sequence that is accepted are left over. -/
theorem Takes.whole_append (hd : Takes d P) {trailing : FormatFault} {bs tail : Bytes} {x : α}
    (h : whole d trailing bs = .ok x) (htail : tail ≠ []) : whole d trailing (bs ++ tail) = .error trailing := by
  obtain ⟨b, tail, rfl⟩ := List.exists_cons_of_ne_nil htail
  rw [whole, (hd.of_whole h).2 (b :: tail)]

/-- Were the front accepted, the bytes behind it would be left over. -/
theorem Takes.whole_front (hd : Takes d P) {trailing : FormatFault} {front tail : Bytes} {x : α}
    (h : whole d trailing (front ++ tail) = .ok x) (htail : tail ≠ []) :
    ∃ e, whole d trailing front = .error e := by
  cases hfront : whole d trailing front with
  | error e => exact ⟨e, rfl⟩
  | ok y =>
    rw [hd.whole_append hfront htail] at h
    cases h

end Decoder

open Decoder

/-! ### Values -/

namespace Value

theorem takes_decodePlain (ty : FieldType) : Takes (decodePlain ty) fun _ v => v.Fits := by
  cases ty with
  | bool => exact takes_flag.map fun _ => trivial
  | int32 => exact takes_u32.map fun _ => trivial
  | int64 => exact takes_u64.map fun _ => trivial
  | float64 => exact takes_u64.map fun _ => trivial
  | varchar =>
    apply takes_u32.bind
    intro _ length _
    apply (takes_bytes length.toNat .truncatedString).bind
    rintro _ bs ⟨-, hlength⟩
    apply (takes_named (Utf8.decode? bs) .invalidString).map
    rintro _ s ⟨-, hs⟩
    show (Utf8.encode s).length < 2 ^ 32
    rw [Utf8.encode_of_decode? hs, hlength]
    exact length.toNat_lt

/-- A text that is read came with its length, so that it can be written. -/
theorem takes_decode : Takes decode fun _ v => v.Fits := by
  apply takes_u8.bind
  intro _ tag _
  split
  · exact takes_pure trivial
  · apply (takes_named _ _).bind
    intro _ ty _
    exact takes_decodePlain ty

end Value

/-! ### Zone maps -/

theorem ZoneMapEntry.takes_decode (type : FieldType) : Takes (decode type) fun _ e => e.Writable type := by
  apply takes_u8.bind
  intro _ count _
  apply (takes_u64.many (R := fun _ _ => True) trivial (fun _ _ => trivial) count.toNat).bind
  rintro _ positions ⟨hcount, -⟩
  apply Value.takes_decode.bind
  intro _ min hmin
  apply Value.takes_decode.bind
  intro _ max hmax
  split
  · exact takes_fail _
  · rename_i haccepts
    rw [Bool.or_eq_true, not_or, Bool.not_eq_true', Bool.not_eq_true', Bool.not_eq_false, Bool.not_eq_false]
      at haccepts
    apply takes_flag.map
    intro _ hasNull _
    exact ⟨hcount ▸ count.toNat_lt, haccepts.1, haccepts.2, hmin, hmax⟩

namespace ZoneMap

variable {type : FieldType} {bs : Bytes} {entries : List ZoneMapEntry}

/-- A count, and so many entries. -/
theorem takes_entries (type : FieldType) :
    Takes (u32 >>= fun count => many (ZoneMapEntry.decode type) count.toNat)
      fun _ entries => entries.length < 2 ^ 32 ∧ ∀ e ∈ entries, e.Writable type := by
  apply takes_u32.bind
  intro _ count _
  have hentries : Takes (many (ZoneMapEntry.decode type) count.toNat)
      fun _ es => es.length = count.toNat ∧ ∀ e ∈ es, e.Writable type := by
    apply (ZoneMapEntry.takes_decode type).many (R := fun _ es => ∀ e ∈ es, e.Writable type)
    · exact List.forall_mem_nil _
    · intro _ e _ es he hes
      exact List.forall_mem_cons.mpr ⟨he, hes⟩
  apply hentries.mono
  rintro _ es ⟨hlength, hwritable⟩
  exact ⟨hlength ▸ count.toNat_lt, hwritable⟩

/-- Whatever is read is a zone map that can be written. -/
theorem writable_of_decode (h : decode type bs = .ok entries) :
    entries.length < 2 ^ 32 ∧ ∀ e ∈ entries, e.Writable type :=
  ((takes_entries type).of_whole h).1

/-- A zone map is read back unless it has more entries than its count can tell. Of the sequences that are accepted none
goes on from another, so that a zone map cut short or padded is refused. -/
theorem decode_framed (type : FieldType) :
    (∀ entries : List ZoneMapEntry, (∀ e ∈ entries, e.Writable type) →
      (decode type (encode entries) = .ok entries ↔ entries.length < 2 ^ 32)) ∧
    ∀ (bs : Bytes) (entries : List ZoneMapEntry), decode type bs = .ok entries →
      (∀ tail ≠ [], decode type (bs ++ tail) = .error .zoneMapTrailing) ∧
      ∀ front tail, front ++ tail = bs → tail ≠ [] → ∃ e, decode type front = .error e := by
  constructor
  · intro entries hentries
    constructor
    · intro h
      exact (writable_of_decode h).1
    · exact decode_encode hentries
  · intro bs entries h
    constructor
    · intro tail htail
      exact (takes_entries type).whole_append h htail
    · rintro front tail rfl htail
      exact (takes_entries type).whole_front h htail

theorem decode_framed_numbers :
    let entries : List ZoneMapEntry := [⟨[0, 4], ⟨.int32 1, .int32 3, true⟩⟩, ⟨[9, 0], ⟨.null, .null, true⟩⟩]
    decode .int32 (encode entries) = .ok entries
      ∧ decode .int32 (encode entries ++ [0]) = .error .zoneMapTrailing
      ∧ ∃ e, decode .int32 (encode entries).dropLast = .error e := by
  intro entries
  have hentries : ∀ e ∈ entries, e.Writable .int32 := by
    intro e he
    rcases List.mem_pair.mp he with rfl | rfl
    · exact ⟨by decide, rfl, rfl, trivial, trivial⟩
    · exact ⟨by decide, rfl, rfl, trivial, trivial⟩
  have hread := ((decode_framed .int32).1 entries hentries).mpr (by decide)
  obtain ⟨happend, hfront⟩ := (decode_framed .int32).2 _ _ hread
  exact ⟨hread, happend [0] (by decide), hfront (encode entries).dropLast [1] rfl (by decide)⟩

end ZoneMap

end SegmentStore
