import SegmentStore.Json.Escape

/-!
# Text that stands between quotes

Each byte of a text is written in one of three ways, and is read back from any of them.

* `Escape.Written` lists the ways, and `Escape.written_encodeByte` says that there is no other.
* `Escape.Quotable` says of bytes that they are taken off whole up to the quote behind them. The bytes of any text are
  (`Escape.quotable_encode`), and come to the text again (`Escape.decode?_encode`).
-/

namespace SegmentStore.Escape

variable {b : UInt8} {raw w : Bytes}

/-- The ways in which a byte is written between quotes. -/
inductive Written (b : UInt8) : Bytes → Prop
  /-- By a letter that stands for it. -/
  | short {e : UInt8} (hletter : short.lookup e = some b) (hunit : e ≠ 0x75) (hslash : e ≠ 0x2F) : Written b [0x5C, e]
  /-- By its number. -/
  | control {h l : UInt8} (hsmall : b < 0x20) (hunit : unit? 0x30 0x30 h l = some b.toNat) :
    Written b [0x5C, 0x75, 0x30, 0x30, h, l]
  /-- As it is. -/
  | plain (hquote : b ≠ 0x22) (hslash : b ≠ 0x5C) (hlarge : ¬b < 0x20) : Written b [b]

theorem short_letters : ∀ e ∈ short, short.lookup e.1 = some e.2 ∧ e.1 ≠ 0x75 ∧ e.1 ≠ 0x2F := by
  simp [short, List.lookup_cons]

/-- Small numbers are read from their last two digits. -/
theorem unit?_hexDigit : ∀ n < 0x20, unit? 0x30 0x30 (hexDigit (n / 16)) (hexDigit (n % 16)) = some n := by decide

/-- Small numbers are those of characters of one byte. -/
theorem scalar_of_small : ∀ n < 0x20, scalar n = [UInt8.ofNat n] := by decide +kernel

theorem written_encodeByte (b : UInt8) : Written b (encodeByte b) := by
  rw [encodeByte]
  split
  · rename_i e hfind
    obtain rfl : e.2 = b := by simpa using List.find?_some hfind
    obtain ⟨hletter, hunit, hslash⟩ := short_letters e (List.mem_of_find?_eq_some hfind)
    exact .short hletter hunit hslash
  · rename_i hfind
    rw [List.find?_eq_none] at hfind
    split
    · rename_i hsmall
      exact .control hsmall (unit?_hexDigit b.toNat (UInt8.lt_iff_toNat_lt.mp hsmall))
    · rename_i hlarge
      have hquote := hfind (0x22, 0x22) (by decide)
      have hslash := hfind (0x5C, 0x5C) (by decide)
      refine .plain ?_ ?_ hlarge
      · rintro rfl
        exact hquote rfl
      · rintro rfl
        exact hslash rfl

/-! ### Taking bytes off -/

/-- A byte that is written is taken off whole, and what comes after it goes on. -/
theorem Written.scan_append (h : Written b w) (bs : Bytes) :
    scan (w ++ bs) = (scan bs).map fun (raw, rest) => (w ++ raw, rest) := by
  cases h with
  | @short e hletter hunit hslash =>
    have hknown : e = 0x2F ∨ (Escape.short.lookup e).isSome := .inr (by rw [hletter]; rfl)
    show scan (0x5C :: e :: bs) = _
    rw [scan.eq_def]
    dsimp only
    rw [if_neg (by decide), if_neg (by decide), if_pos rfl, if_neg hunit, if_pos hknown]
    rfl
  | @control h l hsmall hunit =>
    show scan (0x5C :: 0x75 :: 0x30 :: 0x30 :: h :: l :: bs) = _
    rw [scan.eq_def]
    dsimp only
    rw [if_neg (by decide), if_neg (by decide), if_pos rfl, if_pos rfl, hunit]
    rfl
  | plain hquote hslash hlarge =>
    show scan (b :: bs) = _
    rw [scan.eq_def]
    dsimp only
    rw [if_neg hquote, if_neg hlarge, if_neg hslash]
    rfl

/-- Bytes that are taken off whole, up to the quote behind them. -/
def Quotable (raw : Bytes) : Prop := ∀ rest, scan (raw ++ 0x22 :: rest) = some (raw, rest)

theorem quotable_nil : Quotable [] := fun rest => by
  rw [List.nil_append, scan.eq_def]
  rfl

theorem Written.quotable_append (h : Written b w) (hraw : Quotable raw) : Quotable (w ++ raw) := by
  intro rest
  rw [List.append_assoc, h.scan_append, hraw rest]
  rfl

/-- Bytes that are written as they are can stand between quotes. -/
theorem quotable_of_plain (h : ∀ b ∈ raw, Written b [b]) : Quotable raw := by
  induction raw with
  | nil => exact quotable_nil
  | cons b raw ih =>
    obtain ⟨hb, hraw⟩ := List.forall_mem_cons.mp h
    exact hb.quotable_append (ih hraw)

/-- Every text can stand between quotes. -/
theorem quotable_encode (s : String) : Quotable (encode s) := by
  rw [encode]
  induction Utf8.encode s with
  | nil => exact quotable_nil
  | cons b bs ih =>
    rw [List.flatMap_cons]
    exact (written_encodeByte b).quotable_append ih

/-! ### Reading them -/

/-- A byte is read back from each way in which it is written. -/
theorem Written.unescape_append (h : Written b w) (bs : Bytes) :
    unescape (w ++ bs) = (unescape bs).map (b :: ·) := by
  cases h with
  | @short e hletter hunit hslash =>
    show unescape (0x5C :: e :: bs) = _
    rw [unescape.eq_def]
    dsimp only
    rw [if_pos rfl, if_neg hunit, if_neg hslash, hletter]
  | @control h l hsmall hunit =>
    have hnumber : b.toNat < 0x20 := UInt8.lt_iff_toNat_lt.mp hsmall
    show unescape (0x5C :: 0x75 :: 0x30 :: 0x30 :: h :: l :: bs) = _
    rw [unescape.eq_def]
    dsimp only
    rw [if_pos rfl, if_pos rfl, hunit]
    dsimp only
    rw [if_neg (by omega), if_neg (by omega), scalar_of_small b.toNat hnumber, UInt8.ofNat_toNat]
    rfl
  | plain hquote hslash hlarge =>
    show unescape (b :: bs) = _
    rw [unescape.eq_def]
    dsimp only
    rw [if_neg hslash]

theorem unescape_flatMap (bs : Bytes) : unescape (bs.flatMap encodeByte) = some bs := by
  induction bs with
  | nil => rw [List.flatMap_nil, unescape]
  | cons b bs ih =>
    rw [List.flatMap_cons, (written_encodeByte b).unescape_append, ih]
    rfl

/-- A text is read back from between its quotes. -/
theorem decode?_encode (s : String) : decode? (encode s) = some s := by
  rw [decode?, encode, unescape_flatMap]
  exact Utf8.decode?_encode s

end SegmentStore.Escape
