import SegmentStore.Bytes.Word

/-!
# UTF-8 text

* `Utf8.decode?` reads a byte sequence as a string, `Utf8.encode` writes a string; `decode?_encode`
  and `encode_of_decode?` say that reading accepts exactly what writing produces.
* `Utf8.next` takes one character off the front, or tells how many bytes are the start of none.
* `Utf8.validPrefix` is the length of the longest prefix made of whole characters.
-/

namespace SegmentStore.Utf8

/-- The bytes of a string. -/
def encode (s : String) : Bytes := s.toByteArray.data.toList

/-- The string with the given bytes, if they are valid UTF-8. -/
def decode? (bs : Bytes) : Option String := String.fromUTF8? ⟨bs.toArray⟩

theorem fromUTF8?_toByteArray (s : String) : String.fromUTF8? s.toByteArray = some s := by
  unfold String.fromUTF8?
  rw [dif_pos s.isValidUTF8]
  rfl

@[simp]
theorem decode?_encode (s : String) : decode? (encode s) = some s :=
  fromUTF8?_toByteArray s

theorem encode_of_decode? {bs : Bytes} {s : String} (h : decode? bs = some s) : encode s = bs := by
  simp only [decode?, String.fromUTF8?] at h
  split at h
  · simp only [Option.some.injEq] at h
    subst h
    simp [encode, String.fromUTF8]
  · simp at h

theorem encode_inj {s t : String} : encode s = encode t ↔ s = t := by
  refine ⟨fun h => ?_, fun h => h ▸ rfl⟩
  have := congrArg decode? h
  simpa using this

/-! ### One character at a time -/

/-- What stands at the front of a byte sequence. -/
inductive Front where
  /-- A character and the bytes after it. -/
  | char (c : Char) (rest : Bytes)
  /-- Bytes that begin no character; after the first, only those that could go on with it. -/
  | bad (length : Nat) (rest : Bytes)

/-- A continuation byte. -/
def isTail (b : UInt8) : Bool := 0x80 ≤ b && b ≤ 0xBF

/-- The second bytes that may follow a first byte of three or four. -/
def secondRange (first : UInt8) : UInt8 × UInt8 :=
  if first = 0xE0 then (0xA0, 0xBF)
  else if first = 0xED then (0x80, 0x9F)
  else if first = 0xF0 then (0x90, 0xBF)
  else if first = 0xF4 then (0x80, 0x8F)
  else (0x80, 0xBF)

/-- The low six bits of a continuation byte. -/
def low6 (b : UInt8) : Nat := b.toNat % 64

/-- The character or the bad bytes at the front of `b :: rest`. -/
def next (b : UInt8) (rest : Bytes) : Front :=
  if b < 0x80 then .char (Char.ofNat b.toNat) rest
  else if 0xC2 ≤ b && b ≤ 0xDF then
    match rest with
    | b2 :: r2 =>
      if isTail b2 then .char (Char.ofNat (b.toNat % 32 * 64 + low6 b2)) r2 else .bad 1 rest
    | [] => .bad 1 rest
  else if 0xE0 ≤ b && b ≤ 0xEF then
    let (lo, hi) := secondRange b
    match rest with
    | b2 :: r2 =>
      if lo ≤ b2 && b2 ≤ hi then
        match r2 with
        | b3 :: r3 =>
          if isTail b3 then
            .char (Char.ofNat ((b.toNat % 16 * 64 + low6 b2) * 64 + low6 b3)) r3
          else .bad 2 r2
        | [] => .bad 2 r2
      else .bad 1 rest
    | [] => .bad 1 rest
  else if 0xF0 ≤ b && b ≤ 0xF4 then
    let (lo, hi) := secondRange b
    match rest with
    | b2 :: r2 =>
      if lo ≤ b2 && b2 ≤ hi then
        match r2 with
        | b3 :: r3 =>
          if isTail b3 then
            match r3 with
            | b4 :: r4 =>
              if isTail b4 then
                .char (Char.ofNat
                  (((b.toNat % 8 * 64 + low6 b2) * 64 + low6 b3) * 64 + low6 b4)) r4
              else .bad 3 r3
            | [] => .bad 3 r3
          else .bad 2 r2
        | [] => .bad 2 r2
      else .bad 1 rest
    | [] => .bad 1 rest
  else .bad 1 rest

/-- What is left after the front. -/
def Front.rest : Front → Bytes
  | .char _ r => r
  | .bad _ r => r

theorem length_rest_next (b : UInt8) (rest : Bytes) : (next b rest).rest.length ≤ rest.length := by
  unfold next
  repeat' split
  all_goals simp only [Front.rest, List.length_cons]
  all_goals omega

/-- The length of the longest prefix made of whole characters. -/
def validPrefix : Bytes → Nat
  | [] => 0
  | b :: bs =>
    match h : next b bs with
    | .char _ r =>
      have : r.length ≤ bs.length := by
        have := length_rest_next b bs
        rw [h] at this
        exact this
      (bs.length + 1 - r.length) + validPrefix r
    | .bad _ _ => 0
termination_by bs => bs.length

end SegmentStore.Utf8
