import SegmentStore.Bytes.Decoder

/-!
# XXH64

The checksum of compressed frames: four lanes take 32 bytes at a time, their states are merged, and
the rest of the bytes is mixed in by words.

* `xxHash64` is the hash with seed zero.
-/

namespace SegmentStore

namespace XxHash

def prime1 : UInt64 := 0x9E3779B185EBCA87
def prime2 : UInt64 := 0xC2B2AE3D27D4EB4F
def prime3 : UInt64 := 0x165667B19E3779F9
def prime4 : UInt64 := 0x85EBCA77C2B2AE63
def prime5 : UInt64 := 0x27D4EB2F165667C5

def rotl (x : UInt64) (r : UInt64) : UInt64 := (x <<< r) ||| (x >>> (64 - r))

/-- Feeds one word into a lane. -/
def round (acc word : UInt64) : UInt64 := rotl (acc + word * prime2) 31 * prime1

/-- Merges a lane into the hash. -/
def merge (h lane : UInt64) : UInt64 := (h ^^^ round 0 lane) * prime1 + prime4

/-- The states of the four lanes. -/
structure Lanes where
  a : UInt64
  b : UInt64
  c : UInt64
  d : UInt64

/-- The word of the given bytes. -/
def word (bs : Bytes) : UInt64 := UInt64.ofNat (leNat bs)

/-- Feeds stripes of 32 bytes into the lanes, as many as there are. -/
def stripes : Nat → Lanes → Bytes → Lanes × Bytes
  | 0, l, bs => (l, bs)
  | n + 1, l, bs =>
    stripes n
      ⟨round l.a (word (bs.take 8)), round l.b (word ((bs.drop 8).take 8)),
        round l.c (word ((bs.drop 16).take 8)), round l.d (word ((bs.drop 24).take 8))⟩
      (bs.drop 32)

/-- Mixes in single bytes. -/
def mixBytes (h : UInt64) (bs : Bytes) : UInt64 :=
  bs.foldl (fun h b => rotl (h ^^^ (b.toUInt64 * prime5)) 11 * prime1) h

/-- Mixes in four bytes if there are so many, then single bytes. -/
def mixHalf (h : UInt64) (bs : Bytes) : UInt64 :=
  match splitExact? 4 bs with
  | some (w, rest) =>
    mixBytes (rotl (h ^^^ (word w * prime1)) 23 * prime2 + prime3) rest
  | none => mixBytes h bs

/-- Mixes in `n` words of eight bytes, then the rest. -/
def mixWords : Nat → UInt64 → Bytes → UInt64
  | 0, h, bs => mixHalf h bs
  | n + 1, h, bs =>
    mixWords n (rotl (h ^^^ round 0 (word (bs.take 8))) 27 * prime1 + prime4) (bs.drop 8)

/-- Spreads every bit over the whole hash. -/
def avalanche (h : UInt64) : UInt64 :=
  let h := (h ^^^ (h >>> 33)) * prime2
  let h := (h ^^^ (h >>> 29)) * prime3
  h ^^^ (h >>> 32)

end XxHash

open XxHash in
/-- The hash of a byte sequence. -/
def xxHash64 (bs : Bytes) : UInt64 :=
  let length := bs.length
  let (start, rest) :=
    if length < 32 then (prime5, bs)
    else
      let (l, rest) := stripes (length / 32) ⟨prime1 + prime2, prime2, 0, 0 - prime1⟩ bs
      let h := rotl l.a 1 + rotl l.b 7 + rotl l.c 12 + rotl l.d 18
      (merge (merge (merge (merge h l.a) l.b) l.c) l.d, rest)
  avalanche (mixWords (length % 32 / 8) (start + UInt64.ofNat length) rest)

end SegmentStore
