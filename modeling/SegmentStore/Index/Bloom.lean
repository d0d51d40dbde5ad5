import SegmentStore.Value.Codec

/-!
# Bloom filters

A bloom filter stream holds one entry of a fixed number of bits for each block.

* `probes` are the bits that a value sets and asks for, by double hashing of its tagged form.
* `BloomFilter.add` sets the bits of a value, `BloomFilter.test` asks whether all of them are set.
* `BloomFilter.decode` cuts a stream into entries.
-/

namespace SegmentStore

/-! ### Hashing -/

namespace WordHash

/-- Mixes one word into the state: a rotation by five bits, an exclusive or, a multiplication. -/
def mix (h w : UInt64) : UInt64 := (((h <<< 5) ||| (h >>> 59)) ^^^ w) * 0x517CC1B727220A95

/-- Mixes in what is left after the whole words: four bytes, then two, then one. -/
def mixTail (h : UInt64) (bs : Bytes) : UInt64 :=
  let (h, bs) := match splitExact? 4 bs with
    | some (w, rest) => (mix h (UInt64.ofNat (leNat w)), rest)
    | none => (h, bs)
  let (h, bs) := match splitExact? 2 bs with
    | some (w, rest) => (mix h (UInt64.ofNat (leNat w)), rest)
    | none => (h, bs)
  match bs with
  | b :: _ => mix h b.toUInt64
  | [] => h

/-- Mixes in a byte sequence, eight bytes at a time. -/
def mixBytes (h : UInt64) (bs : Bytes) : UInt64 :=
  match hs : splitExact? 8 bs with
  | some (w, rest) =>
    have : rest.length < bs.length := by
      have := append_of_splitExact? hs
      rw [← this.1, List.length_append]
      omega
    mixBytes (mix h (UInt64.ofNat (leNat w))) rest
  | none => mixTail h bs
termination_by bs.length

/-- The hash of a byte sequence under a seed. -/
def hash (seed : UInt64) (bs : Bytes) : UInt64 := mixBytes (mix 0 seed) bs

end WordHash

/-- The bits probed for a value in a filter of `bitCount` bits. The step between hashes is odd, so that
the probes do not collapse to one bit. -/
def probes (v : Value) (bitCount hashes : Nat) : List Nat :=
  let key := v.encode
  let start := WordHash.hash 0x9E3779B97F4A7C15 key
  let step := WordHash.hash 0xD1B54A32D192ED03 key ||| 1
  (List.range hashes).map fun i =>
    (start + step * UInt64.ofNat i).toNat * bitCount / UInt64.size

/-! ### Filters -/

/-- The bloom filter of one block. -/
structure BloomFilter where
  /-- The bits, from the least significant one of each byte. -/
  bytes : Array UInt8
  bitCount : Nat
  hashes : Nat

namespace BloomFilter

/-- No bit is set. -/
def empty (bitCount hashes : Nat) : BloomFilter :=
  ⟨Array.replicate ((bitCount + 7) / 8) 0, bitCount, hashes⟩

/-- The bit is set. -/
def get (f : BloomFilter) (bit : Nat) : Bool := (f.bytes[bit / 8]?.getD 0).toNat.testBit (bit % 8)

/-- Sets a bit. -/
def set (f : BloomFilter) (bit : Nat) : BloomFilter :=
  { f with bytes := f.bytes.modify (bit / 8) fun b => b ||| (1 <<< UInt8.ofNat (bit % 8)) }

/-- Adds a value: sets all its probes. -/
def add (f : BloomFilter) (v : Value) : BloomFilter := (probes v f.bitCount f.hashes).foldl set f

/-- False only if the value was never added. -/
def test (f : BloomFilter) (v : Value) : Bool := (probes v f.bitCount f.hashes).all f.get

/-- The filter of a list of values. -/
def ofValues (bitCount hashes : Nat) (vs : List Value) : BloomFilter :=
  vs.foldl add (empty bitCount hashes)

/-- The stored form of a filter. -/
def encode (f : BloomFilter) : Bytes := f.bytes.toList

/-- A filter has some bits, whole bytes of them, and some probes. -/
def validParameters (bitCount hashes : Nat) : Bool :=
  bitCount != 0 && bitCount % 8 == 0 && hashes != 0

/-- Cuts bytes into entries of `size` bytes. -/
def split (bitCount hashes size : Nat) : Nat → Bytes → List BloomFilter
  | 0, _ => []
  | n + 1, bs =>
    ⟨(bs.take size).toArray, bitCount, hashes⟩ :: split bitCount hashes size n (bs.drop size)

/-- The filters of a stream, one for each block. -/
def decode (bitCount hashes : Nat) (bs : Bytes) : Except FormatFault (List BloomFilter) :=
  if !validParameters bitCount hashes then .error (.bloomParameters bitCount hashes)
  else
    let size := bitCount / 8
    if bs.length % size != 0 then .error (.bloomLength bs.length size)
    else .ok (split bitCount hashes size (bs.length / size) bs)

end BloomFilter

end SegmentStore
