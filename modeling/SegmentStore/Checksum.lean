import SegmentStore.Error

/-!
# CRC-32

The checksum of headers and chunks is the CRC of IEEE 802.3: the bits of each byte enter from the
least significant one, the register starts and ends inverted.

* `crcByte` feeds one byte into the register, `crc32` feeds a sequence.
* `verify` compares a sequence with its stored checksum.
-/

namespace SegmentStore

/-- One bit of the register: a shift, and the polynomial where a one falls out. -/
def crcBit (crc : UInt32) : UInt32 :=
  if crc &&& 1 = 1 then (crc >>> 1) ^^^ 0xEDB88320 else crc >>> 1

/-- Feeds one byte into the register. -/
def crcByte (crc : UInt32) (b : UInt8) : UInt32 :=
  crcBit (crcBit (crcBit (crcBit (crcBit (crcBit (crcBit (crcBit (crc ^^^ b.toUInt32))))))))

/-- The CRC-32 of a byte sequence. -/
def crc32 (bs : Bytes) : UInt32 := bs.foldl crcByte 0xFFFFFFFF ^^^ 0xFFFFFFFF

/-- The fault of a sequence whose checksum is not the stored one. -/
def verify (what : Checked) (stored : UInt32) (bs : Bytes) : Except FormatFault Unit :=
  let found := crc32 bs
  if found = stored then .ok () else .error (.checksum what stored found)

theorem crc32_check : crc32 [0x31, 0x32, 0x33, 0x34, 0x35, 0x36, 0x37, 0x38, 0x39] = 0xCBF43926 := by
  decide +kernel

end SegmentStore
