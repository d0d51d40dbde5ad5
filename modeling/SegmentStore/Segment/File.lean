import SegmentStore.Error

/-!
# Files of bytes

* `SegmentFile` is the content of a file and the way it is read.
* `SegmentFile.readAt` reads an exact range; `SegmentFile.readAt_eq_ok` says that it succeeds within
  the file and gives the bytes of the range.
-/

namespace SegmentStore

/-- How a file is read. -/
inductive Backend where
  /-- The bytes are at hand. -/
  | memory
  /-- Each read names its offset. -/
  | positioned
  /-- Each read first moves the position of the file. -/
  | seeking
  deriving DecidableEq, Inhabited

/-- A file open for reading. -/
structure SegmentFile where
  backend : Backend
  content : ByteArray

namespace SegmentFile

/-- The bytes of a file. -/
def toList (f : SegmentFile) : Bytes := f.content.data.toList

def size (f : SegmentFile) : Nat := f.content.size

/-- The bytes in a range that lies within the file. -/
def slice (f : SegmentFile) (offset length : Nat) : Bytes :=
  (f.content.extract offset (offset + length)).data.toList

/-- Exactly `length` bytes from `offset` on. Bytes at hand refuse any range that ends beyond them, if
its end is a word at all. A file on disk fails only when bytes are missing, or when its position cannot
be moved so far. -/
def readAt (f : SegmentFile) (offset length : Nat) : Except StorageError Bytes :=
  match f.backend with
  | .memory =>
    if f.size < offset + length then
      .error (if offset + length < UInt64.size then .format (.readOutOfRange length offset f.size) else .overflow)
    else .ok (f.slice offset length)
  | .positioned =>
    if length = 0 then .ok []
    else if f.size < offset + length then .error .io
    else .ok (f.slice offset length)
  | .seeking =>
    if 0x8000000000000000 ≤ offset then .error .io
    else if length = 0 then .ok []
    else if f.size < offset + length then .error .io
    else .ok (f.slice offset length)

theorem slice_eq (f : SegmentFile) (offset length : Nat) :
    f.slice offset length = (f.toList.drop offset).take length := by
  simp only [slice, toList, ByteArray.data_extract, Array.toList_extract, List.extract]
  rw [Nat.add_sub_cancel_left]

theorem readAt_eq_ok (f : SegmentFile) {offset length : Nat} (h : offset + length ≤ f.size)
    (hseek : offset < 0x8000000000000000) :
    f.readAt offset length = .ok ((f.toList.drop offset).take length) := by
  have hfit : ¬f.size < offset + length := by omega
  have hoffset : ¬0x8000000000000000 ≤ offset := by omega
  simp only [readAt, slice_eq, hfit, hoffset, if_false]
  split
  · rfl
  · split
    · rename_i hzero
      rw [hzero, List.take_zero]
    · rfl
  · split
    · rename_i hzero
      rw [hzero, List.take_zero]
    · rfl

end SegmentFile

end SegmentStore
