import SegmentStore.Segment.Header

/-!
# A cache of index streams

Index streams never change once written, so readers of one file share their bytes. Whoever holds a
buffer from the cache has a pin on it.

* `IndexCache.insert` and `IndexCache.lookup` give a pinned buffer, `IndexCache.release` gives a
  buffer back.
* `IndexCache.pinned` counts the pins that are held.
-/

namespace SegmentStore

/-- One index stream: the file, the column and the kind. -/
structure CacheKey where
  file : String
  uniqueId : UniqueId
  kind : StreamKind
  deriving DecidableEq

/-- The bytes of an index stream, held alone or shared through a cache. -/
inductive IndexBuffer where
  | owned (bytes : Bytes)
  | pinned (bytes : Bytes)
  deriving DecidableEq, Inhabited

namespace IndexBuffer

def bytes : IndexBuffer → Bytes
  | .owned bs => bs
  | .pinned bs => bs

/-- The buffer holds a pin. -/
def isPinned : IndexBuffer → Bool
  | .owned _ => false
  | .pinned _ => true

/-- The pins that a buffer holds. -/
def pins (b : IndexBuffer) : Nat := if b.isPinned then 1 else 0

end IndexBuffer

/-- The streams in a cache, the latest first, and the number of pins held. -/
structure IndexCache where
  entries : List (CacheKey × Bytes)
  pinned : Nat

namespace IndexCache

def empty : IndexCache := ⟨[], 0⟩

/-- The cache holds the stream. -/
def contains (c : IndexCache) (key : CacheKey) : Bool := (c.entries.lookup key).isSome

/-- A pinned buffer of the stream, if the cache holds it. -/
def lookup (c : IndexCache) (key : CacheKey) : Option IndexBuffer × IndexCache :=
  match c.entries.lookup key with
  | some bs => (some (.pinned bs), { c with pinned := c.pinned + 1 })
  | none => (none, c)

/-- Puts a stream into the cache, in place of an earlier one of the same key, and pins it. -/
def insert (c : IndexCache) (key : CacheKey) (bs : Bytes) : IndexBuffer × IndexCache :=
  (.pinned bs, ⟨(key, bs) :: c.entries.filter fun e => e.1 ≠ key, c.pinned + 1⟩)

/-- Gives a buffer back. -/
def release (c : IndexCache) (b : IndexBuffer) : IndexCache := { c with pinned := c.pinned - b.pins }

/-- Gives buffers back. -/
def releaseAll (c : IndexCache) (bs : List IndexBuffer) : IndexCache := bs.foldl release c

end IndexCache

end SegmentStore
