import SegmentStore.Compression.Kind
import SegmentStore.Schema.Basic
import SegmentStore.Segment.Header

/-!
# Segment groups

A group is a directory of segment files with one schema and one range of versions.

* `SegmentDirectory` maps segment numbers to files. Whoever has opened a file keeps it: a later write
  to the same name changes its content, a removal only takes the name away.
* `SegmentGroup.segmentMeta` parses the header of a segment once and keeps it from then on.
-/

namespace SegmentStore

/-- A file that was created at some time, whether it still has a name or not. -/
abbrev FileId := Nat

/-- The files of a directory. -/
structure SegmentDirectory where
  /-- The files that have a name. -/
  names : List (UInt32 × FileId)
  /-- The content of every file ever created. -/
  contents : Array ByteArray

namespace SegmentDirectory

def empty : SegmentDirectory := ⟨[], #[]⟩

/-- The file under a segment number. -/
def file? (d : SegmentDirectory) (segment : UInt32) : Option FileId := d.names.lookup segment

/-- The content of a file. -/
def content (d : SegmentDirectory) (file : FileId) : ByteArray := d.contents[file]?.getD .empty

/-- Writes a file, in place of the content it had. -/
def write (d : SegmentDirectory) (segment : UInt32) (bytes : ByteArray) : SegmentDirectory :=
  match d.file? segment with
  | some file => { d with contents := d.contents.setIfInBounds file bytes }
  | none => ⟨(segment, d.contents.size) :: d.names, d.contents.push bytes⟩

/-- Takes the name of a file away. -/
def remove (d : SegmentDirectory) (segment : UInt32) : SegmentDirectory :=
  { d with names := d.names.filter fun e => e.1 ≠ segment }

end SegmentDirectory

/-- The header of a segment and its length in the file. -/
structure SegmentMeta where
  header : SegmentHeader
  headerLength : UInt64

/-- Segments written together. -/
structure SegmentGroup where
  /-- The directory's name. -/
  path : String
  schema : TabletSchema
  /-- The first version of the data. -/
  version : Version
  /-- The rows in a block of segments that leave the choice to the group. -/
  rowsPerBlock : UInt32
  files : SegmentDirectory
  /-- The headers parsed so far. -/
  metas : List (UInt32 × SegmentMeta)
  codecs : Codecs

namespace SegmentGroup

/-- The name of a segment file. -/
def segmentPath (g : SegmentGroup) (segment : UInt32) : String :=
  g.path ++ "/" ++ toString segment.toNat ++ ".dat"

/-- The header of a segment, read from its file the first time. -/
def segmentMeta (g : SegmentGroup) (segment : UInt32) (file : SegmentFile) :
    Except StorageError (SegmentMeta × SegmentGroup) :=
  match g.metas.lookup segment with
  | some m => .ok (m, g)
  | none => do
    let (header, headerLength) ← SegmentHeader.readFrom file
    let m : SegmentMeta := ⟨header, headerLength⟩
    return (m, { g with metas := (segment, m) :: g.metas })

end SegmentGroup

end SegmentStore
