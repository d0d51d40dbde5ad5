/-!
# Files of the command

* `FileAccess` is how the command reaches files, in any monad.
* `FileTree` holds files in memory; `FileTree.access` reaches them.
-/

namespace SegmentStore.Command

/-- How files are reached. -/
structure FileAccess (m : Type → Type) where
  /-- The content of a file, none if it cannot be read. -/
  read : String → m (Option ByteArray)
  /-- Makes a directory and those above it, and tells whether it is there. -/
  makeDirectory : String → m Bool
  /-- Writes a file in a directory that is there, and tells whether it worked. -/
  write : String → ByteArray → m Bool

/-- The path of a name in a directory. -/
def inDirectory (dir name : String) : String :=
  if dir.toList.getLast? = some '/' then dir ++ name else dir ++ "/" ++ name

/-- The names along a path. -/
def pathNames (path : String) : List String :=
  (path.splitOn "/").filter fun name => name ≠ "" ∧ name ≠ "."

/-- Files in memory, each under the names along its path. -/
structure FileTree where
  files : List (List String × ByteArray)

namespace FileTree

def empty : FileTree := ⟨[]⟩

/-- The content of a file. -/
def read (t : FileTree) (path : String) : Option ByteArray := t.files.lookup (pathNames path)

/-- No file stands where the path needs a directory. -/
def canHold (t : FileTree) (names : List String) : Bool :=
  !t.files.any fun e => e.1.isPrefixOf names

/-- The path names a directory. -/
def isDirectory (t : FileTree) (names : List String) : Bool :=
  t.files.any fun e => names.isPrefixOf e.1 && e.1 ≠ names

/-- Puts a file into the tree, in place of an earlier one. -/
def write (t : FileTree) (path : String) (content : ByteArray) : FileTree :=
  let names := pathNames path
  ⟨(names, content) :: t.files.filter fun e => e.1 ≠ names⟩

/-- Files in memory as a state. A directory is there as soon as a file is in it. -/
def access : FileAccess (StateM FileTree) where
  read path := do return (← get).read path
  makeDirectory path := do return (← get).canHold (pathNames path)
  write path content := do
    if (← get).isDirectory (pathNames path) then return false
    modify (·.write path content)
    return true

end FileTree

end SegmentStore.Command
