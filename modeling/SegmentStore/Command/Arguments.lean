import SegmentStore.Value.Basic

/-!
# Arguments of the command

* `Arguments` is what a command line asks for, `Arguments.parse` reads one.
* A setting takes a value, in the same argument or in the next one; a flag takes none. Everything but the
  lists of columns may be given once.
-/

namespace SegmentStore.Command

/-- What takes a value. -/
inductive Setting where
  | dir
  | segment
  | schema
  | columns
  | conditions
  | bloomColumns
  | firstBlock
  | lastBlock
  | options
  | printRows
  | generate
  deriving DecidableEq

namespace Setting

def all : List Setting :=
  [.dir, .segment, .schema, .columns, .conditions, .bloomColumns, .firstBlock, .lastBlock, .options,
    .printRows, .generate]

/-- The name after two hyphens. -/
def long : Setting → String
  | .dir => "dir"
  | .segment => "segment"
  | .schema => "schema"
  | .columns => "columns"
  | .conditions => "conditions"
  | .bloomColumns => "bloom-filter-columns"
  | .firstBlock => "first-block"
  | .lastBlock => "last-block"
  | .options => "options"
  | .printRows => "print-rows"
  | .generate => "generate"

/-- The letter after one hyphen. -/
def short? : Setting → Option Char
  | .dir => some 'd'
  | .segment => some 's'
  | _ => none

end Setting

/-- What takes no value. -/
inductive Flag where
  | ignoreFilter
  | noCache
  | help
  | version
  deriving DecidableEq

namespace Flag

def all : List Flag := [.ignoreFilter, .noCache, .help, .version]

/-- The name after two hyphens. -/
def long : Flag → String
  | .ignoreFilter => "ignore-filter"
  | .noCache => "no-cache"
  | .help => "help"
  | .version => "version"

/-- The letter after one hyphen. -/
def short? : Flag → Option Char
  | .help => some 'h'
  | .version => some 'V'
  | _ => none

end Flag

/-- Why there is nothing to run. -/
inductive Stop where
  | help
  | version
  | unexpected (arg : String)
  | repeated (name : String)
  | missingValue (s : Setting)
  | badValue (s : Setting) (value : String)
  | unneededValue (f : Flag)
  | missing (s : Setting)
  deriving DecidableEq

/-- What a command line asks for. -/
structure Arguments where
  dir : String
  segment : UInt32
  schema? : Option String
  /-- The columns to scan, all if there are none. -/
  columns : List ColumnId
  conditions? : Option String
  bloomColumns : List ColumnId
  firstBlock : UInt32
  lastBlock : UInt32
  ignoreFilter : Bool
  options? : Option String
  noCache : Bool
  /-- The rows of each block that are printed. -/
  printRows : Nat
  /-- The rows of a sample segment to be written first. -/
  generate? : Option Nat
  deriving DecidableEq

/-! ### Values -/

/-- The natural with the given decimal digits, of which there is at least one. -/
def digits? (cs : List Char) : Option Nat :=
  if cs.isEmpty || !cs.all (·.isDigit) then none
  else some (cs.foldl (fun n c => 10 * n + (c.toNat - '0'.toNat)) 0)

/-- A whole number, which may have a sign. -/
def integer? (s : String) : Option Int :=
  match s.toList with
  | '-' :: cs => (digits? cs).map fun n => -(n : Int)
  | '+' :: cs => (digits? cs).map Int.ofNat
  | cs => (digits? cs).map Int.ofNat

/-- A number of 32 bits. -/
def word? (s : String) : Option UInt32 :=
  ((integer? s).filter fun (n : Int) => 0 ≤ n && n < UInt32.size).map fun n => UInt32.ofNat n.toNat

/-- A number of 64 bits, without a minus. -/
def count? (s : String) : Option Nat :=
  if s.toList.head? = some '-' then none
  else ((integer? s).filter fun (n : Int) => n < UInt64.size).map Int.toNat

/-- Numbers with commas between them. -/
def wordList? (s : String) : Option (List UInt32) := (s.splitOn ",").mapM word?

/-- A path has at least one character. -/
def path? (s : String) : Option String := if s.isEmpty then none else some s

/-! ### Reading the arguments -/

/-- The arguments read so far. -/
structure Given where
  dir? : Option String
  segment? : Option UInt32
  schema? : Option String
  columns : List ColumnId
  conditions? : Option String
  bloomColumns : List ColumnId
  firstBlock? : Option UInt32
  lastBlock? : Option UInt32
  options? : Option String
  printRows? : Option Nat
  generate? : Option Nat
  flags : List Flag

namespace Given

def empty : Given := ⟨none, none, none, [], none, [], none, none, none, none, none, []⟩

/-- The value of a setting that has none so far. -/
def once {α : Type} (s : Setting) (text : String) (before : Option α) (value : Option α) :
    Except Stop (Option α) :=
  match value, before with
  | none, _ => .error (.badValue s text)
  | some _, some _ => .error (.repeated s.long)
  | some v, none => .ok (some v)

/-- More columns after those given. -/
def more (s : Setting) (text : String) (before : List ColumnId) : Except Stop (List ColumnId) :=
  match wordList? text with
  | none => .error (.badValue s text)
  | some cids => .ok (before ++ cids)

/-- Takes a setting in. -/
def set (g : Given) (s : Setting) (text : String) : Except Stop Given := do
  match s with
  | .dir => return { g with dir? := ← once s text g.dir? (path? text) }
  | .segment => return { g with segment? := ← once s text g.segment? (word? text) }
  | .schema => return { g with schema? := ← once s text g.schema? (path? text) }
  | .columns => return { g with columns := ← more s text g.columns }
  | .conditions => return { g with conditions? := ← once s text g.conditions? (path? text) }
  | .bloomColumns => return { g with bloomColumns := ← more s text g.bloomColumns }
  | .firstBlock => return { g with firstBlock? := ← once s text g.firstBlock? (word? text) }
  | .lastBlock => return { g with lastBlock? := ← once s text g.lastBlock? (word? text) }
  | .options => return { g with options? := ← once s text g.options? (path? text) }
  | .printRows => return { g with printRows? := ← once s text g.printRows? (count? text) }
  | .generate => return { g with generate? := ← once s text g.generate? (count? text) }

/-- Takes a flag in. Help and version end the reading. -/
def raise (g : Given) (f : Flag) : Except Stop Given :=
  match f with
  | .help => .error .help
  | .version => .error .version
  | f => if g.flags.contains f then .error (.repeated f.long) else .ok { g with flags := f :: g.flags }

end Given

/-- What an argument is. -/
inductive Shape where
  | setting (s : Setting) (value? : Option String)
  | flag (f : Flag)
  /-- Two hyphens: what follows is neither setting nor flag. -/
  | terminator
  | wrong (why : Stop)

/-- An argument that is neither a value nor a lone hyphen. -/
def isOption (arg : String) : Bool :=
  match arg.toList with
  | '-' :: _ :: _ => true
  | _ => false

/-- The name of a long option and the value in the same argument. -/
def splitValue (cs : List Char) : String × Option String :=
  let name := String.ofList (cs.takeWhile (· ≠ '='))
  match cs.dropWhile (· ≠ '=') with
  | [] => (name, none)
  | _ :: value => (name, some (String.ofList value))

/-- An argument after two hyphens. -/
def longShape (arg : String) (cs : List Char) : Shape :=
  let (name, value?) := splitValue cs
  match Setting.all.find? (·.long = name), Flag.all.find? (·.long = name) with
  | some s, _ => .setting s value?
  | none, some f => if value?.isSome then .wrong (.unneededValue f) else .flag f
  | none, none => .wrong (.unexpected arg)

/-- An argument after one hyphen: a letter, and after that of a setting its value. -/
def shortShape (arg : String) (c : Char) (cs : List Char) : Shape :=
  match Setting.all.find? (·.short? = some c), Flag.all.find? (·.short? = some c) with
  | some s, _ =>
    match cs with
    | [] => .setting s none
    | '=' :: value => .setting s (some (String.ofList value))
    | value => .setting s (some (String.ofList value))
  | none, some f => .flag f
  | none, none => .wrong (.unexpected arg)

/-- What an argument is by its first characters. -/
def shape (arg : String) : Shape :=
  match arg.toList with
  | ['-', '-'] => .terminator
  | '-' :: '-' :: cs => longShape arg cs
  | '-' :: c :: cs => shortShape arg c cs
  | _ => .wrong (.unexpected arg)

/-- Takes arguments in, one after the other. -/
def Given.read (g : Given) : List String → Except Stop Given
  | [] => .ok g
  | arg :: rest =>
    match shape arg with
    | .setting s (some value) => do
      let g ← g.set s value
      g.read rest
    | .setting s none =>
      match rest with
      | [] => .error (.missingValue s)
      | value :: rest =>
        if isOption value then .error (.missingValue s)
        else do
          let g ← g.set s value
          g.read rest
    | .flag f => do
      let g ← g.raise f
      g.read rest
    | .terminator =>
      match rest with
      | [] => .ok g
      | arg :: _ => .error (.unexpected arg)
    | .wrong why => .error why

/-- Reads a command line. Only the directory has to be given. -/
def Arguments.parse (args : List String) : Except Stop Arguments := do
  let g ← Given.empty.read args
  match g.dir? with
  | none => .error (.missing .dir)
  | some dir =>
    return { dir
             segment := g.segment?.getD 0
             schema? := g.schema?
             columns := g.columns
             conditions? := g.conditions?
             bloomColumns := g.bloomColumns
             firstBlock := g.firstBlock?.getD 0
             lastBlock := g.lastBlock?.getD 0xFFFFFFFF
             ignoreFilter := g.flags.contains .ignoreFilter
             options? := g.options?
             noCache := g.flags.contains .noCache
             printRows := g.printRows?.getD 0
             generate? := g.generate? }

/-! ### Texts -/

/-- How the command is called. -/
def usage : String :=
  "Usage: segment-store [OPTIONS] --dir <DIR>\n\n" ++
  "  -d, --dir <DIR>                        Directory of the segment group\n" ++
  "  -s, --segment <N>                      Segment to scan, 0 by default\n" ++
  "      --schema <FILE>                    Tablet schema, schema.json in the directory by default\n" ++
  "      --columns <N,..>                   Table columns to scan, all by default\n" ++
  "      --conditions <FILE>                Scan conditions\n" ++
  "      --bloom-filter-columns <N,..>      Table columns whose bloom filters are used\n" ++
  "      --first-block <N>                  First block, 0 by default\n" ++
  "      --last-block <N>                   Last block, the last of the segment by default\n" ++
  "      --ignore-filter                    Load every block, ignoring conditions\n" ++
  "      --options <FILE>                   Reader options\n" ++
  "      --no-cache                         Do not add index streams to the index cache\n" ++
  "      --print-rows <N>                   Print the first rows of every block\n" ++
  "      --generate <N>                     Write a sample segment with this many rows first\n" ++
  "  -h, --help                             Print help\n" ++
  "  -V, --version                          Print version"

/-- What is shown when there is nothing to run. -/
def Stop.message : Stop → String
  | .help => usage
  | .version => "segment-store 0.1.0"
  | .unexpected arg => "error: unexpected argument '" ++ arg ++ "' found"
  | .repeated name => "error: the argument '--" ++ name ++ "' cannot be used multiple times"
  | .missingValue s => "error: a value is required for '--" ++ s.long ++ "' but none was supplied"
  | .badValue s value => "error: invalid value '" ++ value ++ "' for '--" ++ s.long ++ "'"
  | .unneededValue f => "error: unexpected value for '--" ++ f.long ++ "' found"
  | .missing s => "error: the argument '--" ++ s.long ++ "' was not provided"

/-- Zero where the text was asked for, two for a wrong command line. -/
def Stop.exitCode : Stop → UInt32
  | .help => 0
  | .version => 0
  | _ => 2

end SegmentStore.Command
