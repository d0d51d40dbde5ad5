import SegmentStore.Command.Arguments
import SegmentStore.Command.Files
import SegmentStore.Command.Sample
import SegmentStore.Prune.Json
import SegmentStore.Scan.Json
import SegmentStore.Scan.Reader

/-!
# Running the command

The command scans a segment and reports how its blocks were pruned and loaded.

* `prepare` writes a sample, if one is asked for, and reads the files of a run.
* `scan` scans the segment and gives the lines to be printed and the statistics.
* `run` does the two for a command line.
-/

namespace SegmentStore.Command

/-- Why a run fails. -/
inductive Failure where
  | output (path : String)
  | schema (path : String) (cause : StorageError)
  | conditions (path : String) (cause : StorageError)
  | storage (cause : StorageError)
  deriving DecidableEq

/-- The text of a failure. -/
def Failure.message : Failure → String
  | .output path => "Error: failed to write " ++ path
  | .schema path e => "Error: failed to load schema " ++ path ++ ": " ++ e.message
  | .conditions path e => "Error: failed to parse conditions " ++ path ++ ": " ++ e.message
  | .storage e => "Error: " ++ e.message

/-- What a run reads. -/
structure Inputs where
  schema : TabletSchema
  options : ReaderOptions
  conditions? : Option Conditions
  /-- The segment file, none if it cannot be read. -/
  segment? : Option ByteArray

/-! ### Files -/

/-- The name of the schema in its directory. -/
def schemaName : String := "schema.json"

/-- The path of a segment. -/
def segmentPath (args : Arguments) : String :=
  inDirectory args.dir (toString args.segment.toNat ++ ".dat")

section Files

variable {m : Type → Type} [Monad m] (files : FileAccess m)

/-- Writes a file. -/
def writeFile (path : String) (content : Bytes) : ExceptT Failure m Unit := do
  let done ← files.write path ⟨content.toArray⟩
  if done then pure () else throw (.output path)

/-- Reads a file and decodes it. -/
def decodeFile {α : Type} (decode : Bytes → Except StorageError α)
    (failure : StorageError → Failure) (path : String) : ExceptT Failure m α := do
  match ← files.read path with
  | none => throw (failure .io)
  | some content =>
    match decode content.data.toList with
    | .ok x => return x
    | .error e => throw (failure e)

/-- Writes a sample segment and its schema. -/
def writeSample (args : Arguments) (rows : Nat) : ExceptT Failure m Unit := do
  let made ← files.makeDirectory args.dir
  if !made then
    throw (.output args.dir)
  writeFile files (inDirectory args.dir schemaName) (Sample.schema.encodeJson .indented)
  match Sample.segment rows with
  | .error e => throw (.storage e)
  | .ok content => writeFile files (segmentPath args) content

/-- Reads everything that a run needs. -/
def readInputs (args : Arguments) : ExceptT Failure m Inputs := do
  let schemaPath := args.schema?.getD (inDirectory args.dir schemaName)
  let schema ← decodeFile files TabletSchema.decodeJson (.schema schemaPath) schemaPath
  let options ← match args.options? with
    | none => pure ReaderOptions.default
    | some path => decodeFile files ReaderOptions.decodeJson .storage path
  let conditions? ← match args.conditions? with
    | none => pure none
    | some path => do
      let c ← decodeFile files Conditions.decodeJson (.conditions path) path
      pure (some c)
  let segment? ← files.read (segmentPath args)
  return ⟨schema, options, conditions?, segment?⟩

/-- Writes the sample, if one is asked for, and reads the files of a run. -/
def prepare (args : Arguments) : ExceptT Failure m Inputs := do
  match args.generate? with
  | some rows => writeSample files args rows
  | none => pure ()
  readInputs files args

end Files

/-! ### Scanning -/

/-- What a run prints, and the statistics if it comes to its end. -/
structure Report where
  lines : Array String
  result : Except Failure ScanStatistics

/-- The lines of a loaded block. -/
def blockLines (printRows block : Nat) (batch : RowBatch) : List String :=
  s!"block {block}: {batch.size} rows, {batch.status.display}"
    :: (List.range (min batch.size printRows)).map fun i =>
      "  " ++ ", ".intercalate ((batch.row i).map Value.display)

/-- Loads at most `fuel` blocks and prints each. A call that loads no block ends the run. -/
def printBlocks (printRows : Nat) (group : SegmentGroup) :
    Nat → SegmentReader → RowBatch → ScanStatistics → Array String → Report
  | 0, _, _, stats, lines => ⟨lines, .ok stats⟩
  | fuel + 1, r, batch, stats, lines =>
    if r.cursor.eof then ⟨lines, .ok stats⟩
    else
      let block := r.cursor.next
      match r.getBlock batch group stats with
      | (.error e, _, _, _) => ⟨lines, .error (.storage e)⟩
      | (.ok _, r, batch, after) =>
        if after.blocksLoaded = stats.blocksLoaded then ⟨lines, .ok after⟩
        else
          printBlocks printRows group fuel r batch after
            (lines ++ blockLines printRows block batch)

/-- What the command reads from the segment. -/
def readContext (args : Arguments) (inputs : Inputs) (columns : List ColumnId) : ReadContext :=
  { used := columns, bloomColumns := columnSet args.bloomColumns, conditions? := inputs.conditions?
    deletes? := none, deleteStatus := .unknown, cached := true, options := inputs.options }

/-- The group of the directory. -/
def segmentGroup (args : Arguments) (inputs : Inputs) : SegmentGroup :=
  let files := match inputs.segment? with
    | some content => SegmentDirectory.empty.write args.segment content
    | none => .empty
  { path := args.dir, schema := inputs.schema, version := 0, rowsPerBlock := 1024, files, metas := []
    codecs := .standard }

/-- Scans the segment. -/
def scan (args : Arguments) (inputs : Inputs) : Report :=
  let columns := if args.columns.isEmpty then inputs.schema.columnIds else args.columns
  let reader := SegmentReader.make args.segment (readContext args inputs columns)
  let opened := reader.init (!args.noCache) (segmentGroup args inputs) .empty .zero
  match opened.result with
  | .error e => ⟨#[], .error (.storage e)⟩
  | .ok () =>
    let rows := (opened.reader.segment?.map (·.rowsPerBlock)).getD 1024
    match opened.reader.seekToBlock args.firstBlock.toNat args.lastBlock.toNat args.ignoreFilter
        opened.group opened.stats with
    | (.error e, _, _) => ⟨#[], .error (.storage e)⟩
    | (.ok _, r, stats) =>
      match RowBatch.make inputs.schema columns rows with
      | .error e => ⟨#[], .error (.storage e)⟩
      | .ok batch =>
        printBlocks args.printRows opened.group ((r.blockCount?.getD 0) + 1) r batch stats #[]

/-- Runs what a command line asks for. -/
def run {m : Type → Type} [Monad m] (files : FileAccess m) (args : Arguments) : m Report := do
  match ← (prepare files args).run with
  | .error failure => return ⟨#[], .error failure⟩
  | .ok inputs => return scan args inputs

/-- Zero for a run that came to its end, and a code of its own for a sum that overflowed. -/
def Report.exitCode (r : Report) : UInt32 :=
  match r.result with
  | .ok _ => 0
  | .error (.storage .overflow) => 101
  | .error _ => 1

/-- The text of the statistics. -/
def statisticsText (stats : ScanStatistics) : String := stats.toJson.text .indented

end SegmentStore.Command
