import SegmentStore.Command.Run

/-!
# The command

Scans one segment of a segment group and prints how its blocks are pruned and loaded.
-/

namespace SegmentStore.Command

/-- Tells whether an action works. -/
def succeeds (action : IO Unit) : IO Bool := do
  try
    action
    return true
  catch _ => return false

/-- The files on disk. -/
def diskFiles : FileAccess IO where
  read path := do
    try
      return some (← IO.FS.readBinFile path)
    catch _ => return none
  makeDirectory path := succeeds (IO.FS.createDirAll path)
  write path content := succeeds (IO.FS.writeBinFile path content)

end SegmentStore.Command

open SegmentStore.Command in
/-- Reads the command line, runs it, and prints its report. -/
def main (args : List String) : IO UInt32 := do
  match Arguments.parse args with
  | .error stop =>
    if stop.exitCode = 0 then IO.println stop.message else IO.eprintln stop.message
    return stop.exitCode
  | .ok args =>
    let report ← run diskFiles args
    report.lines.forM IO.println
    match report.result with
    | .ok stats => IO.println (statisticsText stats)
    | .error failure => IO.eprintln failure.message
    return report.exitCode
