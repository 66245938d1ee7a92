import DeviceTree.CommandLine.Run
import Std.Time.Zoned.Database

/-!
# The program

Gathers what the program can see, runs it as a function and prints what it leaves behind. Only files
that the command line names are read, and standard input only for a command that needs it.
-/

namespace DeviceTree.Program

/-- The content of a file. -/
def readFile (path : String) : IO (Except FileError String) := do
  try
    match String.fromUTF8? (← IO.FS.readBinFile path) with
    | some text => pure (.ok text)
    | none => pure (.error .notText)
  catch
    | .noFileOrDirectory .. => pure (.error .missing)
    -- A directory can be opened, but not read.
    | .inappropriateType none .. => pure (.error .isDirectory)
    | .inappropriateType (some _) .. => pure (.error .notDirectory)
    | e => pure (.error (.other (toString e)))

/-- The files under the given paths. -/
def readFiles (paths : List String) : IO Files := do
  let contents ← paths.mapM fun path => do pure (path, ← readFile path)
  pure fun path => (contents.lookup path).getD (.error .missing)

/-- The paths that a command line names, and whether it needs standard input. -/
def needs (words : List String) : List String × Bool :=
  match Demand.parse words with
  | .ok (.run invocation) =>
    let (standard, paths) := invocation.command.inputs.partition Files.isStandardInput
    (invocation.config :: paths, !standard.isEmpty)
  | _ => ([], false)

/-- What the program can see. -/
def surroundings (words : List String) : IO Surroundings := do
  let (paths, needsStdin) := needs words
  let files ← readFiles paths
  let stdin ← if needsStdin then do (← IO.getStdin).readToEnd else pure ""
  let now ← Std.Time.Timestamp.now
  let zone := (← Std.Time.Database.defaultGetLocalZoneRules).timezoneAt now
  let nanos := now.toNanosecondsSinceUnixEpoch.val
  let time : Timestamp :=
    { seconds := nanos / 1000000000, nanos := (nanos % 1000000000).toNat, offset := 0 }
  pure {
    files, stdin, time
    localOffset := zone.offset.second.val
    entropy := ← IO.rand 0 0x3FFFFFFFFFFFFFFF }

end DeviceTree.Program

/-- Runs the program with the words of its command line. -/
def main (words : List String) : IO UInt32 := do
  let outcome := (← DeviceTree.Program.surroundings words).run words
  IO.print outcome.stdout
  IO.eprint outcome.stderr
  pure outcome.exitCode
