import DeviceTree.CommandLine.Command
import DeviceTree.CommandLine.Input
import DeviceTree.Dummy
import DeviceTree.Generation.Random
import DeviceTree.Size
import DeviceTree.Style

/-!
# Runs of the program

`Surroundings.run` is the program as a function: from the words of the command line and what the
program can see to what it prints and its exit code. A command line that does not follow the grammar
has its own code.
-/

namespace DeviceTree

/-- What a run of the program can see. -/
structure Surroundings where
  files : Files
  stdin : String
  time : Timestamp
  /-- Seconds by which local time is ahead of universal time. -/
  localOffset : Int := 0
  /-- The seed of runs for which none is set. -/
  entropy : Nat := 0

/-- What a run of the program leaves behind. -/
structure Outcome where
  exitCode : UInt32 := 0
  stdout : String := ""
  stderr : String := ""
deriving Repr, DecidableEq, Inhabited

/-- The outcome of a command that failed. -/
def Failure.outcome (f : Failure) : Outcome :=
  { exitCode := 1, stderr := f.report }

/-- The outcome of a usage error. -/
def CommandLine.UsageError.outcome (e : CommandLine.UsageError) : Outcome :=
  { exitCode := 2
    stderr := "error: " ++ e.message ++ "\n\nFor more information, try '--help'.\n" }

/-- The texts on lines of their own. -/
def asLines (texts : List String) : String :=
  String.join (texts.map (· ++ "\n"))

/-! ## Checks of style -/

/-- The checks named in texts with commas between the names. Empty names are ignored. -/
def StyleCheck.readNames (texts : List String) : Except String (List StyleCheck) :=
  let names := (texts.flatMap (Text.splitOn ',')).filter (· ≠ "")
  names.mapM fun name =>
    match ofName? name with
    | some check => .ok check
    | none => .error (unknown name)

/-- The report on the issues of a tree, if it has any. -/
def Tree.styleReport? (tree : Tree) (disabled : List StyleCheck) (input : String) :
    Option String :=
  match tree.registry.issues disabled with
  | [] => none
  | issues => some (asLines (("Issues for '" ++ input ++ "':") :: issues.map Issue.toText))

namespace CommandM

/-- The report on an input, if there is anything wrong with it. -/
def inputReport? (files : Files) (disabled : List StyleCheck) (input : String) :
    StateM String (Option String) := do
  match ← (tree files input).run with
  | .ok tree => pure (tree.styleReport? disabled input)
  | .error f => pure (some (asLines [f.summary]))

/-- Checks the style of trees. -/
def check (files : Files) (disabled : List StyleCheck) (inputs : List String) :
    StateM String Outcome := do
  let reports ← inputs.filterMapM (inputReport? files disabled)
  pure { exitCode := if reports.isEmpty then 0 else 1, stdout := String.join reports }

end CommandM

/-! ## Views of a tree -/

/-- Bounds for the sizes of the custom types of a tree. -/
def Tree.sizes (tree : Tree) : List (String × Option Nat) :=
  tree.registry.customTypes.map fun (name, _) => (name, tree.registry.packedSize? name)

/-- A line for each size. Names stand to the right in a column as wide as the bytes of the longest
name. -/
def sizeTable (sizes : List (String × Option Nat)) : String :=
  let width := sizes.foldl (fun width (name, _) => max width name.utf8ByteSize) 0
  asLines (sizes.map fun (name, size) =>
    "".pushn ' ' (width - name.length) ++ name ++ " " ++ (size.map toString).getD "unbounded")

/-- A mapping from names, in order, to sizes. -/
def sizeJson (sizes : List (String × Option Nat)) : Json :=
  let sorted := sizes.mergeSort fun (a, _) (b, _) => a ≤ b
  .obj (sorted.map fun (name, size) => (name, (size.map fun n => Json.int n).getD .null))

/-- Turns the errors of paths into failures. -/
def resolved {α : Type} (outcome : Except ResolutionError α) : Except Failure α :=
  outcome.mapError fun e => ⟨e.message, []⟩

/-- What is printed of the methods of a node. -/
def descriptorTable (json : Bool) (descriptors : List Descriptor) : String :=
  if json then asLines [(Json.arr (descriptors.map Descriptor.toJson)).pretty]
  else asLines (descriptors.map Descriptor.toText)

/-! ## Calls -/

/-- The parameter of a call, written in JSON. -/
def readParam (text? : Option String) : Except Failure Value :=
  match text? with
  | none => .ok .null
  | some text =>
    match Json.parse? text with
    | some tree => .ok (.ofJson tree)
    | none => .error ⟨"Parameter is not valid JSON", ["invalid JSON"]⟩

/-- The access level of a call: the one asked for, or else the one that is set. -/
def readAccess (settings : Settings) (token? : Option String) : Except Failure AccessLevel :=
  match token? with
  | none => .ok settings.access
  | some token =>
    match AccessLevel.ofToken? token with
    | some level => .ok level
    | none => .error ⟨AccessLevel.unknown token, []⟩

namespace Surroundings

/-- Calls a method of the dummy device of a tree; the result is in JSON. -/
def call (w : Surroundings) (settings : Settings) (tree : Tree) (request : Request) :
    Except Failure String :=
  let environment : Dummy.Environment StdGen :=
    { source := .random w.time, localOffset := w.localOffset }
  let device := Dummy.device environment tree
  let generator := mkStdGen (settings.seed.getD w.entropy)
  let (report, _) := (device.call request).run { source := generator }
  match report.answer with
  | .ok value => .ok value.jsonText
  | .error e => .error ⟨s!"{request.path}:{request.method} failed: {e.message}", []⟩

/-- Performs a command; the result is what it prints. -/
def perform (w : Surroundings) (settings : Settings) : Command → CommandM Outcome
  | .check true _ _ => pure { stdout := asLines (StyleCheck.all.map StyleCheck.name) }
  | .check false disabled inputs =>
    match StyleCheck.readNames disabled with
    | .ok checks => (CommandM.check w.files checks inputs : StateM String Outcome)
    | .error message => pure { exitCode := 1, stderr := asLines ["Invalid check: " ++ message] }
  | .size json input => do
    let sizes := (← CommandM.tree w.files input).sizes
    pure { stdout := if json then asLines [(sizeJson sizes).compact] else sizeTable sizes }
  | .ls input path => do
    let tree ← CommandM.tree w.files input
    pure { stdout := asLines (← resolved (tree.ls path)) }
  | .dir json input path => do
    let tree ← CommandM.tree w.files input
    pure { stdout := descriptorTable json (← resolved (tree.dir path)) }
  | .call input path method param? access? => do
    let tree ← CommandM.tree w.files input
    let param ← readParam param?
    let access ← readAccess settings access?
    let request : Request := { path, method, param, access, userId := settings.userId }
    pure { stdout := asLines [← w.call settings tree request] }

/-- Runs a command: the settings are read first. -/
def runCommand (w : Surroundings) (invocation : Invocation) : Outcome :=
  let work : CommandM Outcome := do
    w.perform (← w.files.settings invocation.config) invocation.command
  match work.run.run w.stdin with
  | (.ok outcome, _) => outcome
  | (.error f, _) => f.outcome

/-- Runs the program with the words of a command line. -/
def run (w : Surroundings) (words : List String) : Outcome :=
  match Demand.parse words with
  | .ok (.print text) => { stdout := text }
  | .ok (.run invocation) => w.runCommand invocation
  | .error e => e.outcome

end Surroundings

end DeviceTree
