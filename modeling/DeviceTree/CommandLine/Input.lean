import DeviceTree.CommandLine.Failure
import DeviceTree.CommandLine.Files
import DeviceTree.Document.Json
import DeviceTree.Document.Yaml
import DeviceTree.Loading.Nodes
import DeviceTree.Settings

/-!
# Inputs

Trees are read from files, whose suffix tells the format, and from standard input, which is in YAML
and can be read only once. A file is read before its suffix is looked at. Settings are read from a
file that may be missing.
-/

namespace DeviceTree

/-- The formats of documents. -/
inductive DocumentFormat where
  | json
  | yaml
deriving Repr, DecidableEq

namespace DocumentFormat

/-- The name of a format. -/
def name : DocumentFormat → String
  | json => "JSON"
  | yaml => "YAML"

/-- The format of files with the given suffix; the case of its letters does not matter. -/
def ofSuffix? (suffix : String) : Option DocumentFormat :=
  match suffix.toLower with
  | "json" => some json
  | "yaml" | "yml" => some yaml
  | _ => none

/-- The document that a text of the format holds. -/
def parse? : DocumentFormat → String → Option Document
  | json => Document.parseJson?
  | yaml => Document.parseYaml?

/-- The document that a text of the format holds; failures begin with `message`. -/
def parse (format : DocumentFormat) (message text : String) : Except Failure Document :=
  match format.parse? text with
  | some document => .ok document
  | none => .error ⟨message, ["Failed to parse " ++ format.name]⟩

end DocumentFormat

namespace Files

/-- The document in a file. -/
def document (files : Files) (path : String) : Except Failure Document :=
  let message := "Invalid input " ++ path
  match files path with
  | .error e => .error ⟨message, ["IO error: " ++ e.message, e.message]⟩
  | .ok text =>
    match (suffix? path).bind DocumentFormat.ofSuffix? with
    | some format => format.parse message text
    | none => .error ⟨message, ["Unknown file suffix: " ++ path]⟩

/-- The settings in a file, or the defaults if there is no such file. -/
def settings (files : Files) (path : String) : Except Failure Settings :=
  match files path with
  | .ok text =>
    match Settings.parse? text with
    | some settings => .ok settings
    | none => .error ⟨"Invalid configuration " ++ path, ["TOML parse error"]⟩
  | .error e =>
    if e.found then .error ⟨"Failed to read " ++ path, [e.message]⟩ else .ok {}

end Files

/-- Work that may fail and may read what is left of standard input. -/
abbrev CommandM := ExceptT Failure (StateM String)

namespace CommandM

/-- The rest of standard input, of which nothing is left then. -/
def standardInput : CommandM String := fun rest => (.ok rest, "")

/-- The document in an input. -/
def document (files : Files) (input : String) : CommandM Document := do
  if Files.isStandardInput input then
    DocumentFormat.yaml.parse "Invalid input" (← standardInput)
  else files.document input

/-- The tree in an input. -/
def tree (files : Files) (input : String) : CommandM Tree := do
  match Tree.ofDocument (← document files input) with
  | .ok tree => pure tree
  | .error e => throw ⟨"Invalid tree", [e.message]⟩

end CommandM

end DeviceTree
