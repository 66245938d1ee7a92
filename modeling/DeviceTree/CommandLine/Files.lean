import DeviceTree.Text.Split

/-!
# Files

The program sees files as a function from paths to their contents. `Files.ofList` is a directory
with just the named files; paths lead through directories from there, and there is nothing outside.
-/

namespace DeviceTree

/-- Why a file has no content. -/
inductive FileError where
  | missing
  | isDirectory
  /-- The path goes on below a file. -/
  | notDirectory
  /-- The bytes are no text. -/
  | notText
  | other (message : String)
deriving Repr, DecidableEq

namespace FileError

/-- The text of a file error. -/
def message : FileError → String
  | missing => "No such file or directory (os error 2)"
  | isDirectory => "Is a directory (os error 21)"
  | notDirectory => "Not a directory (os error 20)"
  | notText => "stream did not contain valid UTF-8"
  | other message => message

/-- Whether there is something at the path. -/
def found : FileError → Bool
  | missing | notDirectory => false
  | _ => true

end FileError

/-- The contents of files by their paths. -/
abbrev Files := String → Except FileError String

namespace Files

/-! ## Paths -/

/-- The last name of a path. -/
def fileName? (path : String) : Option String :=
  let names := (Text.splitOn '/' path).filter fun name => name ≠ "" && name ≠ "."
  names.getLast?.filter (· ≠ "..")

/-- What follows the last point of a file name, unless the name begins with it. -/
def suffix? (path : String) : Option String := do
  let parts := Text.splitOn '.' (← fileName? path)
  match parts with
  | [_] | ["", _] => none
  | _ => parts.getLast?

/-- Whether a path means standard input. -/
def isStandardInput (path : String) : Bool :=
  match Text.splitOn '/' path with
  | "-" :: rest => rest.all fun name => name == "" || name == "."
  | _ => false

/-! ## A directory with named files -/

/-- A place in a directory. -/
inductive Place where
  /-- A directory below the first, by the names that lead there. -/
  | directory (names : List String)
  | file (content : String)

/-- The place that a name leads to. -/
def Place.enter (files : List (List String × String)) (here : Place) (name : String) :
    Except FileError Place :=
  match here with
  | .file _ => .error .notDirectory
  | .directory names =>
    if name == "." then .ok here
    else if name == ".." then
      if names.isEmpty then .error .missing else .ok (.directory names.dropLast)
    else
      let names := names ++ [name]
      match files.lookup names with
      | some content => .ok (.file content)
      | none =>
        if files.any fun (path, _) => names.isPrefixOf path then .ok (.directory names)
        else .error .missing

/-- The names that a path goes through. A slash at the end asks for a directory. -/
def steps (path : String) : List String :=
  let names := Text.splitOn '/' path
  names.filter (· ≠ "") ++ if names.getLast? == some "" then ["."] else []

/-- The files of a directory, each under a path from there. Of two files with one path, the later
counts. -/
def ofList (named : List (String × String)) : Files := fun path => do
  let files := named.reverse.map fun (name, content) => (steps name, content)
  if path.startsWith "/" then .error .missing
  match ← (steps path).foldlM (Place.enter files) (.directory []) with
  | .file content => .ok content
  | .directory _ => .error .isDirectory

end Files

end DeviceTree
