import DeviceTree.CommandLine.Grammar

/-!
# Help texts

The help of a command has its purpose, its usage in one line, and a table for each kind of thing
that may stand on its command line.
-/

namespace DeviceTree.CommandLine

/-- The text filled up with blanks to a width. -/
def padRight (width : Nat) (text : String) : String :=
  text.pushn ' ' (width - text.length)

/-- Rows of two columns, indented by two blanks and two blanks apart. -/
def table (rows : List (String × String)) : List String :=
  let width := rows.foldl (fun width (left, _) => max width left.length) 0
  rows.map fun (left, right) => "  " ++ padRight (width + 2) left ++ right

/-- A table under its title, if it has rows. -/
def titled (title : String) (rows : List (String × String)) : List (List String) :=
  if rows.isEmpty then [] else [(title ++ ":") :: table rows]

/-- An option as it is written. -/
def OptionSpec.written (o : OptionSpec) : String :=
  "-" ++ o.short.toString ++ ", --" ++ o.name ++ match o.value with
    | some value => " <" ++ value ++ ">"
    | none => ""

/-- An argument as it is written, in square brackets where it may be missing. -/
def ArgumentSpec.written (a : ArgumentSpec) : String :=
  (if a.required then "<" ++ a.name ++ ">" else "[" ++ a.name ++ "]") ++
    (if a.repeats then "..." else "")

/-- A help text with the value that holds where none is given. -/
def withDefault (help : String) (default : Option String) : String :=
  match default with
  | some value => help ++ " [default: " ++ value ++ "]"
  | none => help

namespace Grammar

/-- The rows of the options, with those that every command has. -/
def optionRows (g : Grammar) : List (String × String) :=
  g.options.map (fun o => (o.written, withDefault o.help o.default)) ++
    [("-h, --help", "Print help")] ++
    (if g.hasVersion then [("-V, --version", "Print version")] else [])

/-- The usage in one line. -/
def usage (g : Grammar) (takesCommand : Bool) : String :=
  let options := if g.options.isEmpty then [] else ["[OPTIONS]"]
  let command := if takesCommand then ["<COMMAND>"] else []
  "Usage: " ++ String.intercalate " "
    (g.name :: options ++ g.arguments.map ArgumentSpec.written ++ command)

/-- The help of a command and of the commands below it. -/
def helpText (g : Grammar) (commands : List (String × String)) : String :=
  let sections := [[g.about], [g.usage !commands.isEmpty]] ++ titled "Commands" commands ++
    titled "Arguments" (g.arguments.map fun a => (a.written, withDefault a.help a.default)) ++
    (if g.hasHelp then titled "Options" g.optionRows else [])
  String.intercalate "\n\n" (sections.map (String.intercalate "\n")) ++ "\n"

end Grammar

end DeviceTree.CommandLine
