import DeviceTree.CommandLine.Help

/-!
# Commands

The command line of the program: options of the program, the name of a command, and what the command
takes. `Demand.parse` reads it; the answer is a text to print or an `Invocation` to run.
-/

namespace DeviceTree

/-- A command with what it was given. Inputs are paths, a dash for standard input. -/
inductive Command where
  /-- Lists the checks of style or reports the issues of trees. -/
  | check (listOnly : Bool) (disabled : List String) (inputs : List String)
  /-- Prints bounds for the sizes of the types of a tree. -/
  | size (json : Bool) (input : String)
  /-- Prints the names of the children of a node. -/
  | ls (input path : String)
  /-- Prints the methods of a node. -/
  | dir (json : Bool) (input path : String)
  /-- Calls a method of the dummy device of a tree. -/
  | call (input path method : String) (param access : Option String)
deriving Repr, DecidableEq

/-- The inputs that a command reads. -/
def Command.inputs : Command → List String
  | check true _ _ => []
  | check false _ inputs => inputs
  | size _ input | ls input _ | dir _ input _ | call input .. => [input]

/-- The kinds of commands. -/
inductive CommandKind where
  | check
  | size
  | ls
  | dir
  | call
deriving Repr, DecidableEq

namespace CommandKind

open CommandLine

/-- All kinds. -/
def all : List CommandKind :=
  [check, size, ls, dir, call]

/-- The name of a kind. -/
def name : CommandKind → String
  | check => "check"
  | size => "size"
  | ls => "ls"
  | dir => "dir"
  | call => "call"

/-- The kind with the given name. -/
def ofName? (text : String) : Option CommandKind :=
  all.find? (·.name == text)

/-- What a kind of command is for. -/
def about : CommandKind → String
  | check => "Report style issues of the types in tree files"
  | size => "Print the maximal ChainPack size of every custom type"
  | ls => "List children of a node"
  | dir => "List methods of a node"
  | call => "Call a method of a dummy device built from the tree"

/-- The flag for output in JSON. -/
def jsonOption : OptionSpec :=
  { name := "json", short := 'j', help := "Print output in JSON format" }

/-- The options of a kind of command. -/
def options : CommandKind → List OptionSpec
  | check => [
      { name := "list-checks", short := 'l',
        help := "List available checks instead of checking files" },
      { name := "disable-checks", short := 'd', value := some "DISABLE", repeats := true,
        help := "Checks to skip (repeatable or joined by comma)" }]
  | size | dir => [jsonOption]
  | ls => []
  | call => [
      { name := "param", short := 'p', value := some "PARAM", help := "Parameter as JSON" },
      { name := "access", short := 'a', value := some "ACCESS",
        help := "Access level granted to the call, overrides the configuration" }]

/-- A file that must be given. -/
def fileArgument : ArgumentSpec :=
  { name := "FILE", isPath := true, required := true }

/-- A node, the root where none is given. -/
def nodeArgument : ArgumentSpec :=
  { name := "PATH", default := some "", help := "Node path, the root if not given" }

/-- The arguments of a kind of command. -/
def arguments : CommandKind → List ArgumentSpec
  | check => [
      { name := "FILES", isPath := true, repeats := true,
        help := "Tree files, standard input if none is given" }]
  | size => [{ name := "FILE", isPath := true, help := "Tree file, standard input if not given" }]
  | ls | dir => [fileArgument, nodeArgument]
  | call => [
      fileArgument, { name := "PATH", required := true }, { name := "METHOD", required := true }]

/-- The name of the program. -/
def programName : String := "shvtree"

/-- What may stand on the command line of a kind of command. -/
def grammar (kind : CommandKind) : Grammar where
  name := programName ++ " " ++ kind.name
  about := kind.about
  options := kind.options
  arguments := kind.arguments

/-- The command that was given. Reading has made sure that the arguments required are there. -/
def command (kind : CommandKind) (given : Given) : Command :=
  let argument (place : Nat) := given.arguments[place]?.getD ""
  match kind with
  | check =>
    .check (given.has "list-checks") (given.values "disable-checks")
      (if given.arguments.isEmpty then ["-"] else given.arguments)
  | size => .size (given.has "json") (given.arguments[0]?.getD "-")
  | ls => .ls (argument 0) (argument 1)
  | dir => .dir (given.has "json") (argument 0) (argument 1)
  | call =>
    .call (argument 0) (argument 1) (argument 2) (given.value? "param") (given.value? "access")

end CommandKind

/-- A run of a command. -/
structure Invocation where
  /-- The path of the settings. -/
  config : String
  /-- The severity of log lines asked for. -/
  logLevel : Option String
  command : Command
deriving Repr, DecidableEq

/-- What a command line asks for. -/
inductive Demand where
  /-- To print a text. -/
  | print (text : String)
  | run (invocation : Invocation)
deriving Repr, DecidableEq

namespace Demand

open CommandLine CommandKind

/-- Where the settings are unless another path is given. -/
def defaultConfig : String := "shvtree.toml"

/-- What may stand before the command. -/
def programGrammar : Grammar where
  name := programName
  about := "Silicon Heaven device tree tools"
  hasVersion := true
  options := [
    { name := "config", short := 'c', value := some "CONFIG", isPath := true,
      default := some defaultConfig, help := "Path to configuration file" },
    { name := "log-level", short := 'l', value := some "LOG_LEVEL",
      help := "Log level (trace, debug, info, warn, error), overrides the configuration" }]

/-- The text of the version. -/
def versionText : String :=
  programName ++ " 0.1.0\n"

/-- What may stand after the name of the command that shows help. -/
def helpGrammar : Grammar where
  name := programName ++ " help"
  about := "Print this message or the help of the given subcommand(s)"
  hasHelp := false
  arguments := [
    { name := "COMMAND", repeats := true, help := "Print help for the subcommand(s)" }]

/-- The help of the program. -/
def programHelp : String :=
  programGrammar.helpText
    (all.map (fun kind => (kind.name, kind.about)) ++ [("help", helpGrammar.about)])

/-- The help on the command named by the words. -/
def helpOn (words : List String) : Except UsageError Demand :=
  match words with
  | [] => .ok (.print programHelp)
  | name :: more =>
    let text? :=
      if name == "help" then some (helpGrammar.helpText [])
      else (ofName? name).map fun kind => kind.grammar.helpText []
    match text?, more with
    | none, _ => .error (.unknownCommand name)
    | some _, word :: _ => .error (.unknownCommand word)
    | some text, [] => .ok (.print text)

/-- The demand of a command line on which reading stopped. -/
def ofStop (help : String) : Stop → Except UsageError Demand
  | .help => .ok (.print help)
  | .version => .ok (.print versionText)
  | .usage e => .error e

/-- What the words of a command line ask for. -/
def parse (words : List String) : Except UsageError Demand :=
  match programGrammar.readOptions {} words with
  | .error stop => ofStop programHelp stop
  | .ok (_, []) => .error .missingCommand
  | .ok (given, name :: words) =>
    if name == "help" then helpOn words
    else match ofName? name with
      | none => .error (.unknownCommand name)
      | some kind =>
        match kind.grammar.read words with
        | .error stop => ofStop (kind.grammar.helpText []) stop
        | .ok below => .ok (.run {
            config := (given.value? "config").getD defaultConfig
            logLevel := given.value? "log-level"
            command := kind.command below })

end Demand

end DeviceTree
