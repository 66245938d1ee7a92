/-!
# Grammars of command lines

A command takes options, which begin with a dash, and arguments. An option has a short and a long
spelling; flags have no value, other options have one, attached or in the next word. Words after
`--` are arguments. Reading stops at the first fault, and at an option that asks for help.
-/

namespace DeviceTree.CommandLine

/-- An option of a command. -/
structure OptionSpec where
  name : String
  short : Char
  /-- What the value is called, for an option that has one. -/
  value : Option String := none
  /-- Whether the value is a path, which may not be empty. -/
  isPath : Bool := false
  /-- Whether the option may be given again. -/
  repeats : Bool := false
  /-- What the value is when the option is not given. -/
  default : Option String := none
  help : String

/-- An argument of a command. -/
structure ArgumentSpec where
  name : String
  /-- Whether the argument is a path, which may not be empty. -/
  isPath : Bool := false
  required : Bool := false
  /-- Whether the argument takes all words from its place on. -/
  repeats : Bool := false
  /-- What the argument is when it is not given. -/
  default : Option String := none
  help : String := ""

/-- What may stand on a command line. -/
structure Grammar where
  name : String
  about : String
  options : List OptionSpec := []
  arguments : List ArgumentSpec := []
  /-- Whether help can be asked for. -/
  hasHelp : Bool := true
  /-- Whether the version can be asked for. -/
  hasVersion : Bool := false

/-- A command line that does not follow its grammar. -/
inductive UsageError where
  | unknownOption (word : String)
  | unexpectedValue (option : String)
  | missingValue (option : String)
  | emptyPath (place : String)
  | repeatedOption (option : String)
  | unexpectedArgument (word : String)
  | missingArgument (name : String)
  | missingCommand
  | unknownCommand (word : String)
deriving Repr, DecidableEq

/-- The text of a usage error. -/
def UsageError.message : UsageError → String
  | unknownOption word => s!"unexpected argument '{word}' found"
  | unexpectedValue option => s!"unexpected value for '{option}'"
  | missingValue option => s!"a value is required for '{option}' but none was supplied"
  | emptyPath place => s!"a value is required for '{place}' but none was supplied"
  | repeatedOption option => s!"the argument '{option}' cannot be used multiple times"
  | unexpectedArgument word => s!"unexpected argument '{word}' found"
  | missingArgument name => s!"the required argument <{name}> was not provided"
  | missingCommand => "a subcommand is required but one was not provided"
  | unknownCommand word => s!"unrecognized subcommand '{word}'"

/-- Why reading stops before the end. -/
inductive Stop where
  | help
  | version
  | usage (error : UsageError)
deriving Repr, DecidableEq

/-- What has been given on a command line. -/
structure Given where
  /-- Options in order, with their values; those of flags are empty. -/
  options : List (String × String) := []
  arguments : List String := []
deriving Repr, DecidableEq, Inhabited

namespace Given

/-- Whether an option was given. -/
def has (given : Given) (name : String) : Bool :=
  given.options.any (·.1 == name)

/-- The value of an option, if it was given. -/
def value? (given : Given) (name : String) : Option String :=
  given.options.lookup name

/-- The values of an option, as often as it was given. -/
def values (given : Given) (name : String) : List String :=
  (given.options.filter (·.1 == name)).map Prod.snd

end Given

/-- Where a reader of a command line stands. -/
structure Reader where
  given : Given := {}
  /-- The option whose value is the next word. -/
  awaiting : Option OptionSpec := none
  /-- Whether all further words are arguments. -/
  argumentsOnly : Bool := false

/-- Whether a word has the form of an option. A dash alone is an argument. -/
def isOption (word : String) : Bool :=
  match word.toList with
  | '-' :: _ :: _ => true
  | _ => false

namespace Grammar

/-- The reader with an option and its value added. -/
def give (r : Reader) (option : OptionSpec) (value : String) : Except Stop Reader :=
  if option.isPath && value.isEmpty then .error (.usage (.emptyPath option.name))
  else if !option.repeats && r.given.has option.name then
    .error (.usage (.repeatedOption option.name))
  else
    .ok { r with
      given := { r.given with options := r.given.options ++ [(option.name, value)] }
      awaiting := none }

/-- The specification of the argument at a place. -/
def argumentAt? (g : Grammar) (place : Nat) : Option ArgumentSpec :=
  g.arguments[place]? <|> g.arguments.getLast?.filter (·.repeats)

/-- The reader with an argument added. -/
def giveArgument (g : Grammar) (r : Reader) (word : String) : Except Stop Reader :=
  match g.argumentAt? r.given.arguments.length with
  | none => .error (.usage (.unexpectedArgument word))
  | some argument =>
    if argument.isPath && word.isEmpty then .error (.usage (.emptyPath argument.name))
    else .ok { r with given := { r.given with arguments := r.given.arguments ++ [word] } }

/-- Reads an option by its long spelling, with what follows an equals sign. -/
def readLong (g : Grammar) (r : Reader) (name : String) (attached : Option String) :
    Except Stop Reader :=
  let flag (stop : Stop) : Except Stop Reader :=
    .error (if attached.isSome then .usage (.unexpectedValue name) else stop)
  match g.options.find? (·.name == name), attached with
  | some option, some value =>
    if option.value.isSome then give r option value
    else .error (.usage (.unexpectedValue name))
  | some option, none =>
    if option.value.isSome then .ok { r with awaiting := some option } else give r option ""
  | none, _ =>
    if name == "help" then flag .help
    else if name == "version" && g.hasVersion then flag .version
    else .error (.usage (.unknownOption name))

/-- Reads options by their short spellings, one after another. What follows an option with a value
is its value, perhaps after an equals sign. -/
def readShorts (g : Grammar) (r : Reader) : List Char → Except Stop Reader
  | [] => .ok r
  | c :: rest =>
    match g.options.find? (·.short == c) with
    | some option =>
      if option.value.isSome then
        match rest with
        | [] => .ok { r with awaiting := some option }
        | '=' :: value => give r option (String.ofList value)
        | value => give r option (String.ofList value)
      else do readShorts g (← give r option "") rest
    | none =>
      if c == 'h' then .error .help
      else if c == 'V' && g.hasVersion then .error .version
      else .error (.usage (.unknownOption c.toString))

/-- Cuts what follows a double dash at the first equals sign. -/
def splitLong (cs : List Char) : String × Option String :=
  let name := cs.takeWhile (· != '=')
  (String.ofList name, match cs.drop name.length with
    | _ :: value => some (String.ofList value)
    | [] => none)

/-- Reads one word. -/
def readWord (g : Grammar) (r : Reader) (word : String) : Except Stop Reader :=
  if r.argumentsOnly then g.giveArgument r word
  else
    match r.awaiting with
    | some option =>
      if isOption word then .error (.usage (.missingValue option.name)) else give r option word
    | none =>
      match word.toList with
      | ['-', '-'] => .ok { r with argumentsOnly := true }
      | '-' :: '-' :: long =>
        let (name, attached) := splitLong long
        g.readLong r name attached
      | '-' :: c :: shorts => g.readShorts r (c :: shorts)
      | _ => g.giveArgument r word

/-- What has been given when no words are left. -/
def finish (g : Grammar) (r : Reader) : Except Stop Given :=
  match r.awaiting, (g.arguments.drop r.given.arguments.length).find? (·.required) with
  | some option, _ => .error (.usage (.missingValue option.name))
  | none, some argument => .error (.usage (.missingArgument argument.name))
  | none, none => .ok r.given

/-- Reads all words of a command. -/
def read (g : Grammar) (words : List String) : Except Stop Given := do
  g.finish (← words.foldlM g.readWord {})

/-- Reads options up to the first word that is none, and gives the words from there on. -/
def readOptions (g : Grammar) (r : Reader) : List String → Except Stop (Given × List String)
  | [] => do .ok (← g.finish r, [])
  | word :: rest =>
    if r.awaiting.isNone && !r.argumentsOnly && !isOption word then .ok (r.given, word :: rest)
    else do g.readOptions (← g.readWord r word) rest

theorem readOptions_argument (g : Grammar) {word : String} (rest : List String)
    (h : isOption word = false) : g.readOptions {} (word :: rest) = .ok ({}, word :: rest) := by
  simp [readOptions, h]

end Grammar

end DeviceTree.CommandLine
