import DeviceTree.Pattern.Syntax

/-!
# Escapes in patterns

What may follow a backslash: a punctuation character stands for itself, some letters for control
characters, hexadecimal digits for any character, and others for classes and assertions. Letters and
digits without a meaning are refused.
-/

namespace DeviceTree.Pattern

/-- The settings that flags change. -/
structure Flags where
  ignoreCase : Bool := false
  multiLine : Bool := false
  dotAll : Bool := false
  /-- Whether blanks and comments in the pattern are skipped. -/
  verbose : Bool := false
deriving Repr, DecidableEq

/-- What a single element of a pattern denotes. -/
inductive Element where
  | literal (c : Char)
  | set (s : CharClass)
  | assertion (a : Assertion)

/-- The value of a hexadecimal digit. -/
def hexDigit? (c : Char) : Option Nat :=
  if c.isDigit then some (c.toNat - '0'.toNat)
  else if 'a' ≤ c && c ≤ 'f' then some (c.toNat - 'a'.toNat + 10)
  else if 'A' ≤ c && c ≤ 'F' then some (c.toNat - 'A'.toNat + 10)
  else none

/-- The character with the code point written by hexadecimal digits. -/
def hexChar? (digits : List Char) : Option Char := do
  guard (!digits.isEmpty)
  let n ← digits.foldlM (fun n c => (hexDigit? c).map fun d => min (n * 16 + d) 0x110000) 0
  guard (n < 0xD800 || (0xE000 ≤ n && n < 0x110000))
  some (Char.ofNat n)

/-- A character by its code point: digits between braces, or exactly `width` digits. -/
def readHex? (width : Nat) (cs : List Char) : Option (Char × List Char) :=
  match cs with
  | '{' :: rest => do
    let digits := rest.takeWhile (· != '}')
    let rest ← (rest.dropWhile (· != '}')).tail?
    (hexChar? digits).map fun c => (c, rest)
  | _ => do
    guard (cs.length ≥ width)
    (hexChar? (cs.take width)).map fun c => (c, cs.drop width)

/-- The properties that can be named. -/
def propertyNames : List (String × CharProperty) :=
  [("alphabetic", .alphabetic), ("alpha", .alphabetic), ("nd", .digit), ("n", .number),
    ("m", .mark), ("mark", .mark), ("pc", .connector), ("whitespace", .space),
    ("number", .number)]

/-- The set of a property by its name; case, blanks, hyphens and underscores do not matter. -/
def propertySet? (name : List Char) : Option CharClass :=
  let key := name.filter fun c => c != ' ' && c != '-' && c != '_'
  (propertyNames.lookup (String.ofList (key.map Char.toLower))).map .property

/-- A property class: one letter, or a name between braces that a caret may negate. -/
def readProperty? (cs : List Char) : Option (CharClass × List Char) :=
  match cs with
  | '{' :: rest => do
    let name := rest.takeWhile (· != '}')
    let rest ← (rest.dropWhile (· != '}')).tail?
    match name with
    | '^' :: name => (propertySet? name).map fun s => (.negate s, rest)
    | _ => (propertySet? name).map fun s => (s, rest)
  | c :: rest => (propertySet? [c]).map fun s => (s, rest)
  | [] => none

/-- The assertions written in braces after a word boundary. -/
def boundaryNames : List (String × Assertion) :=
  [("start", .startOfWord), ("end", .endOfWord), ("start-half", .noWordBefore),
    ("end-half", .noWordAfter)]

/-- A word boundary. A brace that opens no known name is left for a repetition. -/
def readBoundary (cs : List Char) : Assertion × List Char :=
  match cs with
  | '{' :: rest =>
    match boundaryNames.lookup (String.ofList (rest.takeWhile (· != '}'))),
      (rest.dropWhile (· != '}')).tail? with
    | some a, some rest => (a, rest)
    | _, _ => (.wordBoundary, cs)
  | _ => (.wordBoundary, cs)

/-- Whether the character stands for itself after a backslash: ASCII punctuation and controls. -/
def isEscapable (c : Char) : Bool :=
  c.toNat < 128 && !c.isAlphanum && c != '<' && c != '>'

/-- The element after a backslash, and the rest. -/
def readEscape? (cs : List Char) : Option (Element × List Char) :=
  match cs with
  | [] => none
  | c :: rest =>
    match c with
    | 'd' => some (.set (.property .digit), rest)
    | 'D' => some (.set (.negate (.property .digit)), rest)
    | 's' => some (.set (.property .space), rest)
    | 'S' => some (.set (.negate (.property .space)), rest)
    | 'w' => some (.set (.property .word), rest)
    | 'W' => some (.set (.negate (.property .word)), rest)
    | 'p' => (readProperty? rest).map fun (s, rest) => (.set s, rest)
    | 'P' => (readProperty? rest).map fun (s, rest) => (.set (.negate s), rest)
    | 'x' => (readHex? 2 rest).map fun (c, rest) => (.literal c, rest)
    | 'u' => (readHex? 4 rest).map fun (c, rest) => (.literal c, rest)
    | 'U' => (readHex? 8 rest).map fun (c, rest) => (.literal c, rest)
    | 'a' => some (.literal '\x07', rest)
    | 'f' => some (.literal '\x0c', rest)
    | 't' => some (.literal '\t', rest)
    | 'n' => some (.literal '\n', rest)
    | 'r' => some (.literal '\r', rest)
    | 'v' => some (.literal '\x0b', rest)
    | 'A' => some (.assertion .startOfText, rest)
    | 'z' => some (.assertion .endOfText, rest)
    | 'b' =>
      let (a, rest) := readBoundary rest
      some (.assertion a, rest)
    | 'B' => some (.assertion .noWordBoundary, rest)
    | '<' => some (.assertion .startOfWord, rest)
    | '>' => some (.assertion .endOfWord, rest)
    | _ => if isEscapable c then some (.literal c, rest) else none

end DeviceTree.Pattern
