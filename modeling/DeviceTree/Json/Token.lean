import DeviceTree.Json.Number

/-!
# Tokens of JSON text

The lexer is a machine that takes one character at a time. Between tokens it skips blanks; words
(numbers and the literals `null`, `true` and `false`) run to the next character that is no part of
a word; inside a text it decodes escapes, where a high surrogate must be followed by an escaped low
one.
-/

namespace DeviceTree.Json

/-- A token of JSON text. -/
inductive Token where
  | openList
  | closeList
  | openMapping
  | closeMapping
  | comma
  | colon
  | text (s : String)
  /-- A number or one of the literals. -/
  | scalar (value : Json)

/-- Where the lexer stands. Characters read so far are kept in reverse. -/
inductive Mode where
  | between
  | word (read : List Char)
  | text (read : List Char)
  /-- After a backslash. -/
  | escape (read : List Char)
  /-- In the four digits of an escape; `high` is the surrogate before, if there was one. -/
  | hex (read : List Char) (high : Option Nat) (count value : Nat)
  /-- After a high surrogate, before the backslash. -/
  | low (read : List Char) (high : Nat)
  /-- After a high surrogate and a backslash, before the `u`. -/
  | lowMark (read : List Char) (high : Nat)

/-- Blanks between tokens. -/
def isBlank (c : Char) : Bool :=
  c == ' ' || c == '\t' || c == '\n' || c == '\r'

/-- Characters of numbers and literals. -/
def isWordChar (c : Char) : Bool :=
  c.isAlphanum || c == '-' || c == '+' || c == '.'

/-- The value of a word. -/
def readWord? (cs : List Char) : Option Json :=
  if cs == "null".toList then some .null
  else if cs == "true".toList then some (.bool true)
  else if cs == "false".toList then some (.bool false)
  else readNumber? cs

/-- The value of a hexadecimal digit. -/
def hexDigit? (c : Char) : Option Nat :=
  if c.isDigit then some (c.toNat - '0'.toNat)
  else if 'a' ≤ c && c ≤ 'f' then some (c.toNat - 'a'.toNat + 10)
  else if 'A' ≤ c && c ≤ 'F' then some (c.toNat - 'A'.toNat + 10)
  else none

/-- The character that a one-letter escape stands for. -/
def escaped? (c : Char) : Option Char :=
  match c with
  | '"' => some '"'
  | '\\' => some '\\'
  | '/' => some '/'
  | 'b' => some '\x08'
  | 'f' => some '\x0c'
  | 'n' => some '\n'
  | 'r' => some '\r'
  | 't' => some '\t'
  | _ => none

/-- The mode after an escape of four digits with value `unit`. -/
def afterUnit (read : List Char) (high : Option Nat) (unit : Nat) : Option Mode :=
  match high with
  | none =>
    if 0xD800 ≤ unit && unit < 0xDC00 then some (.low read unit)
    else if 0xDC00 ≤ unit && unit < 0xE000 then none
    else some (.text (Char.ofNat unit :: read))
  | some h =>
    if 0xDC00 ≤ unit && unit < 0xE000 then
      some (.text (Char.ofNat (0x10000 + (h - 0xD800) * 0x400 + (unit - 0xDC00)) :: read))
    else none

/-- The mode and the token that a character gives outside texts and words. -/
def startToken (c : Char) : Option (Mode × List Token) :=
  match c with
  | '[' => some (.between, [.openList])
  | ']' => some (.between, [.closeList])
  | '{' => some (.between, [.openMapping])
  | '}' => some (.between, [.closeMapping])
  | ',' => some (.between, [.comma])
  | ':' => some (.between, [.colon])
  | '"' => some (.text [], [])
  | _ =>
    if isBlank c then some (.between, [])
    else if isWordChar c then some (.word [c], [])
    else none

/-- One step of the lexer: the next mode and the tokens completed. -/
def Mode.step (mode : Mode) (c : Char) : Option (Mode × List Token) :=
  match mode with
  | .between => startToken c
  | .word read =>
    if isWordChar c then some (.word (c :: read), [])
    else do
      let value ← readWord? read.reverse
      let (next, tokens) ← startToken c
      some (next, .scalar value :: tokens)
  | .text read =>
    if c == '"' then some (.between, [.text (String.ofList read.reverse)])
    else if c == '\\' then some (.escape read, [])
    else if c.toNat < 0x20 then none
    else some (.text (c :: read), [])
  | .escape read =>
    if c == 'u' then some (.hex read none 0 0, [])
    else (escaped? c).map fun plain => (.text (plain :: read), [])
  | .hex read high count value => do
    let value := value * 16 + (← hexDigit? c)
    if count == 3 then (afterUnit read high value).map fun next => (next, [])
    else some (.hex read high (count + 1) value, [])
  | .low read high => if c == '\\' then some (.lowMark read high, []) else none
  | .lowMark read high => if c == 'u' then some (.hex read (some high) 0 0, []) else none

/-- The tokens of a text, from the given mode on. -/
def Mode.tokens? (mode : Mode) : List Char → Option (List Token)
  | [] =>
    match mode with
    | .between => some []
    | .word read => (readWord? read.reverse).map fun value => [.scalar value]
    | _ => none
  | c :: cs => do
    let (next, tokens) ← mode.step c
    (next.tokens? cs).map (tokens ++ ·)

end DeviceTree.Json
