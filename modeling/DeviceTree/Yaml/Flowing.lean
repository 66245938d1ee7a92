import DeviceTree.Json.Token
import DeviceTree.Yaml.Cursor

/-!
# Texts that flow over lines

Plain and quoted scalars may go on over several lines: a single line end becomes a blank, each
further one stays a line end, and the blanks around line ends are dropped. A plain scalar ends at a
colon or a comment that stands apart, at brackets where it is inside brackets, and, outside them, at
a line that is not indented deeper than what it is part of.
-/

namespace DeviceTree.Yaml

/-- The blanks and line ends since the last character of a text. -/
inductive Gap where
  | none
  /-- Blanks on the line, in reverse. -/
  | blanks (reversed : List Char)
  /-- A line end, which counts for nothing when it was escaped, and further ones. -/
  | breaks (counted : Bool) (further : Nat)

namespace Gap

/-- The gap with one more blank. -/
def addBlank (gap : Gap) (c : Char) : Gap :=
  match gap with
  | none => blanks [c]
  | blanks reversed => blanks (c :: reversed)
  | breaks counted further => breaks counted further

/-- The gap with one more line end. -/
def addBreak : Gap → Gap
  | breaks counted further => breaks counted (further + 1)
  | _ => breaks true 0

/-- What the gap becomes in the text, in reverse. -/
def reversedText : Gap → List Char
  | none => []
  | blanks reversed => reversed
  | breaks counted further =>
    if counted && further == 0 then [' '] else List.replicate further '\n'

/-- Whether the gap has a line end. -/
def hasBreak : Gap → Bool
  | breaks .. => true
  | _ => false

/-- Whether there is anything in the gap. -/
def isSome : Gap → Bool
  | none => false
  | _ => true

end Gap

/-- Blanks on a line. -/
def isBlank (c : Char) : Bool :=
  c == ' ' || c == '\t'

/-- Brackets and commas. -/
def isFlowMark (c : Char) : Bool :=
  ",[]\x7b\x7d".toList.contains c

/-- Whether a plain scalar ends before these characters. -/
def endsPlain (flow : Bool) (gap : Gap) (column : Nat) (c : Char) (rest : List Char) : Bool :=
  (c == '#' && gap.isSome) || (c == ':' && endsWord rest) || (flow && isFlowMark c) ||
    { rest := c :: rest, column : Cursor }.atMarker

/-- The rest of a plain scalar, where `acc` is its beginning in reverse. Outside brackets, lines
below column `indent` are not part of it. -/
def plainFrom (flow : Bool) (indent : Nat) (acc : List Char) (gap : Gap) (line column : Nat) :
    List Char → Option (List Char × Cursor)
  | [] => some (acc.reverse, { rest := [], line, column, fresh := gap.hasBreak })
  | c :: rest =>
    if c == '\n' then plainFrom flow indent acc gap.addBreak (line + 1) 0 rest
    else if isBlank c then
      if c == '\t' && gap.hasBreak && column < indent then none
      else plainFrom flow indent acc (gap.addBlank c) line (column + 1) rest
    else if (gap.hasBreak && !flow && column < indent) || endsPlain flow gap column c rest then
      some (acc.reverse, { rest := c :: rest, line, column, fresh := gap.hasBreak })
    else if flow && c == ':' && rest.head?.any fun d => d == '?' || isFlowMark d then none
    else plainFrom flow indent (c :: gap.reversedText ++ acc) .none line (column + 1) rest

/-- Whether a plain scalar may start with these characters. -/
def startsPlain (flow : Bool) : List Char → Bool
  | [] => false
  | c :: rest =>
    if c == '-' then !endsWord rest
    else if c == '?' || c == ':' then !flow && !endsWord rest
    else !isBlank c && !isFlowMark c && !"#&*!|>'\"%@`".toList.contains c

/-- The rest of a text in single quotes; two quotes stand for one. -/
def singleFrom (acc : List Char) (gap : Gap) (line column : Nat) :
    List Char → Option (List Char × Cursor)
  | [] => none
  | '\'' :: '\'' :: rest =>
    singleFrom ('\'' :: gap.reversedText ++ acc) .none line (column + 2) rest
  | '\'' :: rest =>
    some ((gap.reversedText ++ acc).reverse, { rest, line, column := column + 1, fresh := false })
  | c :: rest =>
    if c == '\n' then singleFrom acc gap.addBreak (line + 1) 0 rest
    else if isBlank c then singleFrom acc (gap.addBlank c) line (column + 1) rest
    else if { rest := c :: rest, column : Cursor }.atMarker then none
    else singleFrom (c :: gap.reversedText ++ acc) .none line (column + 1) rest

/-- The character with the given number, if there is one. -/
def charOfNumber? (n : Nat) : Option Char :=
  if h : n.isValidChar then some (Char.ofNatAux n h) else none

/-- The character written by hexadecimal digits. -/
def charOfDigits? (cs : List Char) : Option Char := do
  let digits ← cs.mapM Json.hexDigit?
  charOfNumber? (digits.foldl (fun n digit => n * 16 + digit) 0)

/-- The character that an escape of one character stands for. -/
def escaped? (c : Char) : Option Char :=
  [('0', '\x00'), ('a', '\x07'), ('b', '\x08'), ('t', '\t'), ('\t', '\t'), ('n', '\n'),
    ('v', '\x0b'), ('f', '\x0c'), ('r', '\r'), ('e', '\x1b'), (' ', ' '), ('"', '"'), ('/', '/'),
    ('\\', '\\'), ('N', '\u0085'), ('_', '\u00a0'), ('L', '\u2028'), ('P', '\u2029')].lookup c

/-- The rest of a text in double quotes, with its escapes. -/
def doubleFrom (acc : List Char) (gap : Gap) (line column : Nat) :
    List Char → Option (List Char × Cursor)
  | [] => none
  | '"' :: rest =>
    some ((gap.reversedText ++ acc).reverse, { rest, line, column := column + 1, fresh := false })
  | '\\' :: '\n' :: rest =>
    doubleFrom (gap.reversedText ++ acc) (.breaks false 0) (line + 1) 0 rest
  | '\\' :: 'x' :: a :: b :: rest =>
    match charOfDigits? [a, b] with
    | some c => doubleFrom (c :: gap.reversedText ++ acc) .none line (column + 4) rest
    | none => none
  | '\\' :: 'u' :: a :: b :: c :: d :: rest =>
    match charOfDigits? [a, b, c, d] with
    | some c => doubleFrom (c :: gap.reversedText ++ acc) .none line (column + 6) rest
    | none => none
  | '\\' :: 'U' :: a :: b :: c :: d :: e :: f :: g :: h :: rest =>
    match charOfDigits? [a, b, c, d, e, f, g, h] with
    | some c => doubleFrom (c :: gap.reversedText ++ acc) .none line (column + 10) rest
    | none => none
  | '\\' :: c :: rest =>
    match escaped? c with
    | some c => doubleFrom (c :: gap.reversedText ++ acc) .none line (column + 2) rest
    | none => none
  | c :: rest =>
    if c == '\n' then doubleFrom acc gap.addBreak (line + 1) 0 rest
    else if isBlank c then doubleFrom acc (gap.addBlank c) line (column + 1) rest
    else if c == '\\' || { rest := c :: rest, column : Cursor }.atMarker then none
    else doubleFrom (c :: gap.reversedText ++ acc) .none line (column + 1) rest

end DeviceTree.Yaml
