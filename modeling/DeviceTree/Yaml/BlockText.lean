import DeviceTree.Text.Split
import DeviceTree.Yaml.Cursor

/-!
# Block texts

A text after `|` keeps its lines; after `>` a single line end between lines that start with no blank
becomes a blank. The lines are indented deeper than what the text is part of: by the digit of the
header, or as deep as the first line that is not empty. The header says too what becomes of the line
ends at the end: one stays, or with `-` none, or with `+` all.
-/

namespace DeviceTree.Yaml

/-- What becomes of the line ends at the end of a block text. -/
inductive Chomping where
  | clip
  | strip
  | keep

/-- The header of a block text. -/
structure BlockHeader where
  folded : Bool
  chomping : Chomping := .clip
  /-- The indentation beyond that of what the text is part of. -/
  indentation : Option Nat := none

/-- The header with the indicators in front of the characters, and the rest. -/
def BlockHeader.read? (h : BlockHeader) (chomped : Bool) :
    List Char → Option (BlockHeader × List Char)
  | [] => some (h, [])
  | c :: rest =>
    if c == '-' || c == '+' then
      if chomped then none
      else { h with chomping := if c == '-' then .strip else .keep }.read? true rest
    else if c.isDigit then
      if c == '0' || h.indentation.isSome then none
      else { h with indentation := some (c.toNat - '0'.toNat) }.read? chomped rest
    else some (h, c :: rest)

/-- Whether a header may be followed by this on its line: blanks and a comment. -/
def endsHeader (cs : List Char) : Bool :=
  match cs.dropWhile fun c => c == ' ' || c == '\t' with
  | [] => true
  | c :: _ => c == '#'

/-- The number of blanks in front of a line. -/
def indentOf (line : List Char) : Nat :=
  (line.takeWhile (· == ' ')).length

/-- The indentation of the first line that is not empty, or of an empty line before it if that has
more blanks. A tab in an indentation is not allowed. -/
def detectIndent (widest : Nat) : List (List Char) → Option Nat
  | [] => some widest
  | line :: rest =>
    let widest := max widest (indentOf line)
    match line.drop (indentOf line) with
    | [] => if rest.isEmpty then some widest else detectIndent widest rest
    | c :: _ => if c == '\t' then none else some widest

/-- A block text that is being read. -/
structure BlockText where
  /-- The text so far, in reverse. -/
  acc : List Char := []
  /-- Whether the line end after the last line is still to be decided on. -/
  pending : Bool := false
  /-- The number of empty lines after it. -/
  empties : Nat := 0
  /-- Whether the last line starts with a blank. -/
  blankBefore : Bool := false

namespace BlockText

/-- The text with one more line. -/
def addLine (t : BlockText) (folded : Bool) (line : List Char) (ended : Bool) : BlockText :=
  let blank := line.head?.any fun c => c == ' ' || c == '\t'
  let between :=
    if folded && t.pending && !t.blankBefore && !blank then
      if t.empties == 0 then [' '] else []
    else if t.pending then ['\n'] else []
  { acc := line.reverse ++ List.replicate t.empties '\n' ++ between ++ t.acc, pending := ended,
    empties := 0, blankBefore := blank }

/-- The text once it is complete. -/
def finish (t : BlockText) : Chomping → List Char
  | .strip => t.acc.reverse
  | .clip => ((if t.pending then ['\n'] else []) ++ t.acc).reverse
  | .keep =>
    (List.replicate t.empties '\n' ++ (if t.pending then ['\n'] else []) ++ t.acc).reverse

/-- Takes lines that are indented deep enough or empty. Gives the text and the lines that are left.
A tab in an indentation is not allowed. -/
def takeLines (folded : Bool) (indent : Nat) (t : BlockText) :
    List (List Char) → Option (BlockText × List (List Char))
  | [] => some (t, [])
  | line :: rest =>
    let spaces := min indent (indentOf line)
    match line.drop spaces with
    | [] =>
      if rest.isEmpty then some (t, [line])
      else takeLines folded indent { t with empties := t.empties + 1 } rest
    | c :: body =>
      if spaces < indent then if c == '\t' then none else some (t, line :: rest)
      else takeLines folded indent (t.addLine folded (c :: body) !rest.isEmpty) rest

end BlockText

/-- The block text at a cursor that stands after its first character, as part of something that is
indented by `parent`. -/
def readBlockText? (folded : Bool) (parent : Int) (c : Cursor) : Option (String × Cursor) :=
  match Text.splitChars '\n' c.rest with
  | [] => none
  | first :: lines => do
    let (h, after) ← { folded : BlockHeader }.read? false first
    guard (endsHeader after)
    let least := (parent + 1).toNat
    let indent ← match h.indentation with
      | some n => some (parent.toNat + n)
      | none => (detectIndent 0 lines).map fun n => max (max n least) 1
    let (t, left) ← ({} : BlockText).takeLines folded indent lines
    some (String.ofList (t.finish h.chomping),
      { rest := Text.joinChars '\n' left, line := c.line + 1 + (lines.length - left.length),
        column := 0 })

end DeviceTree.Yaml
