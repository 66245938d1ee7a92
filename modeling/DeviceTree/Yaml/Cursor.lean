/-!
# Places in a text

A `Cursor` is what is left of a text, with its line and column. It is fresh where a block collection
may start: at the beginning of a line and after the dash of an item. Skipping passes blanks,
comments and line ends; tabs count as blanks unless they would be part of an indentation.
-/

namespace DeviceTree.Yaml

/-- A place in a text. -/
structure Cursor where
  rest : List Char
  line : Nat := 0
  column : Nat := 0
  /-- Whether a block collection may start here. -/
  fresh : Bool := true

/-- Whether a text ends here or goes on with a blank or a line end. -/
def endsWord : List Char → Bool
  | [] => true
  | c :: _ => c == ' ' || c == '\t' || c == '\n'

/-- Skips blanks, comments and line ends; `comment` tells that a comment has begun. -/
def skipFrom (flow comment : Bool) (line column : Nat) (fresh : Bool) : List Char → Cursor
  | [] => { rest := [], line, column, fresh }
  | c :: rest =>
    if c == '\n' then skipFrom flow false (line + 1) 0 true rest
    else if comment || c == ' ' || (c == '\t' && (flow || !fresh)) then
      skipFrom flow comment line (column + 1) fresh rest
    else if c == '#' then skipFrom flow true line (column + 1) fresh rest
    else { rest := c :: rest, line, column, fresh }

namespace Cursor

/-- The next place that is no blank and no comment. Inside brackets, tabs count as blanks. -/
def skip (c : Cursor) (flow : Bool) : Cursor :=
  skipFrom flow false c.line c.column c.fresh c.rest

/-- The place some characters further on the line. -/
def advance (c : Cursor) (count : Nat) (fresh : Bool) : Cursor :=
  { c with rest := c.rest.drop count, column := c.column + count, fresh }

/-- Whether the text ends here. -/
def atEnd (c : Cursor) : Bool :=
  c.rest.isEmpty

/-- Whether there is the dash of an item. -/
def atDash (c : Cursor) : Bool :=
  match c.rest with
  | '-' :: rest => endsWord rest
  | _ => false

/-- Whether there is the colon between a key and a value. Inside brackets it needs no blank. -/
def atColon (c : Cursor) (flow : Bool) : Bool :=
  match c.rest with
  | ':' :: rest => flow || endsWord rest
  | _ => false

/-- Whether a line starts here with three times the character and nothing else in the word. -/
def atMarkerOf (c : Cursor) (mark : Char) : Bool :=
  c.column == 0 && c.rest.take 3 == [mark, mark, mark] && endsWord (c.rest.drop 3)

/-- Whether the marker of the start or of the end of a document is here. -/
def atMarker (c : Cursor) : Bool :=
  c.atMarkerOf '-' || c.atMarkerOf '.'

end Cursor

end DeviceTree.Yaml
