import DeviceTree.Toml.Scalar

/-!
# Reading TOML

A document is read line by line: headers change the table that the lines after them belong to, other
lines put a value under a dotted key. Lists in brackets may go on over several lines, tables in
braces may not. Every step takes at least one character, so the length of the text is a budget for
all of them.
-/

namespace DeviceTree.Toml

/-- Characters that may stand in comments and in quoted texts. -/
def isTextChar (c : Char) : Bool :=
  c == '\t' || (c.toNat ≥ 0x20 && c.toNat ≠ 0x7F)

/-- Blanks on a line. -/
def isBlank (c : Char) : Bool :=
  c == ' ' || c == '\t'

/-- What follows the blanks. -/
def dropBlanks (cs : List Char) : List Char :=
  cs.dropWhile isBlank

/-- The text with simple line ends. -/
def unifyLineEnds : List Char → List Char
  | '\r' :: '\n' :: rest => '\n' :: unifyLineEnds rest
  | c :: rest => c :: unifyLineEnds rest
  | [] => []

/-- What follows blanks, line ends and comments; `comment` tells that a comment has begun. -/
def skipLines (comment : Bool) : List Char → Option (List Char)
  | [] => some []
  | c :: rest =>
    if c == '\n' then skipLines false rest
    else if comment then if isTextChar c then skipLines true rest else none
    else if isBlank c then skipLines false rest
    else if c == '#' then skipLines true rest
    else some (c :: rest)

/-- What follows the end of a line that holds nothing more than a comment. -/
def endLine? (cs : List Char) : Option (List Char) :=
  let afterLine : List Char → Option (List Char)
    | [] => some []
    | c :: rest => if c == '\n' then some rest else none
  match dropBlanks cs with
  | '#' :: rest => afterLine (rest.dropWhile isTextChar)
  | rest => afterLine rest

/-! ## Texts in quotes -/

/-- The character with a code in hexadecimal digits, of which there must be `count`. -/
def readCode? (count : Nat) (cs : List Char) : Option Char := do
  if cs.length ≠ count then none
  let code ← cs.foldlM (fun n c => (Json.hexDigit? c).map fun digit => n * 16 + digit) 0
  if code < 0xD800 || (0xDFFF < code && code < 0x110000) then some (Char.ofNat code) else none

/-- The character that an escape of one letter stands for. -/
def escaped? (c : Char) : Option Char :=
  if c == '/' then none else Json.escaped? c

/-- What follows the blanks and line ends after a backslash; there must be a line end. -/
def joinLines? (cs : List Char) : Option (List Char) :=
  match dropBlanks cs with
  | '\n' :: rest => some (rest.dropWhile fun c => isBlank c || c == '\n')
  | _ => none

/-- Reads the rest of a quoted text, with its beginning in reverse. Texts in double quotes have
escapes. Texts of several lines end at three quotes, before which there may be one or two more. -/
def quoted (budget : Nat) (quote : Char) (lines : Bool) (read : List Char) (cs : List Char) :
    Option (String × List Char) :=
  match budget, cs with
  | budget + 1, c :: rest =>
    if c == quote then
      let count := (cs.takeWhile (· == quote)).length
      if !lines then some (String.ofList read.reverse, rest)
      else if count < 3 then
        quoted budget quote lines (List.replicate count quote ++ read) (cs.drop count)
      else if count ≤ 5 then
        some (String.ofList (List.replicate (count - 3) quote ++ read).reverse, cs.drop count)
      else none
    else if c == '\\' && quote == '"' then
      match rest with
      | 'u' :: digits => do
        quoted budget quote lines ((← readCode? 4 (digits.take 4)) :: read) (digits.drop 4)
      | 'U' :: digits => do
        quoted budget quote lines ((← readCode? 8 (digits.take 8)) :: read) (digits.drop 8)
      | letter :: after =>
        match escaped? letter with
        | some plain => quoted budget quote lines (plain :: read) after
        | none => if lines then do quoted budget quote lines read (← joinLines? rest) else none
      | [] => none
    else if isTextChar c || (lines && c == '\n') then quoted budget quote lines (c :: read) rest
    else none
  | _, _ => none

/-- Reads a text in quotes on one line. -/
def quotedLine? (cs : List Char) : Option (String × List Char) :=
  match cs with
  | c :: rest => if c == '"' || c == '\'' then quoted cs.length c false [] rest else none
  | [] => none

/-- Reads a text in quotes, on one line or, in three quotes, on several. A line end right after the
quotes is no part of it. -/
def quotedText? (cs : List Char) : Option (String × List Char) :=
  match cs with
  | a :: b :: c :: rest =>
    if (a == '"' || a == '\'') && a == b && b == c then
      match rest with
      | '\n' :: rest => quoted cs.length a true [] rest
      | _ => quoted cs.length a true [] rest
    else quotedLine? cs
  | _ => quotedLine? cs

/-! ## Keys -/

/-- Characters of keys without quotes. -/
def isKeyChar (c : Char) : Bool :=
  c.isAlphanum || c == '-' || c == '_'

/-- Reads one part of a key. -/
def keyPart? (cs : List Char) : Option (String × List Char) :=
  match cs with
  | '"' :: _ | '\'' :: _ => quotedLine? cs
  | _ =>
    let name := cs.takeWhile isKeyChar
    if name.isEmpty then none else some (String.ofList name, cs.drop name.length)

/-- Reads the parts of a key, which stand between points. -/
def keyParts (budget : Nat) (cs : List Char) : Option (List String × List Char) :=
  match budget with
  | 0 => none
  | budget + 1 => do
    let (part, rest) ← keyPart? (dropBlanks cs)
    match dropBlanks rest with
    | '.' :: rest =>
      let (parts, rest) ← keyParts budget rest
      some (part :: parts, rest)
    | rest => some ([part], rest)

/-- The largest number of parts in a key, and one more than the largest number of brackets and
braces around a value. -/
def depthLimit : Nat := 80

/-- Reads a key. -/
def key? (cs : List Char) : Option (List String × List Char) :=
  (keyParts cs.length cs).filter fun (parts, _) => parts.length < depthLimit

/-! ## Values -/

mutual

/-- Reads a value inside at most `levels` further brackets and braces. -/
def value (budget levels : Nat) (cs : List Char) : Option (Toml × List Char) :=
  match budget with
  | 0 => none
  | budget + 1 =>
    match levels, cs with
    | levels + 1, '[' :: rest => items budget levels [] rest
    | levels + 1, '\x7b' :: rest =>
      match dropBlanks rest with
      | '\x7d' :: rest => some (.table .closed [], rest)
      | rest => entries budget levels [] rest
    | 0, '[' :: _ | 0, '\x7b' :: _ => none
    | _, '"' :: _ | _, '\'' :: _ => (quotedText? cs).map fun (s, rest) => (.string s, rest)
    | _, _ => do
      let (written, rest) := word cs
      some (← readWord? written, rest)

/-- Reads the rest of a list, with the items before in reverse. -/
def items (budget levels : Nat) (read : List Toml) (cs : List Char) :
    Option (Toml × List Char) :=
  match budget with
  | 0 => none
  | budget + 1 => do
    match ← skipLines false cs with
    | ']' :: rest => some (.array read.reverse, rest)
    | start =>
      let (item, rest) ← value budget levels start
      match ← skipLines false rest with
      | ',' :: rest => items budget levels (item :: read) rest
      | ']' :: rest => some (.array (item :: read).reverse, rest)
      | _ => none

/-- Reads the rest of a table in braces, with the entries before. -/
def entries (budget levels : Nat) (read : List (String × Toml)) (cs : List Char) :
    Option (Toml × List Char) :=
  match budget with
  | 0 => none
  | budget + 1 => do
    match ← key? cs with
    | (path, '=' :: rest) =>
      let (item, rest) ← value budget levels (dropBlanks rest)
      let read ← put item path read
      match dropBlanks rest with
      | ',' :: rest => entries budget levels read rest
      | '\x7d' :: rest => some (.table .closed read, rest)
      | _ => none
    | _ => none

end

/-! ## Lines -/

/-- Reads the key of a header and what closes it. -/
def header? (closing : List Char) (cs : List Char) : Option (List String × List Char) := do
  let (path, rest) ← key? cs
  if closing.isPrefixOf rest then some (path, ← endLine? (rest.drop closing.length)) else none

/-- Changes the table under the last part of a key inside the one that the other parts lead to. -/
def openAt (change : String → List (String × Toml) → Option (List (String × Toml)))
    (path : List String) (root : List (String × Toml)) : Option (List (String × Toml)) :=
  match path.getLast? with
  | some key => within (change key) path.dropLast root
  | none => none

/-- Reads the rest of a document, where `here` is the path of the last header. -/
def lines (budget : Nat) (here : List String) (root : List (String × Toml)) (cs : List Char) :
    Option (List (String × Toml)) :=
  match budget with
  | 0 => none
  | budget + 1 => do
    match ← skipLines false cs with
    | [] => some root
    | '[' :: '[' :: rest =>
      let (path, rest) ← header? "]]".toList rest
      lines budget path (← openAt openNext path root) rest
    | '[' :: rest =>
      let (path, rest) ← header? "]".toList rest
      lines budget path (← openAt openTable path root) rest
    | start =>
      match ← key? start with
      | (path, '=' :: rest) =>
        let (item, rest) ← value budget (depthLimit - 1) (dropBlanks rest)
        lines budget here (← within (put item path) here root) (← endLine? rest)
      | _ => none

/-- The entries of the document that a text holds. A byte order mark before it is ignored. -/
def parse? (text : String) : Option (List (String × Toml)) :=
  match unifyLineEnds text.toList with
  | '\ufeff' :: cs => lines (cs.length + 1) [] [] cs
  | cs => lines (cs.length + 1) [] [] cs

end DeviceTree.Toml
