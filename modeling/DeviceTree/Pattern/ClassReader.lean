import DeviceTree.Pattern.Escape

/-!
# Character classes in brackets

A class in brackets is a union of characters, ranges, escapes, named ASCII classes and nested
classes. The operators `&&`, `--` and `~~` combine what stands before them with the union that
follows, from left to right. A closing bracket in first place and hyphens in front stand for
themselves.
-/

namespace DeviceTree.Pattern

/-- Intersection, difference or symmetric difference. -/
inductive ClassOp where
  | inter
  | minus
  | differ

/-- The class that the operator makes of two. -/
def ClassOp.apply : ClassOp → CharClass → CharClass → CharClass
  | .inter => .inter
  | .minus => .minus
  | .differ => .differ

/-- A class that is still open. -/
structure OpenClass where
  negated : Bool
  /-- What the operators so far have made, with the operator whose right side is being read. -/
  left : Option (CharClass × ClassOp)
  /-- The union being read. -/
  union : CharClass

/-- The class read so far, its operators applied. -/
def OpenClass.value (o : OpenClass) : CharClass :=
  match o.left with
  | some (left, op) => op.apply left o.union
  | none => o.union

/-- The class when its bracket closes. -/
def OpenClass.close (o : OpenClass) : CharClass :=
  if o.negated then .negate o.value else o.value

/-- The class with one more member set. -/
def OpenClass.add (o : OpenClass) (s : CharClass) : OpenClass :=
  { o with union := .union o.union s }

/-- The ranges of the named ASCII classes. -/
def asciiClasses : List (String × List (Char × Char)) :=
  [("alnum", [('0', '9'), ('A', 'Z'), ('a', 'z')]),
    ("alpha", [('A', 'Z'), ('a', 'z')]),
    ("ascii", [('\x00', '\x7f')]),
    ("blank", [('\t', '\t'), (' ', ' ')]),
    ("cntrl", [('\x00', '\x1f'), ('\x7f', '\x7f')]),
    ("digit", [('0', '9')]),
    ("graph", [('!', '~')]),
    ("lower", [('a', 'z')]),
    ("print", [(' ', '~')]),
    ("punct", [('!', '/'), (':', '@'), ('[', '\x60'), ('\x7b', '~')]),
    ("space", [('\t', '\r'), (' ', ' ')]),
    ("upper", [('A', 'Z')]),
    ("word", [('0', '9'), ('A', 'Z'), ('_', '_'), ('a', 'z')]),
    ("xdigit", [('0', '9'), ('A', 'F'), ('a', 'f')])]

/-- The union of ranges. -/
def ofRanges (fold : Bool) (ranges : List (Char × Char)) : CharClass :=
  ranges.foldl (fun s (low, high) => .union s (.range fold low high)) .nothing

/-- A named ASCII class such as `[:alpha:]`, after its opening bracket; a caret negates it. -/
def readAscii? (fold : Bool) (cs : List Char) : Option (CharClass × List Char) :=
  match cs with
  | ':' :: rest =>
    let (negated, rest) := match rest with
      | '^' :: rest => (true, rest)
      | _ => (false, rest)
    let name := rest.takeWhile (· != ':')
    match rest.dropWhile (· != ':') with
    | ':' :: ']' :: rest =>
      (asciiClasses.lookup (String.ofList name)).map fun ranges =>
        let s := ofRanges fold ranges
        (if negated then .negate s else s, rest)
    | _ => none
  | _ => none

/-- `cs` without blanks and comments in front, where the flags let them be skipped. -/
def skipBlank (flags : Flags) : Nat → List Char → List Char
  | 0, cs => cs
  | fuel + 1, cs =>
    match flags.verbose, cs with
    | true, c :: rest =>
      if Text.whiteSpace.contains c then skipBlank flags fuel rest
      else if c == '#' then skipBlank flags fuel (rest.dropWhile (· != '\n'))
      else cs
    | _, _ => cs

/-- `skipBlank` for as long as there are characters. -/
def skip (flags : Flags) (cs : List Char) : List Char :=
  skipBlank flags cs.length cs

/-- A class just opened: a caret negates it, hyphens and a closing bracket in front are members. -/
def openClass? (flags : Flags) (cs : List Char) : Option (OpenClass × List Char) :=
  let cs := skip flags cs
  let (negated, cs) := match cs with
    | '^' :: rest => (true, skip flags rest)
    | _ => (false, cs)
  let hyphens := cs.takeWhile (· == '-')
  let cs := skip flags (cs.dropWhile (· == '-'))
  if !hyphens.isEmpty then
    if cs.isEmpty then none else some (⟨negated, none, .range false '-' '-'⟩, cs)
  else match cs with
    | ']' :: rest => some (⟨negated, none, .range false ']' ']'⟩, rest)
    | _ => some (⟨negated, none, .nothing⟩, cs)

/-- One character or escape inside a class. -/
def readMember? (cs : List Char) : Option (Element × List Char) :=
  match cs with
  | '\\' :: rest => readEscape? rest
  | c :: rest => some (.literal c, rest)
  | [] => none

/-- The set that a single member stands for; assertions have no place in a class. -/
def memberSet? (fold : Bool) : Element → Option CharClass
  | .literal c => some (.range fold c c)
  | .set s => some s
  | .assertion _ => none

/-- A member or a range of members. -/
def readRange? (flags : Flags) (cs : List Char) : Option (CharClass × List Char) := do
  let fold := flags.ignoreCase
  let (first, cs) ← readMember? cs
  let cs := skip flags cs
  match cs with
  | [] => none
  | '-' :: rest =>
    let after := skip flags rest
    match after with
    | [] => none
    | ']' :: _ | '-' :: _ => (memberSet? fold first).map fun s => (s, cs)
    | _ =>
      let (second, rest) ← readMember? after
      match first, second with
      | .literal low, .literal high =>
        if low ≤ high then some (.range fold low high, rest) else none
      | _, _ => none
  | _ => (memberSet? fold first).map fun s => (s, cs)

/-- The class with an operator after what has been read. -/
def OpenClass.operator (o : OpenClass) (op : ClassOp) : OpenClass :=
  { o with left := some (o.value, op), union := .nothing }

/-- Where a reader of classes stands: still inside, or done. -/
inductive ClassStep where
  | inside (outer : List OpenClass) (inner : OpenClass) (rest : List Char)
  | done (set : CharClass) (rest : List Char)

/-- One step inside a class. -/
def stepClass? (flags : Flags) (outer : List OpenClass) (inner : OpenClass) (cs : List Char) :
    Option ClassStep :=
  match skip flags cs with
  | [] => none
  | '[' :: rest =>
    match readAscii? flags.ignoreCase rest with
    | some (s, rest) => some (.inside outer (inner.add s) rest)
    | none => (openClass? flags rest).map fun (next, rest) => .inside (inner :: outer) next rest
  | ']' :: rest =>
    match outer with
    | [] => some (.done inner.close rest)
    | enclosing :: outer => some (.inside outer (enclosing.add inner.close) rest)
  | '&' :: '&' :: rest => some (.inside outer (inner.operator .inter) rest)
  | '-' :: '-' :: rest => some (.inside outer (inner.operator .minus) rest)
  | '~' :: '~' :: rest => some (.inside outer (inner.operator .differ) rest)
  | cs => (readRange? flags cs).map fun (s, rest) => .inside outer (inner.add s) rest

/-- The rest of a class. Every step takes a character; one that does not ends the reading. -/
def finishClass? (flags : Flags) (outer : List OpenClass) (inner : OpenClass) (cs : List Char) :
    Option (CharClass × List Char) :=
  match stepClass? flags outer inner cs with
  | none => none
  | some (.done s rest) => some (s, rest)
  | some (.inside outer inner rest) =>
    if rest.length < cs.length then finishClass? flags outer inner rest else none
termination_by cs.length

/-- A class, after its opening bracket. -/
def readClass? (flags : Flags) (cs : List Char) : Option (CharClass × List Char) := do
  let (inner, rest) ← openClass? flags cs
  finishClass? flags [] inner rest

end DeviceTree.Pattern
