import DeviceTree.Pattern.ClassReader
import DeviceTree.Text.Numeral

/-!
# Reading patterns

The reader keeps a stack of open groups, and for each the alternatives that are complete and the
items of the one being read. Flags set inside a group last until the group ends. Look-around and
back-references are refused.
-/

namespace DeviceTree.Pattern

/-- A group being read; lists in reverse. -/
structure Level where
  alternatives : List Regex
  /-- The items of the alternative being read, and whether each may be repeated. -/
  items : List (Regex × Bool)
  flags : Flags

/-- Where the reader stands. -/
structure ReaderState where
  outer : List Level
  inner : Level
  /-- The names of groups so far. -/
  names : List (List Char)

/-- The items one after another. -/
def joinItems (items : List (Regex × Bool)) : Regex :=
  match items with
  | [] => .empty
  | (r, _) :: rest => rest.foldl (fun acc (before, _) => .seq before acc) r

/-- The group read so far as one expression. -/
def Level.value (l : Level) : Regex :=
  l.alternatives.foldl (fun acc before => .alt before acc) (joinItems l.items)

/-- The state with one more item. -/
def ReaderState.push (s : ReaderState) (r : Regex) (repeatable : Bool) : ReaderState :=
  { s with inner := { s.inner with items := (r, repeatable) :: s.inner.items } }

/-- The state with a new group open under the given flags. -/
def ReaderState.openGroup (s : ReaderState) (flags : Flags) : ReaderState :=
  { s with outer := s.inner :: s.outer, inner := ⟨[], [], flags⟩ }

/-- The state with the innermost group closed. -/
def ReaderState.closeGroup? (s : ReaderState) : Option ReaderState :=
  match s.outer with
  | [] => none
  | enclosing :: outer => some ({ s with outer, inner := enclosing }.push s.inner.value true)

/-- Whether `c` may stand in the name of a group, in first place or later. -/
def isNameChar (first : Bool) (c : Char) : Bool :=
  if first then c == '_' || Text.alphabetic.contains c
  else c == '_' || c == '.' || c == '[' || c == ']' || Text.isAlphanumeric c

/-- The name of a group up to its closing angle bracket. -/
def readName? (cs : List Char) : Option (List Char × List Char) := do
  let name := cs.takeWhile (· != '>')
  let rest ← (cs.dropWhile (· != '>')).tail?
  let head ← name.head?
  guard (isNameChar true head && name.all (isNameChar false))
  some (name, rest)

/-- The flags with one of them set or cleared. -/
def Flags.set? (flags : Flags) (c : Char) (on : Bool) : Option Flags :=
  match c with
  | 'i' => some { flags with ignoreCase := on }
  | 'm' => some { flags with multiLine := on }
  | 's' => some { flags with dotAll := on }
  | 'x' => some { flags with verbose := on }
  | 'U' | 'u' | 'R' => some flags
  | _ => none

/-- The letters of a flag group up to the colon or parenthesis that ends them, applied to the flags.
A letter may not be repeated, and something must follow a minus. -/
def readFlags? (flags : Flags) (on : Bool) (seen : List Char) :
    List Char → Option (Flags × Bool × List Char)
  | [] => none
  | c :: rest =>
    if c == ')' || c == ':' then
      if seen.head? == some '-' then none else some (flags, seen.isEmpty, c :: rest)
    else if seen.contains c then none
    else if c == '-' then readFlags? flags false (c :: seen) rest
    else match flags.set? c on with
      | some flags => readFlags? flags on (c :: seen) rest
      | none => none

/-- What follows an opening parenthesis. -/
def openParenthesis? (s : ReaderState) (cs : List Char) : Option (ReaderState × List Char) :=
  let named (rest : List Char) : Option (ReaderState × List Char) := do
    let (name, rest) ← readName? rest
    guard (!s.names.contains name)
    some ({ s with names := name :: s.names }.openGroup s.inner.flags, rest)
  match cs with
  | '?' :: '=' :: _ | '?' :: '!' :: _ => none
  | '?' :: '<' :: '=' :: _ | '?' :: '<' :: '!' :: _ => none
  | '?' :: 'P' :: '<' :: rest => named rest
  | '?' :: '<' :: rest => named rest
  | '?' :: rest => do
    let (flags, unchanged, rest) ← readFlags? s.inner.flags true [] rest
    match rest with
    | ':' :: rest => some (s.openGroup flags, rest)
    | _ :: rest =>
      if unchanged then none
      else some ({ s with inner := { s.inner with flags } }.push .empty false, rest)
    | [] => none
  | _ => some (s.openGroup s.inner.flags, cs)

/-- The rest without the question mark that makes a repetition lazy. -/
def dropLazy (cs : List Char) : List Char :=
  match cs with
  | '?' :: rest => rest
  | _ => cs

/-- The state with its last item repeated. There must be one that can be. -/
def ReaderState.repeatLast? (s : ReaderState) (low : Nat) (high : Option Nat) :
    Option ReaderState :=
  match s.inner.items with
  | (r, true) :: rest =>
    some { s with inner := { s.inner with items := (.repeat r low high, true) :: rest } }
  | _ => none

/-- The largest count of a repetition. -/
def largestCount : Nat := 0xFFFFFFFF

/-- A count, blanks around it aside. -/
def readCount? (cs : List Char) : Option (Nat × List Char) := do
  let cs := cs.dropWhile Text.whiteSpace.contains
  let n ← Text.readNat? (cs.takeWhile Char.isDigit)
  guard (n ≤ largestCount)
  some (n, (cs.dropWhile Char.isDigit).dropWhile Text.whiteSpace.contains)

/-- The counts of a repetition after its opening brace. -/
def readCounts? (cs : List Char) : Option (Nat × Option Nat × List Char) := do
  let (low, cs) ← readCount? cs
  match cs with
  | '}' :: rest => some (low, some low, rest)
  | ',' :: '}' :: rest => some (low, none, rest)
  | ',' :: rest =>
    let (high, rest) ← readCount? rest
    match rest with
    | '}' :: rest => if low ≤ high then some (low, some high, rest) else none
    | _ => none
  | _ => none

/-- The expression for a single element. -/
def Element.regex (fold : Bool) : Element → Regex
  | .literal c => .char (.range fold c c)
  | .set s => .char s
  | .assertion a => .assert a

/-- One step of the reader: the next state and the rest. -/
def step? (s : ReaderState) (cs : List Char) : Option (ReaderState × List Char) :=
  let flags := s.inner.flags
  match cs with
  | [] => none
  | c :: rest =>
    match c with
    | '(' => openParenthesis? s rest
    | ')' => s.closeGroup?.map fun s => (s, rest)
    | '|' =>
      some ({ s with inner := ⟨joinItems s.inner.items :: s.inner.alternatives, [], flags⟩ }, rest)
    | '[' => (readClass? flags rest).map fun (set, rest) => (s.push (.char set) true, rest)
    | '?' => (s.repeatLast? 0 (some 1)).map fun s => (s, dropLazy rest)
    | '*' => (s.repeatLast? 0 none).map fun s => (s, dropLazy rest)
    | '+' => (s.repeatLast? 1 none).map fun s => (s, dropLazy rest)
    | '{' => do
      let (low, high, rest) ← readCounts? rest
      (s.repeatLast? low high).map fun s => (s, dropLazy rest)
    | '\\' =>
      (readEscape? rest).map fun (e, rest) => (s.push (e.regex flags.ignoreCase) true, rest)
    | '.' =>
      let set := if flags.dotAll then .negate .nothing else .negate (.range false '\n' '\n')
      some (s.push (.char set) true, rest)
    | '^' =>
      some (s.push (.assert (if flags.multiLine then .startOfLine else .startOfText)) true, rest)
    | '$' =>
      some (s.push (.assert (if flags.multiLine then .endOfLine else .endOfText)) true, rest)
    | _ => some (s.push (.char (.range flags.ignoreCase c c)) true, rest)

/-- The state after the whole pattern. Every step takes a character; one that does not ends the
reading. -/
def steps? (s : ReaderState) (cs : List Char) : Option ReaderState :=
  if (skip s.inner.flags cs).isEmpty then some s
  else match step? s (skip s.inner.flags cs) with
    | none => none
    | some (next, rest) => if rest.length < cs.length then steps? next rest else none
termination_by cs.length

/-- The expression written by `cs`. -/
def parse? (cs : List Char) : Option Regex := do
  let s ← steps? ⟨[], ⟨[], [], {}⟩, []⟩ cs
  if s.outer.isEmpty then some s.inner.value else none

end DeviceTree.Pattern
