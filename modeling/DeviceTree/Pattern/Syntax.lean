import DeviceTree.Text.Folding
import DeviceTree.Text.Properties

/-!
# Regular expressions

The abstract syntax of patterns: classes of single characters, assertions about a place in the text,
and their combinations. Greed and capture make no difference to whether a text matches, so they
have no place here.
-/

namespace DeviceTree

/-- A named set of characters. -/
inductive CharProperty where
  | digit
  | space
  | word
  | alphabetic
  | number
  | mark
  | connector
deriving Repr, DecidableEq

/-- Whether a character has the property. -/
def CharProperty.holds : CharProperty → Char → Bool
  | .digit, c => Text.decimalDigit.contains c
  | .space, c => Text.whiteSpace.contains c
  | .word, c => Text.isWord c
  | .alphabetic, c => Text.alphabetic.contains c
  | .number, c => Text.numeric.contains c
  | .mark, c => Text.mark.contains c
  | .connector, c => Text.connector.contains c

/-- A set of characters. -/
inductive CharClass where
  | nothing
  /-- The characters between two; with `fold`, also those that differ from them in case only. -/
  | range (fold : Bool) (low high : Char)
  | property (p : CharProperty)
  | negate (a : CharClass)
  | union (a b : CharClass)
  | inter (a b : CharClass)
  /-- Members of the first and not of the second. -/
  | minus (a b : CharClass)
  /-- Members of exactly one of the two. -/
  | differ (a b : CharClass)
deriving Repr, DecidableEq

/-- Whether `c` is a member. -/
def CharClass.contains : CharClass → Char → Bool
  | .nothing, _ => false
  | .range fold low high, c =>
    let within (n : Nat) := low.toNat ≤ n && n ≤ high.toNat
    if fold then (Text.caseClass c.toNat).any within else within c.toNat
  | .property p, c => p.holds c
  | .negate a, c => !a.contains c
  | .union a b, c => a.contains c || b.contains c
  | .inter a b, c => a.contains c && b.contains c
  | .minus a b, c => a.contains c && !b.contains c
  | .differ a b, c => a.contains c != b.contains c

/-- A condition on a place in the text. -/
inductive Assertion where
  | startOfText
  | endOfText
  | startOfLine
  | endOfLine
  | wordBoundary
  | noWordBoundary
  | startOfWord
  | endOfWord
  /-- No word character before. -/
  | noWordBefore
  /-- No word character after. -/
  | noWordAfter
deriving Repr, DecidableEq

/-- A regular expression. -/
inductive Regex where
  | empty
  | char (set : CharClass)
  | assert (a : Assertion)
  | seq (a b : Regex)
  | alt (a b : Regex)
  /-- At least `low` and, if given, at most `high` repetitions. -/
  | repeat (a : Regex) (low : Nat) (high : Option Nat)
deriving Repr, DecidableEq, Inhabited

end DeviceTree
