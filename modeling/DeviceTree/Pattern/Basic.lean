import DeviceTree.Pattern.Matching
import DeviceTree.Pattern.Reader

/-!
# Patterns of texts

A `Pattern` is a regular expression kept with its source. The source is put into a group anchored at
the start of the text; what follows an unbalanced parenthesis in it is outside that group. Two
patterns are the same when their sources are.
-/

namespace DeviceTree

/-- A regular expression that a text is matched against from its start. -/
structure Pattern where
  source : String
  regex : Regex
deriving Repr, Inhabited

namespace Pattern

/-- The pattern with the given source, if it can be read. -/
def ofSource? (source : String) : Option Pattern :=
  (parse? ("^(?:".toList ++ source.toList ++ [')'])).map fun regex => { source, regex }

/-- Whether a text matches. -/
def accepts (p : Pattern) (text : String) : Bool :=
  p.regex.occursIn text

instance : BEq Pattern := ⟨fun a b => a.source == b.source⟩

end Pattern

end DeviceTree
