/-!
# Sets of characters

A `CharSet` is the ascending list of the code points at which membership changes: the first bound
starts a run of members, the second ends it, and so on. A code point is a member when an odd
number of bounds is at or below it.
-/

namespace DeviceTree.Text

/-- A set of code points, given by the points at which membership changes. -/
structure CharSet where
  bounds : Array Nat

/-- Whether the code point `n` is a member. -/
def CharSet.containsPoint (s : CharSet) (n : Nat) : Bool :=
  s.bounds.countP (· ≤ n) % 2 == 1

/-- Whether `c` is a member. -/
def CharSet.contains (s : CharSet) (c : Char) : Bool :=
  s.containsPoint c.toNat

end DeviceTree.Text
