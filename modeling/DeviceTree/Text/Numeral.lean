/-!
# Written integers

Readers of decimal integers over character lists. `readNat?` takes ASCII digits only, at least one;
`readInt?` takes one sign before them. Leading zeros are allowed.
-/

namespace DeviceTree.Text

/-- The natural number written by a nonempty list of ASCII digits. -/
def readNat? (cs : List Char) : Option Nat :=
  if !cs.isEmpty && cs.all Char.isDigit then some (Nat.ofDigitChars 10 cs 0) else none

/-- The integer written by ASCII digits after at most one sign. -/
def readInt? : List Char → Option Int
  | '-' :: cs => (readNat? cs).map fun n => -(n : Int)
  | '+' :: cs => (readNat? cs).map Int.ofNat
  | cs => (readNat? cs).map Int.ofNat

/-- The written integer, if it lies between the bounds. -/
def readIntWithin? (low high : Int) (cs : List Char) : Option Int :=
  (readInt? cs).filter fun n => low ≤ n && n ≤ high

/-- The text of a natural number as characters. -/
def natDigits (n : Nat) : List Char :=
  Nat.toDigits 10 n

theorem readNat?_natDigits (n : Nat) : readNat? (natDigits n) = some n := by
  have digits : (Nat.toDigits 10 n).all Char.isDigit = true := by
    simpa using fun c h => Nat.isDigit_of_mem_toDigits (by decide) (by decide) h
  have nonempty : (Nat.toDigits 10 n).isEmpty = false := by
    simp
  simp only [readNat?, natDigits, nonempty, digits, Bool.not_false, Bool.true_and, if_true]
  rw [Nat.ofDigitChars_toDigits (by decide) (by decide)]

end DeviceTree.Text
