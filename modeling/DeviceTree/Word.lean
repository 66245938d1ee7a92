/-!
# Numbers in words

Arithmetic in words of a fixed width. The result of an operation is taken through `unsigned?` or
`signed?`, which give nothing when it does not fit the word. `difference?` is the difference of two
words without sign.
-/

namespace DeviceTree.Word

/-- The number, if it fits a word of `width` bits. -/
def unsigned? (width n : Nat) : Option Nat :=
  if n < 1 <<< width then some n else none

/-- The integer, if it fits a word of `width` bits with a sign. -/
def signed? (width : Nat) (n : Int) : Option Int :=
  let limit : Nat := 1 <<< (width - 1)
  if -(limit : Int) ≤ n ∧ n < limit then some n else none

/-- The difference of two numbers without sign, if it is not below zero. -/
def difference? (a b : Nat) : Option Nat :=
  if b ≤ a then some (a - b) else none

/-- The number of binary digits of a number. Zero has none. -/
def digits (n : Nat) : Nat :=
  if n = 0 then 0 else n.log2 + 1

/-- A number other than zero has a first digit, which can be left out. -/
theorem difference?_digits {n : Nat} (nonzero : n ≠ 0) : difference? (digits n) 1 = some n.log2 := by
  rw [digits, if_neg nonzero, difference?, if_pos (by omega), Nat.add_sub_cancel]

end DeviceTree.Word
