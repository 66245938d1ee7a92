import DeviceTree.Text.Numeral
import DeviceTree.Text.Properties
import DeviceTree.Double.Shortest
import DeviceTree.Word

/-!
# Decimal numbers

A `Decimal` is a 64-bit mantissa times ten to a 32-bit exponent. It is compared as the rational
number it denotes, without ever writing out the power of ten: trailing zeros are stripped, numbers
whose leading digits stand at different places are ordered by the place, and others have their
digits padded to one length. Digits are kept in words of 128 bits, exponents and places in words of
64.

`Decimal.parse?` reads the text that `Decimal.toText` writes, and keeps the exponent as written:
`1.50` is 150 hundredths.
-/

namespace DeviceTree

/-- The number `mantissa * 10 ^ exponent`. -/
structure Decimal where
  mantissa : Int64
  exponent : Int32
deriving Repr, DecidableEq

namespace Decimal

/-- The decimal with no places after the point. -/
def ofInt64 (n : Int64) : Decimal := ⟨n, 0⟩

/-! ## Order -/

/-- The digits of a magnitude without its trailing zeros, and the exponent that they have. -/
def stripZeros? (digits : Nat) (exponent : Int) : Option (Nat × Int) :=
  if _ : digits ≠ 0 ∧ digits % 10 = 0 then do
    let exponent ← Word.signed? 64 (exponent + 1)
    stripZeros? (digits / 10) exponent
  else some (digits, exponent)
termination_by digits
decreasing_by omega

/-- The magnitude of a decimal, without trailing zeros. -/
def reduced? (d : Decimal) : Option (Nat × Int) :=
  stripZeros? d.mantissa.toInt.natAbs d.exponent.toInt

/-- One less than the number of decimal digits of `n`, added to `count`. -/
def countDigits? (count : Int) (n : Nat) : Option Int :=
  if _ : 10 ≤ n then do
    let count ← Word.signed? 64 (count + 1)
    countDigits? count (n / 10)
  else some count
termination_by n
decreasing_by omega

/-- The digits with as many zeros after them. -/
def pad? (digits zeros : Nat) : Option Nat := do
  let zeros ← Word.unsigned? 32 zeros
  let scale ← Word.unsigned? 128 (Nat.pow 10 zeros)
  Word.unsigned? 128 (digits * scale)

/-- The order of the magnitudes of two decimals. -/
def compareMagnitude? (a b : Decimal) : Option Ordering := do
  let (m, e) ← a.reduced?
  let (m', e') ← b.reduced?
  if m == 0 || m' == 0 then some (Ord.compare m m') else
  let l ← countDigits? 1 m
  let l' ← countDigits? 1 m'
  let place ← Word.signed? 64 (l + e)
  let place' ← Word.signed? 64 (l' + e')
  if place != place' then some (Ord.compare place place')
  else if l < l' then
    let padded ← pad? m (l' - l).toNat
    some (Ord.compare padded m')
  else
    let padded ← pad? m' (l - l').toNat
    some (Ord.compare m padded)

/-- The order of two decimals as numbers, if no number on the way leaves its word. -/
def compare? (a b : Decimal) : Option Ordering :=
  let sign := a.mantissa.toInt.sign
  let sign' := b.mantissa.toInt.sign
  if sign != sign' then some (Ord.compare sign sign')
  else if sign == 0 then some .eq
  else if sign == 1 then compareMagnitude? a b
  else compareMagnitude? b a

/-- The order of two decimals as numbers. No number leaves its word, so the default is not used. -/
def compare (a b : Decimal) : Ordering :=
  (a.compare? b).getD .eq

instance : Ord Decimal := ⟨Decimal.compare⟩

/-- Decimals are equal when they denote the same number. -/
instance : BEq Decimal := ⟨fun a b => a.compare b == .eq⟩

instance : LT Decimal := ⟨fun a b => a.compare b = .lt⟩

instance (a b : Decimal) : Decidable (a < b) :=
  inferInstanceAs (Decidable (a.compare b = .lt))

/-! ## Text -/

/-- The text of a decimal: the bare mantissa for exponent zero, positional for up to eighteen places
after the point, mantissa and exponent otherwise. -/
def toText (d : Decimal) : String :=
  let m := d.mantissa.toInt
  let e := d.exponent.toInt
  if e == 0 then toString m
  else if -18 ≤ e && e < 0 then
    let places := e.natAbs
    let digits := Text.natDigits m.natAbs
    let padded := List.replicate (places + 1 - digits.length) '0' ++ digits
    let whole := padded.length - places
    let sign := if m < 0 then "-" else ""
    sign ++ String.ofList (padded.take whole) ++ "." ++ String.ofList (padded.drop whole)
  else toString m ++ "e" ++ toString e

instance : ToString Decimal := ⟨toText⟩

/-- The sign in front of a number, and the rest. -/
def splitSign : List Char → Bool × List Char
  | '-' :: cs => (true, cs)
  | '+' :: cs => (false, cs)
  | cs => (false, cs)

/-- What stands before the first character satisfying `p`, and what follows that character. -/
def cutAt (p : Char → Bool) (cs : List Char) : List Char × Option (List Char) :=
  match cs.dropWhile (!p ·) with
  | [] => (cs, none)
  | _ :: rest => (cs.takeWhile (!p ·), some rest)

/-- The digits before and after the point; one of the two may be missing. -/
def readDigits? (cs : List Char) : Option (Nat × Nat) :=
  let (whole, fraction?) := cutAt (· == '.') cs
  let fraction := fraction?.getD []
  (Text.readNat? (whole ++ fraction)).map fun m => (m, fraction.length)

/-- The decimal written by `cs`: a sign, digits around a point, and an exponent after `e` or `E`.
The digits must not exceed the largest mantissa, the exponent must fit as written and with the
places after the point taken off. -/
def readChars? (cs : List Char) : Option Decimal := do
  let (number, exponent?) := cutAt (fun c => c == 'e' || c == 'E') cs
  let exponent ← match exponent? with
    | some digits => Text.readIntWithin? (-0x80000000) 0x7FFFFFFF digits
    | none => some 0
  let (negative, digits) := splitSign number
  let (mantissa, places) ← readDigits? digits
  guard (mantissa < 0x8000000000000000)
  guard (-0x80000000 ≤ exponent - places)
  let signed : Int := if negative then -mantissa else mantissa
  some ⟨Int64.ofInt signed, Int32.ofInt (exponent - places)⟩

/-- The decimal written by `text`, surrounding white space aside. -/
def parse? (text : String) : Option Decimal :=
  readChars? (Text.trim text.toList)

/-- What is said of a text that is no decimal. -/
def unreadable (text : String) : String :=
  s!"invalid decimal '{text}'"

/-- The decimal with the fewest digits that reads back as the double `x`, if `x` is finite. -/
def ofFloat? (x : Float) : Option Decimal :=
  match Double.decode x with
  | .finite negative m e =>
    let (digits, exponent) := Double.shortest .up m e
    let signed : Int := if negative then -digits else digits
    some ⟨Int64.ofInt signed, Int32.ofInt exponent⟩
  | _ => none

end Decimal

end DeviceTree
