import DeviceTree.Double.Basic
import DeviceTree.Json.Basic
import DeviceTree.Text.Numeral

/-!
# Written numbers

A number is written with an optional minus, a whole part without superfluous zeros, a fraction and
an exponent. Whole numbers that fit 64 bits are read exactly. Any other number is read through a
significand of 64 bits: its digits are taken as long as they fit, what is left of the whole part
raises the power of ten, what is left of the fraction is dropped, and the significand, as a double,
is multiplied or divided once by the power of ten. The result can differ from the nearest double in
the last place. A number beyond the largest double cannot be read.
-/

namespace DeviceTree.Json

/-- The parts of a written number; the digits as characters. -/
structure Literal where
  negative : Bool
  whole : List Char
  fraction : Option (List Char)
  exponent : Option Int

/-- The digits in front, and the rest. -/
def takeDigits (cs : List Char) : List Char × List Char :=
  cs.span Char.isDigit

/-- Splits a number into its parts and checks their form. -/
def Literal.parse? (cs : List Char) : Option Literal := do
  let (negative, cs) := match cs with
    | '-' :: rest => (true, rest)
    | _ => (false, cs)
  let (whole, cs) := takeDigits cs
  guard (whole == ['0'] || (!whole.isEmpty && whole.head? != some '0'))
  let (fraction, cs) ← match cs with
    | '.' :: rest =>
      let (digits, rest) := takeDigits rest
      if digits.isEmpty then none else some (some digits, rest)
    | _ => some (none, cs)
  let exponent ← match cs with
    | [] => some none
    | mark :: rest =>
      if mark == 'e' || mark == 'E' then (Text.readInt? rest).map some else none
  some { negative, whole, fraction, exponent }

/-- The significand after appending digits as long as it stays below `2 ^ 64`, and the digits that
are left. -/
def appendDigits (significand : Nat) : List Char → Nat × List Char
  | [] => (significand, [])
  | c :: cs =>
    let next := significand * 10 + (c.toNat - '0'.toNat)
    if next < 0x10000000000000000 then appendDigits next cs else (significand, c :: cs)

/-- The powers of ten that are applied at once reach up to this exponent. -/
def largestPower : Nat := 308

/-- `x * 10 ^ exponent`; nothing when that is beyond the largest double. A power below the range of
doubles is applied in steps, of which three reach zero. -/
def scalePower : Nat → Float → Int → Option Float
  | 0, x, _ => some x
  | steps + 1, x, exponent =>
    if exponent.natAbs ≤ largestPower then
      let power := Double.ofDecimal false 1 exponent.natAbs
      if exponent ≥ 0 then
        let y := x * power
        if y.isInf then none else some y
      else some (x / power)
    else if x == 0 then some x
    else if exponent ≥ 0 then none
    else scalePower steps (x / Double.ofDecimal false 1 largestPower) (exponent + largestPower)

/-- The double of a number with the given parts. -/
def Literal.toFloat? (l : Literal) : Option Float :=
  let (significand, left) := appendDigits 0 l.whole
  let fraction := l.fraction.getD []
  let (significand, dropped) := appendDigits significand fraction
  let used := fraction.length - dropped.length
  let exponent := l.exponent.getD 0 + left.length - used
  (scalePower 4 (Double.ofRatio false significand 1) exponent).map fun x =>
    if l.negative then -x else x

/-- The value of a number: exact when it is whole and fits 64 bits, else a double. A negative zero
is a double. -/
def Literal.value? (l : Literal) : Option Json :=
  let magnitude : Int := Nat.ofDigitChars 10 l.whole 0
  let n := if l.negative then -magnitude else magnitude
  let exact := l.fraction.isNone && l.exponent.isNone && !(l.negative && n == 0)
  if exact && -0x8000000000000000 ≤ n && n < 0x10000000000000000 then some (.int n)
  else l.toFloat?.map .double

/-- The number written by `cs`. -/
def readNumber? (cs : List Char) : Option Json := do
  (← Literal.parse? cs).value?

end DeviceTree.Json
