import DeviceTree.Double.Shortest

/-!
# Written doubles

A double is written with its shortest digits. A `Layout` says which way ties between digits go,
which magnitudes are written positionally, whether a whole number keeps a fraction, and how the
values that are not numbers are spelled.
-/

namespace DeviceTree.Double

/-- How doubles are written. -/
structure Layout where
  tie : Tie
  /-- Whether a number whose leading digit stands at `10 ^ x` is written without an exponent. -/
  positional : Int → Bool
  /-- Written after a whole number in positional notation. -/
  wholeSuffix : String
  nan : String
  infinity : String
  negativeInfinity : String

/-- `digits * 10 ^ exponent` without an exponent. -/
def positionalText (digits : String) (exponent : Int) (wholeSuffix : String) : String :=
  let length : Int := digits.length
  if exponent ≥ 0 then digits ++ "".pushn '0' exponent.toNat ++ wholeSuffix
  else if length + exponent > 0 then
    let whole := (length + exponent).toNat
    String.ofList (digits.toList.take whole) ++ "." ++ String.ofList (digits.toList.drop whole)
  else "0." ++ "".pushn '0' (-(length + exponent)).toNat ++ digits

/-- One digit, the others after a point, and the exponent with its sign. -/
def scientificText (digits : String) (exponent : Int) : String :=
  let power := exponent + digits.length - 1
  let lead := String.ofList (digits.toList.take 1)
  let rest := String.ofList (digits.toList.drop 1)
  let mark := if power < 0 then "e-" else "e+"
  lead ++ (if rest.isEmpty then "" else "." ++ rest) ++ mark ++ toString power.natAbs

/-- The text of a denotation. -/
def Layout.write (layout : Layout) : Denotation → String
  | .nan => layout.nan
  | .infinite negative => if negative then layout.negativeInfinity else layout.infinity
  | .finite negative mantissa power =>
    let (digits, exponent) := shortest layout.tie mantissa power
    let text := toString digits
    let body :=
      if layout.positional (exponent + text.length - 1) then
        positionalText text exponent layout.wholeSuffix
      else scientificText text exponent
    (if negative then "-" else "") ++ body

/-- Doubles in JSON text: positional from `1e-5` up to below `1e16`, a whole number with `.0`. What
is not a number has no JSON text of its own and is written `null`. -/
def jsonLayout : Layout where
  tie := .toEven
  positional x := -5 ≤ x && x ≤ 15
  wholeSuffix := ".0"
  nan := "null"
  infinity := "null"
  negativeInfinity := "null"

/-- Doubles in messages: always positional, whole numbers without a fraction. -/
def messageLayout : Layout where
  tie := .up
  positional _ := true
  wholeSuffix := ""
  nan := "NaN"
  infinity := "inf"
  negativeInfinity := "-inf"

/-- The text of `x` in the given layout. -/
def text (layout : Layout) (x : Float) : String :=
  layout.write (decode x)

end DeviceTree.Double
