import DeviceTree.Double.Basic

/-!
# Shortest decimal digits

Of all decimal numbers that read back as a given double, `Double.shortest` finds those with the
fewest digits and takes the nearest of them. The real numbers that round to the double form an
interval; if some multiple of a power of ten lies in it, then so does one of the two multiples next
to the double, so only these are tried, for one digit, two digits and so on.
-/

namespace DeviceTree.Double

/-- How to choose between two shortest decimals at the same distance. -/
inductive Tie where
  /-- The one whose last digit is even. -/
  | toEven
  /-- The larger one. -/
  | up
deriving Repr, DecidableEq

/-- A positive double and the interval that rounds to it, as numerators over one denominator. -/
structure Interval where
  low : Nat
  value : Nat
  high : Nat
  denominator : Nat
  /-- Whether the ends round to the double as well. -/
  closed : Bool

/-- The interval of the double `mantissa * 2 ^ exponent`. Below a power of two the next double is
only half as far away, except at the bottom of the range. -/
def Interval.ofBinary (mantissa : Nat) (exponent : Int) : Interval :=
  let scale := 1 <<< exponent.toNat
  let below := if mantissa == 0x10000000000000 && exponent != -1074 then 1 else 2
  { low := (4 * mantissa - below) * scale
    value := 4 * mantissa * scale
    high := (4 * mantissa + 2) * scale
    denominator := 4 <<< (-exponent).toNat
    closed := mantissa % 2 == 0 }

/-- Whether `c * 10 ^ k` lies in the interval. -/
def Interval.contains (i : Interval) (c : Nat) (k : Int) : Bool :=
  let x := c * Nat.pow 10 k.toNat * i.denominator
  let unit := Nat.pow 10 (-k).toNat
  if i.closed then i.low * unit ≤ x && x ≤ i.high * unit
  else i.low * unit < x && x < i.high * unit

/-- The multiple of `10 ^ k` in the interval that is nearest to the double, if there is one. -/
def Interval.nearest? (i : Interval) (tie : Tie) (k : Int) : Option Nat :=
  let num := i.value * Nat.pow 10 (-k).toNat
  let den := i.denominator * Nat.pow 10 k.toNat
  let c := num / den
  let rest := num % den
  match i.contains c k && c != 0, i.contains (c + 1) k with
  | false, false => none
  | true, false => some c
  | false, true => some (c + 1)
  | true, true =>
    if 2 * rest < den then some c
    else if 2 * rest > den then some (c + 1)
    else match tie with
      | .toEven => some (if c % 2 == 0 then c else c + 1)
      | .up => some (c + 1)

/-- The number of digits of `num / den` before the point; minus the number of zeros that follow the
point when the quotient is below one. -/
def magnitude (num den : Nat) : Int :=
  if num ≥ den then (Nat.toDigits 10 (num / den)).length
  else ((Nat.toDigits 10 (num * Nat.pow 10 400 / den)).length : Int) - 400

/-- The first of the exponents `k`, `k - 1`, … at which a decimal lies in the interval, with that
decimal's digits. -/
def Interval.search (i : Interval) (tie : Tie) : Nat → Int → Nat × Int
  | 0, k => (i.value / i.denominator, k)
  | fuel + 1, k =>
    match i.nearest? tie k with
    | some c => (c, k)
    | none => i.search tie fuel (k - 1)

/-- `digits * 10 ^ exponent` without trailing zeros in the digits. -/
def dropZeros : Nat → Nat → Int → Nat × Int
  | 0, digits, exponent => (digits, exponent)
  | fuel + 1, digits, exponent =>
    if digits != 0 && digits % 10 == 0 then dropZeros fuel (digits / 10) (exponent + 1)
    else (digits, exponent)

/-- The shortest decimal `digits * 10 ^ exponent` that reads back as the positive double
`mantissa * 2 ^ exponent`; seventeen digits always suffice. Zero has the digits `0`. -/
def shortest (tie : Tie) (mantissa : Nat) (exponent : Int) : Nat × Int :=
  if mantissa == 0 then (0, 0) else
  let i := Interval.ofBinary mantissa exponent
  let (digits, power) := i.search tie 18 (magnitude i.value i.denominator - 1)
  dropZeros 20 digits power

end DeviceTree.Double
