/-!
# Doubles as exact numbers

The value of a finite double is an integer times a power of two. `Double.decode` reads it off the
bits, `Double.ofRatio` is the double nearest to a quotient of natural numbers, and
`Double.isMultiple` decides divisibility, all in exact integer arithmetic.
-/

namespace DeviceTree.Double

/-- What the bits of a double denote. -/
inductive Denotation where
  /-- Not a number. -/
  | nan
  /-- An infinity. -/
  | infinite (negative : Bool)
  /-- The number `mantissa * 2 ^ exponent`, with its sign kept apart so that zero has one too. -/
  | finite (negative : Bool) (mantissa : Nat) (exponent : Int)
deriving Repr, DecidableEq

/-- The denotation of 64 bits in the binary interchange format. -/
def decodeBits (bits : UInt64) : Denotation :=
  let n := bits.toNat
  let negative := n / 0x8000000000000000 == 1
  let power : Nat := n / 0x10000000000000 % 0x800
  let fraction := n % 0x10000000000000
  if power == 2047 then
    if fraction == 0 then .infinite negative else .nan
  else if power == 0 then .finite negative fraction (-1074)
  else .finite negative (0x10000000000000 + fraction) ((power : Int) - 1075)

/-- The denotation of a double. -/
def decode (x : Float) : Denotation :=
  decodeBits x.toBits

/-- `num * 2 ^ (-q) / den`, as a quotient and a remainder over a divisor. -/
def scaledDiv (num den : Nat) (q : Int) : Nat × Nat × Nat :=
  let n := num <<< (-q).toNat
  let d := den <<< q.toNat
  (n / d, n % d, d)

/-- The quotient rounded to the nearest integer, a half to the even one. -/
def roundHalfEven (quotient remainder divisor : Nat) : Nat :=
  if 2 * remainder > divisor || (2 * remainder == divisor && quotient % 2 == 1) then quotient + 1
  else quotient

/-- The bits of the positive double nearest to `num / den`, a half to the even one; a quotient
beyond the largest double gives infinity. -/
def ratioBits (num den : Nat) : UInt64 :=
  if num == 0 || den == 0 then 0 else
  let low := max ((num.log2 : Int) - den.log2 - 53) (-1074)
  let q := if (scaledDiv num den low).1 ≥ 0x20000000000000 then low + 1 else low
  let (quotient, remainder, divisor) := scaledDiv num den q
  let bits := (q + 1074).toNat * 0x10000000000000 + roundHalfEven quotient remainder divisor
  UInt64.ofNat (min bits 0x7FF0000000000000)

/-- The double nearest to `num / den`, with the sign asked for. -/
def ofRatio (negative : Bool) (num den : Nat) : Float :=
  let x := Float.ofBits (ratioBits num den)
  if negative then -x else x

/-- The double nearest to `digits * 10 ^ exponent`, with the sign asked for. Exponents far outside
the range of doubles are cut first, which changes no result. -/
def ofDecimal (negative : Bool) (digits : Nat) (exponent : Int) : Float :=
  let width := (Nat.toDigits 10 digits).length
  if digits == 0 || exponent + width < -400 then ofRatio negative 0 1
  else if exponent > 400 then ofRatio negative (Nat.pow 10 400) 1
  else ofRatio negative (digits * Nat.pow 10 exponent.toNat) (Nat.pow 10 (-exponent).toNat)

/-- Whether `x` is an exact integer multiple of `unit`: the remainder of their division is zero.
There is none when either is not a number, `x` is infinite or `unit` is zero; only zero is a
multiple of an infinite unit. -/
def isMultiple (x unit : Float) : Bool :=
  match decode x, decode unit with
  | .finite _ m e, .finite _ m' e' =>
    let low := min e e'
    m' != 0 && (m <<< (e - low).toNat) % (m' <<< (e' - low).toNat) == 0
  | .finite _ m _, .infinite _ => m == 0
  | _, _ => false

end DeviceTree.Double
