import DeviceTree.Decimal
import DeviceTree.Json.Token
import DeviceTree.Text.Split
import DeviceTree.Timestamp
import DeviceTree.Toml.Basic

/-!
# Words of TOML

A value without quotes and brackets is a word: a truth value, an integer of 64 bits, a double, or a
date with a time. Underscores may stand between digits, and decimal numbers have no leading zeros.
-/

namespace DeviceTree.Toml

/-- The digits without the underscores, which must stand between digits. -/
def plainDigits? (isDigit : Char → Bool) (cs : List Char) : Option (List Char) :=
  let parts := Text.splitChars '_' cs
  if parts.all fun part => !part.isEmpty && part.all isDigit then some parts.flatten else none

/-- The digits of a decimal integer without leading zeros. -/
def wholeDigits? (cs : List Char) : Option (List Char) :=
  (plainDigits? Char.isDigit cs).filter fun digits => digits.head? != some '0' || digits.length == 1

/-- A natural number in a base up to sixteen. -/
def readBase? (base : Nat) (cs : List Char) : Option Nat := do
  let inBase (c : Char) : Bool := (Json.hexDigit? c).any (· < base)
  let digits ← plainDigits? inBase cs
  digits.foldlM (fun n c => (Json.hexDigit? c).map fun digit => n * base + digit) 0

/-- An integer in decimal after at most one sign, or in another base after its mark. -/
def readInteger? (cs : List Char) : Option Int := do
  let n ← match cs with
    | '0' :: 'x' :: digits => (readBase? 16 digits).map Int.ofNat
    | '0' :: 'o' :: digits => (readBase? 8 digits).map Int.ofNat
    | '0' :: 'b' :: digits => (readBase? 2 digits).map Int.ofNat
    | _ =>
      let (negative, digits) := Decimal.splitSign cs
      (wholeDigits? digits).map fun digits =>
        let n : Int := Nat.ofDigitChars 10 digits 0
        if negative then -n else n
  if -0x8000000000000000 ≤ n && n < 0x8000000000000000 then some n else none

/-- A double in digits with a fraction, an exponent or both. Doubles above all finite ones are
refused, those below are not. -/
def readDecimal? (cs : List Char) : Option Float := do
  let (negative, body) := Decimal.splitSign cs
  let (significand, exponent?) := Decimal.cutAt (fun c => c == 'e' || c == 'E') body
  let (whole, fraction?) := Decimal.cutAt (· == '.') significand
  if exponent?.isNone && fraction?.isNone then none
  let whole ← wholeDigits? whole
  let fraction ← match fraction? with
    | some digits => plainDigits? Char.isDigit digits
    | none => some []
  let exponent ← match exponent? with
    | some written =>
      let (below, digits) := Decimal.splitSign written
      (plainDigits? Char.isDigit digits).map fun digits =>
        let n : Int := Nat.ofDigitChars 10 digits 0
        if below then -n else n
    | none => some 0
  let x := Double.ofDecimal negative (Nat.ofDigitChars 10 (whole ++ fraction) 0)
    (exponent - fraction.length)
  if x.isInf && !negative then none else some x

/-- A double in digits or by name. -/
def readFloat? (cs : List Char) : Option Float :=
  let (negative, body) := Decimal.splitSign cs
  if body == "inf".toList then some (if negative then -1.0 / 0.0 else 1.0 / 0.0)
  else if body == "nan".toList then some (0.0 / 0.0)
  else readDecimal? cs

/-! ## Dates and times -/

/-- A number of the given count of digits, between two bounds. -/
def readField? (count low high : Nat) (cs : List Char) : Option Nat :=
  if cs.length == count then (Text.readNat? cs).filter fun n => low ≤ n && n ≤ high else none

/-- Whether the characters are a date of the calendar. -/
def isDate (cs : List Char) : Bool :=
  match Text.splitChars '-' cs with
  | [year, month, day] => Option.isSome do
    let year ← readField? 4 0 9999 year
    let month ← readField? 2 1 12 month
    readField? 2 1 (Timestamp.daysInMonth year month) day
  | _ => false

/-- Whether the characters are a time of day; there may be a leap second. -/
def isTime (cs : List Char) : Bool :=
  match Text.splitChars ':' cs with
  | [hour, minute, second] =>
    let (second, fraction?) := Decimal.cutAt (· == '.') second
    (readField? 2 0 23 hour).isSome && (readField? 2 0 59 minute).isSome &&
      (readField? 2 0 60 second).isSome &&
      (fraction?.all fun digits => (Text.readNat? digits).isSome)
  | _ => false

/-- Whether the characters are hours and minutes. -/
def isOffset (cs : List Char) : Bool :=
  match Text.splitChars ':' cs with
  | [hour, minute] => (readField? 2 0 23 hour).isSome && (readField? 2 0 59 minute).isSome
  | _ => false

/-- Whether the characters are a time of day, perhaps with an offset from universal time. -/
def isZonedTime (cs : List Char) : Bool :=
  let time := cs.takeWhile fun c => c.isDigit || c == ':' || c == '.'
  isTime time && match cs.drop time.length with
    | [] => true
    | ['Z'] | ['z'] => true
    | sign :: offset => (sign == '+' || sign == '-') && isOffset offset

/-- Whether the characters are a date, a time or both. -/
def isMoment (cs : List Char) : Bool :=
  isDate cs || isTime cs ||
    (isDate (cs.take 10) && match cs.drop 10 with
      | mark :: time => (mark == 'T' || mark == 't' || mark == ' ') && isZonedTime time
      | [] => false)

/-- The value of a word. -/
def readWord? (cs : List Char) : Option Toml :=
  if cs == "true".toList then some (.bool true)
  else if cs == "false".toList then some (.bool false)
  else if isMoment cs then some (.moment (String.ofList cs))
  else
    match readInteger? cs with
    | some n => some (.integer n)
    | none => (readFloat? cs).map .float

/-- Characters of words. -/
def isWordChar (c : Char) : Bool :=
  c.isAlphanum || c == '+' || c == '-' || c == '_' || c == '.' || c == ':'

/-- The word at the start of a text, and what follows it. A date goes on after a blank where a time
follows. -/
def word (cs : List Char) : List Char × List Char :=
  let first := cs.takeWhile isWordChar
  match cs.drop first.length with
  | ' ' :: rest =>
    let second := rest.takeWhile isWordChar
    if isDate first && !second.isEmpty then (first ++ ' ' :: second, rest.drop second.length)
    else (first, ' ' :: rest)
  | rest => (first, rest)

end DeviceTree.Toml
