import DeviceTree.Decimal
import DeviceTree.Json.Token

/-!
# Plain scalars

What a scalar without quotes denotes: null, a truth value, an integer (decimal, or with the marks
`0x`, `0o` and `0b`), a double, or else its own text. Digits after a leading zero are a text.
Integers beyond 64 bits denote nothing.
-/

namespace DeviceTree.Yaml

/-- A natural number written in a base up to sixteen. -/
def readBase? (base : Nat) (cs : List Char) : Option Nat :=
  if cs.isEmpty then none
  else cs.foldlM (fun n c =>
    ((Json.hexDigit? c).filter (· < base)).map fun digit => n * base + digit) 0

/-- A natural number, in decimal or with the mark of another base. -/
def readMarked? : List Char → Option Nat
  | '0' :: 'x' :: cs => readBase? 16 cs
  | '0' :: 'o' :: cs => readBase? 8 cs
  | '0' :: 'b' :: cs => readBase? 2 cs
  | cs => Text.readNat? cs

/-- Whether the characters, after a sign, are several digits of which the first is zero. -/
def isPadded (cs : List Char) : Bool :=
  match (Decimal.splitSign cs).2 with
  | '0' :: c :: rest => (c :: rest).all Char.isDigit
  | _ => false

/-- The integer that a plain scalar denotes. -/
def readInteger? (cs : List Char) : Option Int :=
  if isPadded cs then none
  else
    let (negative, digits) := Decimal.splitSign cs
    (readMarked? digits).map fun n => if negative then -n else n

/-- A double written with digits, at most one point and an exponent; none if it is too large. -/
def readFinite? (cs : List Char) : Option Float := do
  let (negative, body) := Decimal.splitSign cs
  let (significand, exponent) := Decimal.cutAt (fun c => c == 'e' || c == 'E') body
  let (digits, places) ← Decimal.readDigits? significand
  let exponent ← match exponent with
    | some written => Text.readInt? written
    | none => some 0
  let x := Double.ofDecimal negative digits (exponent - places)
  if x.isFinite then some x else none

/-- The double that a plain scalar denotes. -/
def readDouble? (cs : List Char) : Option Float :=
  let word := String.ofList cs
  if [".inf", ".Inf", ".INF", "+.inf", "+.Inf", "+.INF"].contains word then some (1.0 / 0.0)
  else if ["-.inf", "-.Inf", "-.INF"].contains word then some (-1.0 / 0.0)
  else if [".nan", ".NaN", ".NAN"].contains word then some (0.0 / 0.0)
  else if isPadded cs then none
  else readFinite? cs

/-- What a plain scalar denotes, if it denotes anything. -/
def plainValue? (text : String) : Option Json :=
  let cs := text.toList
  if cs.isEmpty || ["~", "null", "Null", "NULL"].contains text then some .null
  else if ["true", "True", "TRUE"].contains text then some (.bool true)
  else if ["false", "False", "FALSE"].contains text then some (.bool false)
  else
    match (readInteger? cs).filter fun n => -0x80000000000000000000000000000000 ≤ n &&
        n < 0x100000000000000000000000000000000 with
    | some n => if -0x8000000000000000 ≤ n && n < 0x10000000000000000 then some (.int n) else none
    | none =>
      match readDouble? cs with
      | some x => some (.double x)
      | none => some (.str text)

end DeviceTree.Yaml
