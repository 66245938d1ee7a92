import DeviceTree.Double.Text
import DeviceTree.Value

/-!
# Mismatches between values and types

A `ValidationError` says which part of a value does not match, against which type, and why. The part
is given by the steps that lead to it from the value that was validated.
-/

namespace DeviceTree

/-- A step into a composite value. -/
inductive Step where
  /-- A position in a list. -/
  | index (i : Nat)
  /-- A key of a map. -/
  | key (name : String)
  /-- A key of an integer map. -/
  | ikey (n : Int)
deriving Repr, DecidableEq

/-- The text of a step. -/
def Step.toText : Step → String
  | .index i => s!"[{i}]"
  | .key name => "." ++ name
  | .ikey n => s!".{n}"

/-- A number that a message quotes. -/
inductive Quantity where
  | integer (n : Int)
  | double (x : Float)
  | decimal (d : Decimal)

/-- The text of a quantity. -/
def Quantity.toText : Quantity → String
  | .integer n => toString n
  | .double x => Double.text Double.messageLayout x
  | .decimal d => d.toText

/-- What a message quotes as missing from an enumeration. -/
inductive EnumCandidate where
  | alias (name : String)
  | value (n : Int)

/-- The text of a candidate: aliases in quotes. -/
def EnumCandidate.toText : EnumCandidate → String
  | .alias name => s!"'{name}'"
  | .value n => toString n

/-- Why a value does not match a type. -/
inductive Mismatch where
  | kind (expected found : String)
  | belowMinimum (value minimum : Quantity)
  | aboveMaximum (value maximum : Quantity)
  | notMultiple (value unit : Quantity)
  | tooShort (length minimum : Nat)
  | tooLong (length maximum : Nat)
  | pattern (value source : String)
  | notInEnum (candidate : EnumCandidate)
  | unassignedBits (bits : Nat)
  | arity (expected found : Nat)
  | undeclaredKey (key : String)
  | noMember (members : List String)
  | notConstant
  | unknownType (name : String)
  | tooDeep (limit : Nat)

/-- The text of a mismatch. -/
def Mismatch.message : Mismatch → String
  | kind expected found => s!"expected {expected}, got {found}"
  | belowMinimum value minimum => value.toText ++ " is less than minimum " ++ minimum.toText
  | aboveMaximum value maximum => value.toText ++ " is greater than maximum " ++ maximum.toText
  | notMultiple value unit => value.toText ++ " is not a multiple of " ++ unit.toText
  | tooShort length minimum => s!"length {length} is less than {minimum}"
  | tooLong length maximum => s!"length {length} is greater than {maximum}"
  | pattern value source => s!"'{value}' doesn't match pattern '{source}'"
  | notInEnum candidate => candidate.toText ++ " is not a value of the enum"
  | unassignedBits bits =>
    "bits 0x" ++ String.ofList (Nat.toDigits 16 bits) ++ " are not assigned to any field"
  | arity expected found => s!"expected {expected} items, got {found}"
  | undeclaredKey key => s!"key '{key}' is not declared"
  | noMember members => "value matches none of: " ++ String.intercalate ", " members
  | notConstant => "value is not the expected constant"
  | unknownType name => s!"unknown type '{name}'"
  | tooDeep limit => s!"types nested deeper than {limit} levels"

/-- A part of a value that does not match a type. -/
structure ValidationError where
  /-- The steps from the value to the part. -/
  path : List Step
  /-- The name of the type that the part was checked against. -/
  typeName : String
  mismatch : Mismatch

/-- The text of a validation error. -/
def ValidationError.message (e : ValidationError) : String :=
  "value" ++ String.join (e.path.map Step.toText) ++ ": " ++ e.mismatch.message ++
    s!" (type '{e.typeName}')"

end DeviceTree
