import DeviceTree.LoadError
import DeviceTree.TypeDef

/-!
# Attributes of a specification

The entries of a mapping that specifies a type. Null counts as absent, and every reader fails at the
attribute's own location when the value has the wrong kind.
-/

namespace DeviceTree.Loading

/-- The entries of a mapping that specifies a type. -/
abbrev Attributes := List (String × Json)

namespace Attributes

/-- The value of an attribute, together with the fact that it is smaller than all of them. -/
def nested? : (attrs : Attributes) → (key : String) → Option { v : Json // sizeOf v < sizeOf attrs }
  | [], _ => none
  | (k, v) :: rest, key =>
    if k = key then
      if v.isNull then none else some ⟨v, by simp; omega⟩
    else (nested? rest key).map fun ⟨w, smaller⟩ => ⟨w, by simp; omega⟩

/-- The value of an attribute. -/
def get? (attrs : Attributes) (key : String) : Option Json :=
  (attrs.lookup key).filter fun v => !v.isNull

/-- An attribute read by `read`, which is described by `what` where it fails. -/
def read (attrs : Attributes) (location : Location) (key what : String) {α : Type}
    (read : Json → Option α) : Except LoadError (Option α) :=
  match attrs.get? key with
  | none => .ok none
  | some v =>
    match read v with
    | some a => .ok (some a)
    | none => .error (.invalid (location.join key) (.attributeExpected what))

/-- An integer of 64 bits, signed or not. -/
def int (attrs : Attributes) (location : Location) (key : String) :
    Except LoadError (Option Int) :=
  attrs.read location key "integer" fun
    | .int n => some n
    | _ => none

/-- A length. -/
def size (attrs : Attributes) (location : Location) (key : String) :
    Except LoadError (Option Nat) :=
  attrs.read location key "non-negative integer" Json.asNat?

/-- A number as a double. -/
def float (attrs : Attributes) (location : Location) (key : String) :
    Except LoadError (Option Float) :=
  attrs.read location key "number" Json.asFloat?

/-- A decimal, written as a number or as a text. A double is taken as it is written in JSON. -/
def decimal (attrs : Attributes) (location : Location) (key : String) :
    Except LoadError (Option Decimal) :=
  attrs.read location key "decimal" fun
    | .int n => (Json.int n).asInt64?.map fun n => Decimal.ofInt64 (Int64.ofInt n)
    | .double x => Decimal.parse? (Json.double x).compact
    | .str s => Decimal.parse? s
    | _ => none

/-- A truth value. -/
def boolean (attrs : Attributes) (location : Location) (key : String) :
    Except LoadError (Option Bool) :=
  attrs.read location key "bool" Json.asBool?

/-- A text. -/
def string (attrs : Attributes) (location : Location) (key : String) :
    Except LoadError (Option String) :=
  attrs.read location key "string" Json.asString?

end Attributes

/-- A minimum above its maximum is an error. -/
def checkOrder {α : Type} (above : α → α → Bool) (location : Location)
    (minimum maximum : Option α) : Except LoadError Unit :=
  match minimum, maximum with
  | some low, some high =>
    if above low high then .error (.invalid location .emptyRange) else .ok ()
  | _, _ => .ok ()

/-- The attributes that the specification of a kind may have, besides the kind itself. -/
def recognized (kind : String) : List String :=
  match kind with
  | "Int" => ["minimum", "maximum", "multipleOf", "unsigned"]
  | "Double" => ["minimum", "maximum", "exclusiveMinimum", "exclusiveMaximum", "multipleOf"]
  | "Decimal" => ["minimum", "maximum"]
  | "String" => ["length", "minLength", "maxLength", "pattern"]
  | "Blob" => ["length", "minLength", "maxLength"]
  | "Enum" => ["values"]
  | "Bitfield" => ["types", "enum"]
  | "List" => ["minlen", "maxlen", "allowed"]
  | "Tuple" => ["items", "enum"]
  | "Map" => ["fields"]
  | "IMap" => ["enum", "fields"]
  | "Constant" => ["value"]
  | _ => []

/-- Attributes that the kind does not have are an error. -/
def checkRecognized (location : Location) (kind : String) (attrs : Attributes) :
    Except LoadError Unit :=
  let keys := (attrs.map Prod.fst).filter fun key => !("type" :: recognized kind).contains key
  if keys.isEmpty then .ok () else .error ⟨location, .unsupportedKeys keys⟩

end DeviceTree.Loading
