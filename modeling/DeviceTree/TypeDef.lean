import DeviceTree.OrderedMap
import DeviceTree.Pattern.Basic
import DeviceTree.Value

/-!
# The type algebra

A `TypeDef` describes a set of values. Composite types never contain other types: they refer to them
by name, and a registry that binds the names says what they mean. `TypeDef.references` lists the
names a type refers to.

Types are equal when they are written alike: bounds as numbers, patterns by source, named fields and
aliases in any order, everything else in order.
-/

namespace DeviceTree

/-- An integer between optional bounds that are part of the range. -/
structure IntRange where
  minimum : Option Int := none
  maximum : Option Int := none
  multipleOf : Option Int := none
  unsigned : Bool := false
deriving BEq, DecidableEq, Inhabited

/-- The integers from `minimum` to `maximum`; unsigned when none is negative. -/
def IntRange.between (minimum maximum : Int) : IntRange :=
  { minimum := some minimum, maximum := some maximum, unsigned := minimum ≥ 0 }

/-- A double between optional bounds; the exclusive ones are not part of the range. -/
structure DoubleRange where
  minimum : Option Float := none
  maximum : Option Float := none
  exclusiveMinimum : Option Float := none
  exclusiveMaximum : Option Float := none
  multipleOf : Option Float := none
deriving BEq, Inhabited

/-- A decimal between optional bounds that are part of the range. -/
structure DecimalRange where
  minimum : Option Decimal := none
  maximum : Option Decimal := none
deriving BEq, Inhabited

/-- A text with an optionally bounded number of characters, matching an optional pattern. -/
structure StringShape where
  minLength : Option Nat := none
  maxLength : Option Nat := none
  pattern : Option Pattern := none
deriving BEq, Inhabited

/-- A sequence of bytes of optionally bounded length. -/
structure BlobShape where
  minLength : Option Nat := none
  maxLength : Option Nat := none
deriving BEq, DecidableEq, Inhabited

/-- Aliases of integers, in order. Several aliases may share one value. -/
structure Enumeration where
  values : OrderedMap Int := .empty
deriving BEq, Inhabited

namespace Enumeration

/-- The value of an alias. -/
def value? (e : Enumeration) (name : String) : Option Int :=
  e.values.get? name

/-- The first alias of a value. -/
def alias? (e : Enumeration) (value : Int) : Option String :=
  (e.values.entries.find? fun (_, v) => v == value).map Prod.fst

/-- Whether some alias has the value. -/
def containsValue (e : Enumeration) (value : Int) : Bool :=
  e.values.values.contains value

/-- The largest value. -/
def maxValue? (e : Enumeration) : Option Int :=
  e.values.values.max?

end Enumeration

/-- One field of a bitfield: `width` bits from bit `offset`. -/
structure BitField where
  offset : Nat
  width : Nat
  typeName : String
deriving BEq, DecidableEq, Inhabited

namespace BitField

/-- Whether bit `i` lies in the field. -/
def covers (f : BitField) (i : Nat) : Bool :=
  f.offset ≤ i && i < f.offset + f.width

/-- The raw value of the field in a word of 64 bits. -/
def extract (f : BitField) (bits : UInt64) : Nat :=
  let shifted := bits.toNat >>> f.offset
  if f.width ≥ 64 then shifted else shifted % (1 <<< f.width)

end BitField

/-- An integer whose bits are divided into fields. -/
structure BitfieldShape where
  /-- The fields by ascending offset, without overlap. -/
  fields : List BitField := []
  /-- The enumeration whose values are the offsets of named fields. -/
  enumName : Option String := none
deriving BEq, DecidableEq, Inhabited

namespace BitfieldShape

/-- The number of bits up to the end of the last field. -/
def bitSize (b : BitfieldShape) : Nat :=
  ((b.fields.map fun f => f.offset + f.width).max?).getD 0

/-- The field that starts at bit `offset`. -/
def fieldAt? (b : BitfieldShape) (offset : Nat) : Option BitField :=
  b.fields.find? (·.offset == offset)

end BitfieldShape

/-- A list with an optional element type and bounds on its length. -/
structure ListShape where
  allowed : Option String := none
  minLength : Nat := 0
  maxLength : Option Nat := none
deriving BEq, DecidableEq, Inhabited

/-- A list of fixed length with a type for each position. -/
structure TupleShape where
  items : List String := []
  /-- The enumeration that names the positions. -/
  enumName : Option String := none
deriving BEq, DecidableEq, Inhabited

/-- A map with a type for each key it may have, or any map. -/
structure MapShape where
  fields : Option (OrderedMap String) := none
deriving BEq, Inhabited

/-- An integer map with a type for each key it may have, or any. -/
structure IMapShape where
  fields : Option (SortedMap String) := none
  /-- The enumeration that names the keys. -/
  enumName : Option String := none
deriving BEq, Inhabited

/-- A type. -/
inductive TypeDef where
  | any
  | null
  | bool
  | int (range : IntRange)
  | double (range : DoubleRange)
  | decimal (range : DecimalRange)
  | string (shape : StringShape)
  | blob (shape : BlobShape)
  | dateTime
  | enum (e : Enumeration)
  | bitfield (shape : BitfieldShape)
  | list (shape : ListShape)
  | tuple (shape : TupleShape)
  | map (shape : MapShape)
  | imap (shape : IMapShape)
  | alias (target : String)
  | union (members : List String)
  | constant (value : Value)
deriving BEq, Inhabited

namespace TypeDef

/-- The name of the kind of a type. -/
def kind : TypeDef → String
  | .any => "Any"
  | .null => "Null"
  | .bool => "Bool"
  | .int _ => "Int"
  | .double _ => "Double"
  | .decimal _ => "Decimal"
  | .string _ => "String"
  | .blob _ => "Blob"
  | .dateTime => "DateTime"
  | .enum _ => "Enum"
  | .bitfield _ => "Bitfield"
  | .list _ => "List"
  | .tuple _ => "Tuple"
  | .map _ => "Map"
  | .imap _ => "IMap"
  | .alias _ => "Alias"
  | .union _ => "Union"
  | .constant _ => "Constant"

/-- The names of the types that a type refers to, in order. -/
def references : TypeDef → List String
  | .bitfield b => b.fields.map (·.typeName) ++ b.enumName.toList
  | .list l => l.allowed.toList
  | .tuple t => t.items ++ t.enumName.toList
  | .map m => (m.fields.map (·.values)).getD []
  | .imap m => (m.fields.map (·.values)).getD [] ++ m.enumName.toList
  | .alias target => [target]
  | .union members => members
  | _ => []

end TypeDef

end DeviceTree
