import DeviceTree.Registry.Resolution

/-!
# Types inside bitfields

`bitSpan` is the number of bits that a value of a type takes inside a bitfield, for the types that
can be part of one. `decodeBits` reads the fields of a word: each field under the alias that the
enumeration of the bitfield gives its offset, or under the offset itself.
-/

namespace DeviceTree.Registry

/-- The number of binary digits of `n`; zero has one. -/
def bitLength (n : Nat) : Nat :=
  n.log2 + 1

/-- The number of bits that values of a type take; nothing when the type is no part of bitfields. -/
def spanOf : TypeDef → Option Nat
  | .bool | .null => some 1
  | .enum e =>
    match e.maxValue? with
    | some largest => if 0 ≤ largest then some (bitLength largest.toNat) else none
    | none => none
  | .int range =>
    match range.minimum, range.maximum with
    | some low, some high => if 0 ≤ low ∧ 0 ≤ high then some (bitLength high.toNat) else none
    | _, _ => none
  | .bitfield b => some (max b.bitSize 1)
  | _ => none

/-- The number of bits that values of the named type take. -/
def bitSpan (r : Registry) (name : String) : Option Nat :=
  (r.resolve? name).bind spanOf

/-- The value of a field with the given raw bits: truth values and aliases where the type of the
field has them. A field of type null has none. -/
def fieldValue? (r : Registry) (f : BitField) (raw : Nat) : Option Value :=
  match r.resolve? f.typeName with
  | some .null => none
  | some .bool => some (.bool (raw != 0))
  | some (.enum e) =>
    match e.alias? raw with
    | some name => some (.string name)
    | none => some (.uint (UInt64.ofNat raw))
  | _ => some (.uint (UInt64.ofNat raw))

/-- The enumeration that names the fields of a bitfield. -/
def fieldNames? (r : Registry) (b : BitfieldShape) : Option Enumeration :=
  match b.enumName.bind r.resolve? with
  | some (.enum e) => some e
  | _ => none

/-- The key of a field: the alias of its offset, or the offset as text. -/
def fieldKey (names : Option Enumeration) (f : BitField) : String :=
  (names.bind (·.alias? f.offset)).getD (toString f.offset)

/-- The fields of a word by their keys. -/
def decodeBits (r : Registry) (b : BitfieldShape) (bits : UInt64) : List (String × Value) :=
  let names := r.fieldNames? b
  mergeEntries (b.fields.filterMap fun f =>
    (r.fieldValue? f (f.extract bits)).map fun value => (fieldKey names f, value))

end DeviceTree.Registry
