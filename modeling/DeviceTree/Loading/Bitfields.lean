import DeviceTree.Loading.Specification
import DeviceTree.Registry.Bits

/-!
# Layout of bitfields

The slots of a bitfield are placed one after another, each field as wide as the values of its type.
Without slots, the values of the enumeration are the places of single bits. The fields, sorted by
place, must not overlap and must lie in a word of 64 bits.

A field may hold another bitfield, whose width is known once it has a layout itself. So the layout
of a bitfield comes after those of the bitfields that its slots name, directly or by aliases. Each
layout takes its bitfield off the list of those still pending, which bounds the depth.
-/

namespace DeviceTree.Loading

/-- A field at a place that has not been checked. -/
structure PlacedField where
  offset : Int
  width : Nat
  typeName : String

/-- The bit after a field. -/
def PlacedField.stop (f : PlacedField) : Int :=
  f.offset + f.width

/-- The width of a field of the named type. -/
def fieldWidth (r : Registry) (location : Location) (typeName : String) : Except LoadError Nat :=
  match r.bitSpan typeName with
  | some width => .ok width
  | none => .error (.invalid location (.noBitSpan typeName))

/-- The fields that the slots describe, where the first slot is at bit `position`. -/
def placeSlots (r : Registry) (location : Location) (position : Int) :
    List BitSlot → Except LoadError (List PlacedField)
  | [] => .ok []
  | .skip count :: rest => placeSlots r location (position + count) rest
  | .next typeName :: rest => do
    let field : PlacedField := ⟨position, ← fieldWidth r location typeName, typeName⟩
    let fields ← placeSlots r location field.stop rest
    .ok (field :: fields)
  | .at typeName offset :: rest => do
    let field : PlacedField := ⟨offset, ← fieldWidth r location typeName, typeName⟩
    let fields ← placeSlots r location field.stop rest
    .ok (field :: fields)

/-- Single bits at the values of an enumeration. -/
def placeBits (e : Enumeration) : List PlacedField :=
  e.values.values.eraseDups.map fun offset => ⟨offset, 1, "Bool"⟩

/-- The fields as they are, when they lie in the word from bit `start` on, one after another. -/
def checkPlaces (location : Location) (start : Int) :
    List PlacedField → Except LoadError (List BitField)
  | [] => .ok []
  | f :: rest =>
    if f.offset < start then .error (.invalid location (.overlap f.offset))
    else if f.offset < 0 ∨ f.stop > 64 then .error (.invalid location (.outOfWord f.offset))
    else do
      let fields ← checkPlaces location f.stop rest
      .ok (⟨f.offset.toNat, f.width, f.typeName⟩ :: fields)

/-- The fields of a bitfield, in no order: those of its slots, or the bits of its enumeration. -/
def placedFields (r : Registry) (p : PendingBitfield) : Except LoadError (List PlacedField) :=
  match p.slots, p.enumName with
  | some slots, _ => placeSlots r (p.location.join "types") 0 slots
  | none, some name => placeBits <$> r.enumeration (p.location.join "enum") name
  | none, none => .ok []

/-- The layout of a bitfield whose nested bitfields have theirs. -/
def fieldLayout (r : Registry) (p : PendingBitfield) : Except LoadError (List BitField) := do
  let placed ← placedFields r p
  checkPlaces (p.location.join "types") 0 (placed.mergeSort fun a b => a.offset ≤ b.offset)

/-- A registry and the bitfields in it that have no layout yet. -/
structure Unfinished where
  registry : Registry
  pending : List (String × PendingBitfield)

/-- The names whose layouts come before that of a bitfield. -/
def PendingBitfield.dependencies (p : PendingBitfield) (r : Registry) : List String :=
  p.typeNames.flatMap r.aliases

/-- Gives the named bitfield its layout, and before that every bitfield it depends on, to a depth of
`depth`. A name that is not pending is left as it is. -/
def layoutBitfield : (depth : Nat) → Unfinished → String → Except LoadError Unfinished
  | 0, u, _ => .ok u
  | depth + 1, u, name =>
    match u.pending.lookup name with
    | none => .ok u
    | some p => do
      let u ← (p.dependencies u.registry).foldlM (layoutBitfield depth)
        { u with pending := u.pending.filter (·.1 != name) }
      let fields ← fieldLayout u.registry p
      .ok { u with registry := u.registry.redefine name (.bitfield ⟨fields, p.enumName⟩) }

/-- Gives every pending bitfield its layout. -/
def layoutBitfields (r : Registry) (pending : List (String × PendingBitfield)) :
    Except LoadError Registry := do
  let u ← (pending.map Prod.fst).foldlM (layoutBitfield pending.length) ⟨r, pending⟩
  .ok u.registry

end DeviceTree.Loading
