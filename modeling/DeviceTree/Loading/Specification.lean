import DeviceTree.Loading.Attributes
import DeviceTree.Loading.Numbering
import DeviceTree.Registry.Basic

/-!
# Specifications of types

A specification is null, the name of another type, a list of members, or a mapping with a kind and
its attributes. Where a composite type expects a name, a list or a mapping may stand instead: it is
registered as a companion type under a name derived from its owner. A list of aliases in place of
the name of an enumeration is registered in the same way.

Bitfields are registered without a layout, and integer maps without the fields named by aliases:
both need types that may come later, so the state keeps what is left to do.
-/

namespace DeviceTree.Loading

/-- An entry of the list that describes a bitfield. -/
inductive BitSlot where
  /-- Bits without a field. -/
  | skip (count : Int)
  /-- A field right after what comes before. -/
  | next (typeName : String)
  /-- A field at a given bit. -/
  | at (typeName : String) (offset : Int)

/-- The name of the type of a slot, if it is a field. -/
def BitSlot.typeName? : BitSlot → Option String
  | .skip _ => none
  | .next typeName => some typeName
  | .at typeName _ => some typeName

/-- A bitfield that has no layout yet. -/
structure PendingBitfield where
  location : Location
  slots : Option (List BitSlot)
  enumName : Option String

/-- The names of the types of the fields. -/
def PendingBitfield.typeNames (p : PendingBitfield) : List String :=
  (p.slots.getD []).filterMap BitSlot.typeName?

/-- The bitfield without places for its fields, so that its references are known. -/
def PendingBitfield.placeholder (p : PendingBitfield) : BitfieldShape :=
  { fields := p.typeNames.map fun typeName => ⟨0, 0, typeName⟩, enumName := p.enumName }

/-- Fields of an integer map that are named by aliases. -/
structure PendingFields where
  location : Location
  enumName : Option String
  /-- Aliases and names of types. -/
  named : List (String × String)

/-- What loading knows so far. -/
structure State where
  registry : Registry
  /-- The names that the document declares. -/
  declared : List String
  bitfields : List (String × PendingBitfield) := []
  imaps : List (String × PendingFields) := []
  /-- The names that must denote enumerations, and where they stand. -/
  enumRefs : List (Location × String) := []

/-- Computations that extend the state or fail. -/
abbrev LoadM := StateT State (Except LoadError)

/-- Fails with a fault at a location. -/
def fault {α : Type} (location : Location) (f : FormatFault) : LoadM α :=
  throw (.invalid location f)

/-- Registers a type under a name. -/
def define (name : String) (type : TypeDef) : LoadM Unit := do
  let s ← get
  let registry ← s.registry.define name type
  set { s with registry }

/-- Registers a companion type; its derived name must be new to the document too. -/
def defineCompanion (location : Location) (name : String) (type : TypeDef) : LoadM Unit := do
  let s ← get
  if s.declared.contains name || s.registry.contains name then
    throw ⟨location, .duplicateType name⟩
  else define name type

/-! ## Kinds without parts -/

/-- An integer type. It is unsigned by default when its minimum is not negative. -/
def intType (location : Location) (attrs : Attributes) : Except LoadError IntRange := do
  let minimum ← attrs.int location "minimum"
  let maximum ← attrs.int location "maximum"
  let multipleOf ← attrs.int location "multipleOf"
  let unsigned := (← attrs.boolean location "unsigned").getD (minimum.any (0 ≤ ·))
  if unsigned && (minimum.any (· < 0) || maximum.any (· < 0)) then
    throw (.invalid location .negativeUnsigned)
  if multipleOf.any (· ≤ 0) then
    throw (.invalid (location.join "multipleOf") .positiveIntExpected)
  checkOrder (fun a b => decide (a > b)) location minimum maximum
  pure { minimum, maximum, multipleOf, unsigned }

/-- A double type. -/
def doubleType (location : Location) (attrs : Attributes) : Except LoadError DoubleRange := do
  let minimum ← attrs.float location "minimum"
  let maximum ← attrs.float location "maximum"
  let exclusiveMinimum ← attrs.float location "exclusiveMinimum"
  let exclusiveMaximum ← attrs.float location "exclusiveMaximum"
  let multipleOf ← attrs.float location "multipleOf"
  if multipleOf.any (· ≤ 0) then
    throw (.invalid (location.join "multipleOf") .positiveNumberExpected)
  checkOrder (fun a b => decide (a > b)) location minimum maximum
  pure { minimum, maximum, exclusiveMinimum, exclusiveMaximum, multipleOf }

/-- A decimal type. -/
def decimalType (location : Location) (attrs : Attributes) : Except LoadError DecimalRange := do
  let minimum ← attrs.decimal location "minimum"
  let maximum ← attrs.decimal location "maximum"
  checkOrder (fun a b => decide (b < a)) location minimum maximum
  pure { minimum, maximum }

/-- The bounds on a length: one length for both, and each bound on its own before it. -/
def lengthBounds (location : Location) (attrs : Attributes) :
    Except LoadError (Option Nat × Option Nat) := do
  let length ← attrs.size location "length"
  let minLength := (← attrs.size location "minLength").or length
  let maxLength := (← attrs.size location "maxLength").or length
  checkOrder (fun a b => decide (a > b)) location minLength maxLength
  pure (minLength, maxLength)

/-- A text type. -/
def stringType (location : Location) (attrs : Attributes) : Except LoadError StringShape := do
  let (minLength, maxLength) ← lengthBounds location attrs
  match ← attrs.string location "pattern" with
  | none => pure { minLength, maxLength }
  | some source =>
    match Pattern.ofSource? source with
    | some pattern => pure { minLength, maxLength, pattern := some pattern }
    | none => throw (.invalid (location.join "pattern") .unreadablePattern)

/-- A type of bytes. -/
def blobType (location : Location) (attrs : Attributes) : Except LoadError BlobShape := do
  let (minLength, maxLength) ← lengthBounds location attrs
  pure { minLength, maxLength }

/-- An enumeration; without values it is empty. -/
def enumType (location : Location) (attrs : Attributes) : Except LoadError Enumeration :=
  match attrs.get? "values" with
  | some values => enumeration (location.join "values") values
  | none => .ok {}

/-- A constant. -/
def constantType (location : Location) (attrs : Attributes) : Except LoadError Value :=
  match attrs.get? "value" with
  | some v => .ok (.ofJson v)
  | none => .error (.invalid (location.join "value") .missingConstant)

/-- The type that a mapping of a kind without parts specifies. -/
def plainType (location : Location) (kind name : String) (attrs : Attributes) :
    Except LoadError TypeDef :=
  match kind with
  | "Int" => .int <$> intType location attrs
  | "Double" => .double <$> doubleType location attrs
  | "Decimal" => .decimal <$> decimalType location attrs
  | "String" => .string <$> stringType location attrs
  | "Blob" => .blob <$> blobType location attrs
  | "Enum" => .enum <$> enumType location attrs
  | "Constant" => .constant <$> constantType location attrs
  | other => .error (.invalid location (.unknownKind other name))

/-! ## Enumerations and bitfields -/

/-- The name of an enumeration given by name or as a list of aliases. -/
def enumReference (location : Location) (owner : String) (spec : Json) : LoadM String := do
  match spec with
  | .str name =>
    modify fun s => { s with enumRefs := s.enumRefs ++ [(location, name)] }
    pure name
  | .arr _ =>
    let name := owner ++ "Enum"
    let e ← enumeration location spec
    defineCompanion location name (.enum e)
    pure name
  | other => fault location (.notAnEnum other)

/-- The enumeration that a composite type names its parts by, if there is one. -/
def enumAttribute (location : Location) (owner : String) (attrs : Attributes) :
    LoadM (Option String) := do
  match attrs.get? "enum" with
  | some spec => some <$> enumReference (location.join "enum") owner spec
  | none => pure none

/-- The fields placed explicitly by one entry of a bitfield. -/
def explicitSlots (location : Location) :
    List (String × Json) → Except LoadError (List BitSlot)
  | [] => .ok []
  | (typeName, v) :: rest => do
    let offset ← nonNegative (location.join typeName) v
    let slots ← explicitSlots location rest
    .ok (.at typeName offset :: slots)

/-- The slots of a bitfield. -/
def bitSlots (location : Location) : List Json → Except LoadError (List BitSlot)
  | [] => .ok []
  | item :: rest => do
    let here ← match item with
      | .null => .ok [.skip 1]
      | .int n => (nonNegative location (.int n)).map fun count => [.skip count]
      | .double x => (nonNegative location (.double x)).map fun count => [.skip count]
      | .str typeName => .ok [.next typeName]
      | .obj fields => explicitSlots location fields
      | other => .error (.invalid location (.notASlot other))
    let slots ← bitSlots location rest
    .ok (here ++ slots)

/-- The slots of a bitfield, if it has some. -/
def slotsAttribute (location : Location) (attrs : Attributes) :
    Except LoadError (Option (List BitSlot)) :=
  match attrs.get? "types" with
  | some (.arr items) => some <$> bitSlots location items
  | some _ => .error (.invalid location .listExpected)
  | none => .ok none

/-- A bitfield whose fields have no places yet. -/
def bitfieldType (location : Location) (name : String) (attrs : Attributes) :
    LoadM BitfieldShape := do
  let slots ← slotsAttribute (location.join "types") attrs
  let enumName ← enumAttribute location name attrs
  let pending : PendingBitfield := { location, slots, enumName }
  modify fun s => { s with bitfields := s.bitfields ++ [(name, pending)] }
  pure pending.placeholder

/-! ## Composite kinds -/

/-- The fields of an integer map: those placed by integers, and those named by aliases. -/
structure IMapFields where
  placed : SortedMap String := .empty
  named : List (String × String) := []

/-- One more field of an integer map. A key that is an integer of 64 bits is its place. -/
def IMapFields.add (fields : IMapFields) (location : Location) (key typeName : String) :
    Except LoadError IMapFields :=
  match Text.readIntWithin? (-0x8000000000000000) 0x7FFFFFFFFFFFFFFF key.toList with
  | some n => do
    let placed ← placeFields location fields.placed [(n, typeName)]
    .ok { fields with placed }
  | none => .ok { fields with named := fields.named ++ [(key, typeName)] }

/-- An integer map; fields named by aliases are left for later. -/
def imapShape (location : Location) (name : String) (enumName : Option String) :
    Option IMapFields → LoadM IMapShape
  | none => pure { fields := none, enumName }
  | some fields => do
    let pending : PendingFields :=
      { location := location.join "fields", enumName, named := fields.named }
    let waiting := if fields.named.isEmpty then [] else [(name, pending)]
    modify fun s => { s with imaps := s.imaps ++ waiting }
    pure { fields := some fields.placed, enumName }

mutual

/-- The name of the type that stands where a name is expected. A list or a mapping is registered
under a name derived from `derived`. -/
def reference (location : Location) (derived : String) (spec : Json) : LoadM String := do
  match spec with
  | .null => pure "Null"
  | .str name => pure name
  | .arr items =>
    let name := derived ++ "OneOf"
    let members ← references (fun i => location.join s!"[{i}]") name 0 items
    defineCompanion location name (.union members)
    pure name
  | .obj attrs =>
    let name := derived ++ "Type"
    let type ← mappingType location name attrs
    defineCompanion location name type
    pure name
  | other => fault location (.notAReference other)
termination_by (sizeOf spec, 0)

/-- The names of the types in a list, from position `i` on. -/
def references (place : Nat → Location) (owner : String) (i : Nat) :
    List Json → LoadM (List String)
  | [] => pure []
  | item :: rest => do
    let name ← reference (place i) (owner ++ toString i) item
    let names ← references place owner (i + 1) rest
    pure (name :: names)
termination_by items => (sizeOf items, 0)

/-- The names of the types in a mapping, by their keys. -/
def fieldReferences (location : Location) (owner : String) :
    List (String × Json) → LoadM (List (String × String))
  | [] => pure []
  | (key, spec) :: rest => do
    let name ← reference (location.join key) (owner ++ key) spec
    let fields ← fieldReferences location owner rest
    pure ((key, name) :: fields)
termination_by fields => (sizeOf fields, 0)

/-- The fields of an integer map given as a mapping. -/
def imapReferences (location : Location) (owner : String) (acc : IMapFields) :
    List (String × Json) → LoadM IMapFields
  | [] => pure acc
  | (key, spec) :: rest => do
    let name ← reference (location.join key) (owner ++ key) spec
    let acc ← acc.add location key name
    imapReferences location owner acc rest
termination_by fields => (sizeOf fields, 0)

/-- A list type. -/
def listType (location : Location) (name : String) (attrs : Attributes) : LoadM ListShape := do
  let minLength := (← attrs.size location "minlen").getD 0
  let maxLength ← attrs.size location "maxlen"
  checkOrder (fun a b => decide (a > b)) location (some minLength) maxLength
  match attrs.nested? "allowed" with
  | some ⟨spec, _⟩ =>
    let allowed ← reference (location.join "allowed") name spec
    pure { allowed := some allowed, minLength, maxLength }
  | none => pure { allowed := none, minLength, maxLength }
termination_by (sizeOf attrs, 0)

/-- A tuple type. -/
def tupleType (location : Location) (name : String) (attrs : Attributes) : LoadM TupleShape := do
  let items ← match attrs.nested? "items" with
    | some ⟨.arr items, _⟩ => references (fun i => location.join s!"items[{i}]") name 0 items
    | some _ => fault (location.join "items") .itemsExpected
    | none => pure []
  let enumName ← enumAttribute location name attrs
  pure { items, enumName }
termination_by (sizeOf attrs, 0)
decreasing_by
  rename_i smaller
  rw [Json.arr.sizeOf_spec] at smaller
  exact Prod.Lex.left _ _ (by omega)

/-- A map type. -/
def mapType (location : Location) (name : String) (attrs : Attributes) : LoadM MapShape := do
  match attrs.nested? "fields" with
  | some ⟨.obj fields, _⟩ =>
    let named ← fieldReferences (location.join "fields") name fields
    pure { fields := some (.ofList named) }
  | some _ => fault (location.join "fields") .mappingExpected
  | none => pure { fields := none }
termination_by (sizeOf attrs, 0)
decreasing_by
  rename_i smaller
  rw [Json.obj.sizeOf_spec] at smaller
  exact Prod.Lex.left _ _ (by omega)

/-- An integer map type. -/
def imapType (location : Location) (name : String) (attrs : Attributes) : LoadM IMapShape := do
  let enumName ← enumAttribute location name attrs
  let place := location.join "fields"
  let fields ← match attrs.nested? "fields" with
    | some ⟨.obj fields, _⟩ => some <$> imapReferences place name {} fields
    | some ⟨.arr items, _⟩ =>
      let placed ← numberFields place .empty 0 0 items
      pure (some { placed })
    | some _ => fault place .itemsExpected
    | none => pure none
  imapShape location name enumName fields
termination_by (sizeOf attrs, 0)
decreasing_by
  rename_i smaller
  rw [Json.obj.sizeOf_spec] at smaller
  exact Prod.Lex.left _ _ (by omega)

/-- The type that a mapping of the given kind specifies. -/
def kindType (location : Location) (kind name : String) (attrs : Attributes) : LoadM TypeDef :=
  match kind with
  | "Bitfield" => TypeDef.bitfield <$> bitfieldType location name attrs
  | "List" => TypeDef.list <$> listType location name attrs
  | "Tuple" => TypeDef.tuple <$> tupleType location name attrs
  | "Map" => TypeDef.map <$> mapType location name attrs
  | "IMap" => TypeDef.imap <$> imapType location name attrs
  | kind => plainType location kind name attrs
termination_by (sizeOf attrs, 1)

/-- The type that a mapping specifies. -/
def mappingType (location : Location) (name : String) (attrs : Attributes) : LoadM TypeDef := do
  match ← attrs.string location "type" with
  | some kind =>
    let type ← kindType location kind name attrs
    checkRecognized location kind attrs
    pure type
  | none => fault location .missingType
termination_by (sizeOf attrs, 2)

end

/-- The type that a top-level specification gives. -/
def specifiedType (location : Location) (name : String) (spec : Json) : LoadM TypeDef := do
  match spec with
  | .null => pure (.alias "Null")
  | .str target => pure (.alias target)
  | .arr items =>
    TypeDef.union <$> references (fun i => location.join s!"[{i}]") name 0 items
  | .obj attrs => mappingType location name attrs
  | other => fault location (.notASpecification other)

end DeviceTree.Loading
