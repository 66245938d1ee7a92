import DeviceTree.Json.Printer
import DeviceTree.Location

/-!
# Errors of loading

Loading a document stops at the first error. A `LoadError` is a cause and the location it is about;
`LoadError.message` is its text.
-/

namespace DeviceTree

/-- A value in the document that does not have the form it should. -/
inductive FormatFault where
  | listExpected
  | intExpected
  | sizeExpected (found : Json)
  | attributeExpected (what : String)
  | notASlot (found : Json)
  | notASpecification (found : Json)
  | notAReference (found : Json)
  | notAnEnum (found : Json)
  | duplicateAlias (name : String)
  | emptyRange
  | missingType
  | negativeUnsigned
  | positiveIntExpected
  | positiveNumberExpected
  | unreadablePattern
  | itemsExpected
  | mappingExpected
  | fieldExpected
  | missingConstant
  | unknownKind (kind name : String)
  | duplicateIndex (index : Int)
  | enumRequired
  | notAnAlias
  | notEnum (name : String)
  | noBitSpan (name : String)
  | overlap (offset : Int)
  | outOfWord (offset : Int)
  | unusableName (name : String)
deriving Inhabited

/-- The text of a fault. -/
def FormatFault.message : FormatFault → String
  | listExpected => "Invalid type, list expected"
  | intExpected => "Expected int"
  | sizeExpected found => "Expected non-negative integer, got " ++ found.compact
  | attributeExpected what => "Expected " ++ what
  | notASlot found => "Invalid value specifier: " ++ found.compact
  | notASpecification found => "Invalid type description format: " ++ found.compact
  | notAReference found => "Invalid type reference: " ++ found.compact
  | notAnEnum found => "Invalid enum: " ++ found.compact
  | duplicateAlias name => s!"Duplicate alias '{name}'"
  | emptyRange => "Minimum is greater than maximum"
  | missingType => "Missing 'type'"
  | negativeUnsigned => "Boundaries can't be less than zero for unsigned number"
  | positiveIntExpected => "Expected positive integer"
  | positiveNumberExpected => "Expected positive number"
  | unreadablePattern => "Invalid pattern"
  | itemsExpected => "Invalid format"
  | mappingExpected => "Expected mapping"
  | fieldExpected => "Invalid fields format"
  | missingConstant => "Missing value, use Null type instead"
  | unknownKind kind name => s!"Invalid type '{kind}' of the '{name}' type"
  | duplicateIndex index => s!"Duplicate field index {index}"
  | enumRequired => "Field names require the 'enum' attribute"
  | notAnAlias => "Not an alias of the enum"
  | notEnum name => s!"Type '{name}' is not Enum"
  | noBitSpan name => s!"Type {name} can't be included in bitfield"
  | overlap offset => s!"Field at bit {offset} overlaps the previous field"
  | outOfWord offset => s!"Field at bit {offset} doesn't fit into 64 bits"
  | unusableName name => s!"Invalid name '{name}'"

/-- Why a document cannot be loaded. -/
inductive LoadError.Cause where
  | duplicateType (name : String)
  | unknownType (name : String)
  /-- A type that reaches itself along the chain of names. -/
  | cyclicType (name : String) (chain : List String)
  | duplicateSibling (name : String)
  | propertyMethodConflict (method : String)
  | invalidAccessLevel (value : String)
  | invalidFlag (value : String)
  | reservedMethod (name : String)
  | unsupportedKeys (keys : List String)
  | invalidFormat (fault : FormatFault)
deriving Inhabited

/-- The text of a cause. -/
def LoadError.Cause.message : LoadError.Cause → String
  | duplicateType name => s!"type '{name}' is already defined"
  | unknownType name => s!"unknown type '{name}'"
  | cyclicType name chain =>
    s!"type '{name}' references itself through " ++ String.intercalate " -> " chain
  | duplicateSibling name => s!"duplicate entry '{name}'"
  | propertyMethodConflict method => s!"method '{method}' conflicts with the property declaration"
  | invalidAccessLevel value => s!"invalid access level '{value}'"
  | invalidFlag value => s!"invalid flag '{value}'"
  | reservedMethod name => s!"method name '{name}' is reserved"
  | unsupportedKeys keys => "unsupported keys: " ++ String.intercalate ", " keys
  | invalidFormat fault => fault.message

/-- The first error found in a document. -/
structure LoadError where
  location : Location
  cause : LoadError.Cause
deriving Inhabited

/-- The text of an error: its location and its cause. -/
def LoadError.message (e : LoadError) : String :=
  e.location.toText ++ ": " ++ e.cause.message

/-- The error that something in the document does not have its form. -/
def LoadError.invalid (location : Location) (fault : FormatFault) : LoadError :=
  ⟨location, .invalidFormat fault⟩

end DeviceTree
