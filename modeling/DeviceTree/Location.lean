/-!
# Locations in a document

A `Location` is the list of keys that lead to an entry of a document. It is written with dots
between the keys.
-/

namespace DeviceTree

/-- The keys that lead to an entry of a document. -/
structure Location where
  segments : List String := []
deriving BEq, DecidableEq, Inhabited

namespace Location

/-- The document as a whole. -/
def document : Location := {}

/-- One step further into the document. -/
def join (l : Location) (segment : String) : Location :=
  ⟨l.segments ++ [segment]⟩

/-- The entry `name` of the types section. -/
def ofType (name : String) : Location :=
  ⟨["types", name]⟩

/-- The text of a location. -/
def toText (l : Location) : String :=
  if l.segments.isEmpty then "document" else String.intercalate "." l.segments

instance : ToString Location := ⟨toText⟩

end Location

end DeviceTree
