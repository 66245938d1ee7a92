import DeviceTree.AccessLevel
import DeviceTree.Json.Printer

/-!
# Methods

A method of a node: the names of the types of its parameter and its result, the level it requires,
and its flags. A `Descriptor` is what a listing of methods shows of it.
-/

namespace DeviceTree

/-- A mark of a method. -/
inductive MethodFlag where
  /-- The method is a signal and cannot be called. -/
  | signal
  /-- The method reads a property. -/
  | getter
  /-- The method writes a property. -/
  | setter
  /-- The result can be large. -/
  | largeResultHint
deriving Repr, DecidableEq, Inhabited

namespace MethodFlag

/-- All flags in the order of their bits. -/
def all : List MethodFlag :=
  [signal, getter, setter, largeResultHint]

/-- The name of a flag. -/
def name : MethodFlag → String
  | signal => "signal"
  | getter => "getter"
  | setter => "setter"
  | largeResultHint => "large_result_hint"

/-- The number of a flag. -/
def bit : MethodFlag → Nat
  | signal => 1
  | getter => 2
  | setter => 4
  | largeResultHint => 8

/-- The flag with the given name; ASCII letters may have any case. -/
def ofName? (text : String) : Option MethodFlag :=
  all.find? fun flag => flag.name.toList == text.toList.map Char.toLower

/-- What is said of a name that no flag has. -/
def invalid (text : String) : String :=
  s!"invalid method flag '{text}'"

end MethodFlag

/-- A set of flags. -/
structure MethodFlags where
  signal : Bool := false
  getter : Bool := false
  setter : Bool := false
  largeResultHint : Bool := false
deriving Repr, DecidableEq, Inhabited

namespace MethodFlags

/-- Whether a flag is in the set. -/
def has (flags : MethodFlags) : MethodFlag → Bool
  | .signal => flags.signal
  | .getter => flags.getter
  | .setter => flags.setter
  | .largeResultHint => flags.largeResultHint

/-- The set with one more flag. -/
def insert (flags : MethodFlags) : MethodFlag → MethodFlags
  | .signal => { flags with signal := true }
  | .getter => { flags with getter := true }
  | .setter => { flags with setter := true }
  | .largeResultHint => { flags with largeResultHint := true }

/-- The set of the listed flags. -/
def ofList (flags : List MethodFlag) : MethodFlags :=
  flags.foldl insert {}

/-- The flags in the order of their bits. -/
def toList (flags : MethodFlags) : List MethodFlag :=
  MethodFlag.all.filter flags.has

/-- Whether all flags of the second set are in the first. -/
def contains (flags other : MethodFlags) : Bool :=
  other.toList.all flags.has

/-- The flags of both sets. -/
def union (a b : MethodFlags) : MethodFlags :=
  b.toList.foldl insert a

/-- The set as a number. -/
def bits (flags : MethodFlags) : Nat :=
  flags.toList.foldr (fun flag word => flag.bit ||| word) 0

/-- The names of the flags in the order of their bits. -/
def names (flags : MethodFlags) : List String :=
  flags.toList.map MethodFlag.name

/-- The text of a set of flags. -/
def toText (flags : MethodFlags) : String :=
  String.intercalate "|" flags.names

theorem has_insert (flags : MethodFlags) (a b : MethodFlag) :
    (flags.insert a).has b = (decide (a = b) || flags.has b) := by
  cases a <;> cases b <;> simp [insert, has]

end MethodFlags

/-- Why a node has a method. -/
inductive MethodOrigin where
  /-- The document lists it. -/
  | declared
  /-- It belongs to the property of the node. -/
  | property
  /-- It reads the description of the node. -/
  | description
deriving Repr, DecidableEq, Inhabited

/-- The name of an origin. -/
def MethodOrigin.name : MethodOrigin → String
  | declared => "declared"
  | property => "property"
  | description => "description"

/-- A method of a node. -/
structure Method where
  name : String
  /-- The name of the type of the parameter. -/
  param : String := "Null"
  /-- The name of the type of the result. -/
  result : String := "Null"
  /-- The level that a caller must hold. -/
  access : AccessLevel := .browse
  flags : MethodFlags := {}
  description : String := ""
  origin : MethodOrigin := .declared
deriving Repr, DecidableEq, Inhabited

/-- An entry of a listing of methods. -/
structure Descriptor where
  name : String
  flags : MethodFlags := {}
  param : String
  result : String
  access : AccessLevel := .browse
  description : String := ""
deriving Repr, DecidableEq, Inhabited

/-- What a listing shows of a method. -/
def Method.descriptor (m : Method) : Descriptor :=
  { name := m.name, flags := m.flags, param := m.param, result := m.result, access := m.access,
    description := m.description }

namespace Descriptor

/-- The text of a descriptor. -/
def toText (d : Descriptor) : String :=
  let signature := s!"{d.name}({d.param}) -> {d.result} [{d.access.token}]"
  if d.flags.toList.isEmpty then signature else signature ++ " " ++ d.flags.toText

/-- The plain data of a descriptor; an empty description is left out. -/
def toJson (d : Descriptor) : Json :=
  .obj ([("name", .str d.name), ("flags", .arr (d.flags.names.map Json.str)),
    ("param", .str d.param), ("result", .str d.result), ("access", .str d.access.token)] ++
    if d.description.isEmpty then [] else [("description", .str d.description)])

end Descriptor

end DeviceTree
