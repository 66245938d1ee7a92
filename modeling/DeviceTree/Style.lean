import DeviceTree.Registry.Basic

/-!
# Style of type definitions

Constructs that are valid but better written in another way: unions without members, unions with
one, and types that are equal to another. A `StyleCheck` can be disabled by its name.
-/

namespace DeviceTree

/-- A check of style. -/
inductive StyleCheck where
  /-- A union without members, which no value can match. -/
  | emptyUnion
  /-- A union with a single member. -/
  | aliasInsteadOfUnion
  /-- A type equal to another one. -/
  | duplicateType
deriving Repr, DecidableEq, Inhabited

namespace StyleCheck

/-- All checks. -/
def all : List StyleCheck :=
  [emptyUnion, aliasInsteadOfUnion, duplicateType]

/-- The name of a check. -/
def name : StyleCheck → String
  | emptyUnion => "empty-union"
  | aliasInsteadOfUnion => "alias-instead-of-union"
  | duplicateType => "duplicate-type"

/-- The check with the given name. -/
def ofName? (text : String) : Option StyleCheck :=
  all.find? (·.name == text)

/-- What is said of a name that no check has. -/
def unknown (text : String) : String :=
  s!"unknown check '{text}'"

end StyleCheck

/-- A finding of a check. -/
structure Issue where
  check : StyleCheck
  message : String
deriving Repr, DecidableEq

/-- The text of an issue, with the name of its check. -/
def Issue.toText (i : Issue) : String :=
  i.message ++ " [" ++ i.check.name ++ "]"

namespace Style

/-- The issue of a union without members. -/
def emptyUnion (name : String) : Issue :=
  ⟨.emptyUnion, s!"Union '{name}' has no member, no value can match it"⟩

/-- The issue of a union with a single member. -/
def singleMember (name : String) : Issue :=
  ⟨.aliasInsteadOfUnion, s!"Union '{name}' has only one member, use an alias instead"⟩

/-- The issue of a type that is equal to a later one. -/
def equalTypes (name other : String) : Issue :=
  ⟨.duplicateType, s!"Type '{name}' is the same as '{other}', use an alias instead"⟩

/-- The issue of a union as such, if its check is enabled. -/
def unionIssue? (enabled : StyleCheck → Bool) (name : String) (type : TypeDef) : Option Issue :=
  match type with
  | .union [] => if enabled .emptyUnion then some (emptyUnion name) else none
  | .union [_] => if enabled .aliasInsteadOfUnion then some (singleMember name) else none
  | _ => none

/-- The issues of a type and the later ones that are equal to it. Aliases may be equal. -/
def duplicatesOf (name : String) (type : TypeDef) (later : List (String × TypeDef)) : List Issue :=
  match type with
  | .alias _ => []
  | _ => (later.filter fun (_, other) => type == other).map fun (other, _) => equalTypes name other

/-- The issues of all pairs of equal types. -/
def duplicates : List (String × TypeDef) → List Issue
  | [] => []
  | (name, type) :: later => duplicatesOf name type later ++ duplicates later

end Style

/-- The issues of the custom types under the checks that are not disabled: those of unions first,
then those of pairs of types. -/
def Registry.issues (r : Registry) (disabled : List StyleCheck) : List Issue :=
  let enabled (check : StyleCheck) := !disabled.contains check
  r.customTypes.filterMap (fun (name, type) => Style.unionIssue? enabled name type) ++
    if enabled .duplicateType then Style.duplicates r.customTypes else []

end DeviceTree
