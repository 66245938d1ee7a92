import DeviceTree.Document.Basic
import DeviceTree.Loading.Types
import DeviceTree.Tree

/-!
# The nodes of a document

A property gives its node a method to get it, one to set it unless it is read only, and a change
signal if there is one. A node with a description gets a method `desc` that reads it. All types that
nodes name must be registered, and names must be distinct where they would be confused.
-/

namespace DeviceTree.Loading

/-- The methods that every node answers itself. -/
def reservedMethods : List String :=
  ["ls", "dir", "lsmod"]

/-- The name of the change signal that is not given another one. -/
def defaultSignal : String := "chng"

/-- The number of characters of a description beyond which it counts as large. -/
def largeDescription : Nat := 1024

/-- Keys that mean nothing are an error. -/
def refuseKeys (location : Location) (keys : List String) : Except LoadError Unit :=
  if keys.isEmpty then .ok () else .error ⟨location, .unsupportedKeys keys⟩

/-- A name that cannot be part of a path is an error. -/
def checkName (location : Location) (name : String) : Except LoadError Unit :=
  if name.isEmpty || name.toList.any (fun c => c == '/' || c == ':') then
    .error (.invalid location (.unusableName name))
  else .ok ()

/-- The name of a registered type. -/
def typeName (r : Registry) (location : Location) (name : String) : Except LoadError String :=
  if r.contains name then .ok name else .error ⟨location, .unknownType name⟩

/-- The name of the change signal of a property. -/
def changeSignal (location : Location) (readonly : Bool) :
    Option SignalSetting → Except LoadError (Option String)
  | none => .ok (if readonly then none else some defaultSignal)
  | some (.enabled b) => .ok (if b then some defaultSignal else none)
  | some (.named name) => do
    checkName (location.join "signal") name
    .ok (some name)

/-- The property of the type `name`. -/
def propertyOf (r : Registry) (location : Location) (name : String) (spec : NodeSpec) :
    Except LoadError Property := do
  let typeName ← typeName r (location.join "property") name
  let readonly := spec.readonly.getD false
  let signal ← changeSignal location readonly spec.signal
  .ok { typeName, readonly, signal }

/-- The methods of a property in the order they are listed. -/
def propertyMethods (p : Property) : List Method :=
  let getter : Method :=
    { name := "get", param := Registry.getParam, result := p.typeName, access := .read,
      flags := { getter := true }, origin := .property }
  let setter : Method :=
    { name := "set", param := p.typeName, access := .write, flags := { setter := true },
      origin := .property }
  let signal (name : String) : Method :=
    { name, result := p.typeName, access := .read, flags := { signal := true },
      origin := .property }
  getter :: ((if p.readonly then [] else [setter]) ++ (p.signal.map signal).toList)

/-- The methods of a property after those in `acc`. One that has the name of an earlier one, or of a
declared method, is an error. -/
def addPropertyMethods (location : Location) (declared : List String) (acc : List Method) :
    List Method → Except LoadError (List Method)
  | [] => .ok acc
  | m :: rest =>
    if acc.any (·.name == m.name) then
      .error ⟨location.join "signal", .duplicateSibling m.name⟩
    else if declared.contains m.name then
      .error ⟨(location.join "methods").join m.name, .propertyMethodConflict m.name⟩
    else addPropertyMethods location declared (acc ++ [m]) rest

/-- The property of a node and its methods. Without a property, its settings are an error. -/
def nodeProperty (r : Registry) (location : Location) (spec : NodeSpec) :
    Except LoadError (Option Property × List Method) :=
  match spec.property with
  | some name => do
    let p ← propertyOf r location name spec
    let methods ← addPropertyMethods location (spec.methods.map Prod.fst) [] (propertyMethods p)
    .ok (some p, methods)
  | none => do
    refuseKeys location ((if spec.readonly.isSome then ["readonly"] else []) ++
      if spec.signal.isSome then ["signal"] else [])
    .ok (none, [])

/-- The named type, or Null without a name. -/
def typeNameOrNull (r : Registry) (location : Location) :
    Option String → Except LoadError String
  | some name => typeName r location name
  | none => .ok "Null"

/-- The access level, the lowest if it is not given. -/
def accessLevel (location : Location) : Option String → Except LoadError AccessLevel
  | some token =>
    match AccessLevel.ofToken? token with
    | some level => .ok level
    | none => .error ⟨location, .invalidAccessLevel token⟩
  | none => .ok .browse

/-- The set of the named flags. -/
def methodFlags (location : Location) (acc : MethodFlags) :
    List String → Except LoadError MethodFlags
  | [] => .ok acc
  | name :: rest =>
    match MethodFlag.ofName? name with
    | some flag => methodFlags location (acc.insert flag) rest
    | none => .error ⟨location, .invalidFlag name⟩

/-- A declared method. -/
def declaredMethod (r : Registry) (location : Location) (name : String) (spec : MethodSpec) :
    Except LoadError Method := do
  checkName location name
  if reservedMethods.contains name then
    throw ⟨location, .reservedMethod name⟩
  refuseKeys location (spec.extra.map Prod.fst)
  let param ← typeNameOrNull r (location.join "param") spec.param
  let result ← typeNameOrNull r (location.join "result") spec.result
  let access ← accessLevel (location.join "access") spec.access
  let flags ← methodFlags (location.join "flags") {} (spec.flags.getD [])
  .ok { name, param, result, access, flags, description := spec.description.getD "" }

/-- The declared methods after those in `acc`. -/
def addDeclaredMethods (r : Registry) (location : Location) (acc : List Method) :
    List (String × MethodSpec) → Except LoadError (List Method)
  | [] => .ok acc
  | (name, spec) :: rest => do
    if acc.any (·.name == name) then
      throw ⟨location.join name, .duplicateSibling name⟩
    let m ← declaredMethod r (location.join name) name spec
    addDeclaredMethods r location (acc ++ [m]) rest

/-- The method that reads a description. -/
def descriptionMethod (description : String) : Method :=
  { name := "desc", result := "String", origin := .description,
    flags := { getter := true, largeResultHint := description.length > largeDescription } }

/-- The methods with the one that reads the description, if there is a description and the name of
that method is free. -/
def withDescription (description : String) (methods : List Method) : List Method :=
  if description.isEmpty || methods.any (·.name == "desc") then methods
  else methods ++ [descriptionMethod description]

/-- A node without its children. -/
def bareNode (r : Registry) (location : Location) (parent name : String) (spec : NodeSpec) :
    Except LoadError Node := do
  checkName location name
  refuseKeys location (spec.extra.map Prod.fst)
  let (property, methods) ← nodeProperty r location spec
  let methods ← addDeclaredMethods r (location.join "methods") methods spec.methods
  let description := spec.description.getD ""
  .ok { name, path := joinPath parent name, methods := withDescription description methods,
        property, description }

mutual

/-- A node below the node at `parent`. -/
def loadNode (r : Registry) (location : Location) (parent name : String) :
    NodeSpec → Except LoadError Node
  | spec@⟨below, _, _, _, _, _, _⟩ => do
    let n ← bareNode r location parent name spec
    let children ← loadNodes r (location.join "nodes") n.path [] below
    .ok { n with children }

/-- The nodes below the node at `parent` after those in `acc`. -/
def loadNodes (r : Registry) (location : Location) (parent : String) (acc : List Node) :
    List (String × NodeSpec) → Except LoadError (List Node)
  | [] => .ok acc
  | (name, spec) :: rest => do
    if acc.any (·.name == name) then
      throw ⟨location.join name, .duplicateSibling name⟩
    let n ← loadNode r (location.join name) parent name spec
    loadNodes r location parent (acc ++ [n]) rest

end

end DeviceTree.Loading

namespace DeviceTree.Tree

open Loading

/-- The tree that a document describes. -/
def ofDocument (document : Document) : Except LoadError Tree := do
  let registry ← loadTypes document.types
  refuseKeys .document (document.extra.map Prod.fst)
  let children ← loadNodes registry ⟨["nodes"]⟩ "" [] document.nodes
  .ok { registry, root := { children } }

end DeviceTree.Tree
