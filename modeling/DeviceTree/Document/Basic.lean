import DeviceTree.Document.Outline

/-!
# Tree documents

A `Document` has a section of type specifications, which stay plain data until they are interpreted,
and a section of nodes. Both sections, and the nodes and methods of every node, keep their order and
repeated names, so that duplicates can be reported. Keys that mean nothing are kept under `extra`.

`Document.ofOutline?` gives the outline its shape. It fails when a known key has a value of the
wrong kind or stands twice in one mapping.
-/

namespace DeviceTree

/-- The change signal asked for by a property. -/
inductive SignalSetting where
  /-- The default signal, or none. -/
  | enabled (b : Bool)
  | named (name : String)
deriving Repr, DecidableEq

/-- A method as specified. -/
structure MethodSpec where
  param : Option String := none
  result : Option String := none
  access : Option String := none
  flags : Option (List String) := none
  description : Option String := none
  extra : List (String × Json) := []
deriving Inhabited

/-- A node as specified. -/
structure NodeSpec where
  nodes : List (String × NodeSpec) := []
  methods : List (String × MethodSpec) := []
  /-- The name of the type that makes the node a property. -/
  property : Option String := none
  readonly : Option Bool := none
  signal : Option SignalSetting := none
  description : Option String := none
  extra : List (String × Json) := []
deriving Inhabited

/-- A document whose sections are told apart. -/
structure Document where
  types : List (String × Json) := []
  nodes : List (String × NodeSpec) := []
  extra : List (String × Json) := []
deriving Inhabited

namespace Document

/-- Whether one of the known keys stands twice in a mapping. -/
def repeatsKey (known : List String) (entries : List (Outline.Key × Outline)) : Bool :=
  known.any fun key => entries.countP (·.1.name == key) > 1

/-- The keys a method may have. -/
def methodKeys : List String :=
  ["param", "result", "access", "flags", "description"]

/-- The keys a node may have. -/
def nodeKeys : List String :=
  ["nodes", "methods", "property", "readonly", "signal", "description"]

/-- The sections of a document. -/
def sections : List String :=
  ["types", "nodes"]

/-- The signal setting of a property: a truth value or a name. -/
def readSignal? : Outline → Option (Option SignalSetting)
  | .scalar _ (some .null) => some none
  | .scalar _ (some (.bool b)) => some (some (.enabled b))
  | .scalar _ (some (.str name)) => some (some (.named name))
  | _ => none

/-- A method with one more entry. -/
def readMethodField? (spec : MethodSpec) (key : Outline.Key) (value : Outline) :
    Option MethodSpec :=
  match key.name with
  | "param" => value.optionalText?.map fun v => { spec with param := v }
  | "result" => value.optionalText?.map fun v => { spec with result := v }
  | "access" => value.optionalText?.map fun v => { spec with access := v }
  | "flags" => value.optionalTexts?.map fun v => { spec with flags := v }
  | "description" => value.optionalText?.map fun v => { spec with description := v }
  | name => (value.plain? true).map fun v => { spec with extra := putEntry name v spec.extra }

/-- A method; null stands for a method without entries. -/
def readMethod? : Outline → Option MethodSpec
  | .scalar _ (some .null) => some {}
  | .mapping entries =>
    if repeatsKey methodKeys entries then none
    else entries.foldlM (fun spec (key, value) => readMethodField? spec key value) {}
  | _ => none

/-- The methods of a node in order, repeated names kept. -/
def readMethods? : Outline → Option (List (String × MethodSpec))
  | .scalar _ (some .null) => some []
  | .mapping entries =>
    entries.mapM fun (key, value) => (readMethod? value).map fun spec => (key.name, spec)
  | _ => none

/-- A node with one more entry, other than its children. -/
def readNodeField? (spec : NodeSpec) (key : Outline.Key) (value : Outline) : Option NodeSpec :=
  match key.name with
  | "methods" => (readMethods? value).map fun v => { spec with methods := v }
  | "property" => value.optionalText?.map fun v => { spec with property := v }
  | "readonly" => value.optionalBool?.map fun v => { spec with readonly := v }
  | "signal" => (readSignal? value).map fun v => { spec with signal := v }
  | "description" => value.optionalText?.map fun v => { spec with description := v }
  | name => (value.plain? true).map fun v => { spec with extra := putEntry name v spec.extra }

mutual

/-- A node; null stands for a node without entries. -/
def readNode? : Outline → Option NodeSpec
  | .scalar _ (some .null) => some {}
  | .mapping entries => if repeatsKey nodeKeys entries then none else readNodeFields? {} entries
  | _ => none

/-- A node with more entries. -/
def readNodeFields? (spec : NodeSpec) : List (Outline.Key × Outline) → Option NodeSpec
  | [] => some spec
  | (key, value) :: rest =>
    if key.name == "nodes" then do
      let children ← readNodes? value
      readNodeFields? { spec with nodes := children } rest
    else do
      let spec ← readNodeField? spec key value
      readNodeFields? spec rest

/-- The children of a node in order, repeated names kept. -/
def readNodes? : Outline → Option (List (String × NodeSpec))
  | .scalar _ (some .null) => some []
  | .mapping entries => readNodeEntries? entries
  | _ => none

/-- The nodes of all entries. -/
def readNodeEntries? : List (Outline.Key × Outline) → Option (List (String × NodeSpec))
  | [] => some []
  | (key, value) :: rest => do
    let spec ← readNode? value
    (readNodeEntries? rest).map ((key.name, spec) :: ·)

end

/-- The type specifications in order, repeated names kept. -/
def readTypes? : Outline → Option (List (String × Json))
  | .scalar _ (some .null) => some []
  | .mapping entries =>
    entries.mapM fun (key, value) => (value.plain? false).map fun spec => (key.name, spec)
  | _ => none

/-- A document with one more entry. -/
def readSection? (document : Document) (key : Outline.Key) (value : Outline) : Option Document :=
  match key.name with
  | "types" => (readTypes? value).map fun v => { document with types := v }
  | "nodes" => (readNodes? value).map fun v => { document with nodes := v }
  | name => (value.plain? true).map fun v =>
      { document with extra := putEntry name v document.extra }

/-- The document with the given outline, which must be a mapping. -/
def ofOutline? : Outline → Option Document
  | .mapping entries =>
    if repeatsKey sections entries then none
    else entries.foldlM (fun document (key, value) => readSection? document key value) {}
  | _ => none

end Document

end DeviceTree
