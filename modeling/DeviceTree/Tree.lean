import DeviceTree.Node
import DeviceTree.Registry.Basic
import DeviceTree.Text.Split

/-!
# Device trees

A `Tree` is a root node and the types that its methods and properties name. A path leads from the
root to a node by the names of children.
-/

namespace DeviceTree

/-- A tree of nodes and its types. -/
structure Tree where
  registry : Registry
  root : Node
deriving BEq, Inhabited

/-- Why nothing is found at a path. -/
inductive ResolutionError where
  | nodeNotFound (path segment : String)
  | methodNotFound (path method : String)
deriving Repr, DecidableEq

/-- The text of a resolution error. -/
def ResolutionError.message : ResolutionError → String
  | nodeNotFound path segment => s!"node not found: '{path}' (missing '{segment}')"
  | methodNotFound path method => s!"method '{method}' not found on '{path}'"

/-- The methods that every node has. -/
def standardMethods : List Descriptor :=
  [{ name := "dir", param := "Any", result := "List" },
    { name := "ls", param := "OptionalString", result := "List" }]

/-- The node reached from `n` by the names of children; the first one missing is the error. -/
def Node.descend (n : Node) : List String → Except String Node
  | [] => .ok n
  | segment :: rest =>
    match n.child? segment with
    | some child => child.descend rest
    | none => .error segment

namespace Tree

/-- All nodes depth first, the root first. -/
def nodes (t : Tree) : List Node :=
  t.root.walk

/-- The node at a path; the empty path leads to the root. -/
def resolveNode (t : Tree) (path : String) : Except ResolutionError Node :=
  if path.isEmpty then .ok t.root
  else match t.root.descend (Text.splitOn '/' path) with
    | .ok n => .ok n
    | .error segment => .error (.nodeNotFound path segment)

/-- The node at a path and its method with the given name. -/
def resolveMethod (t : Tree) (path method : String) : Except ResolutionError (Node × Method) := do
  let n ← t.resolveNode path
  match n.method? method with
  | some m => .ok (n, m)
  | none => .error (.methodNotFound path method)

/-- The names of the children of the node at a path. -/
def ls (t : Tree) (path : String) : Except ResolutionError (List String) := do
  let n ← t.resolveNode path
  .ok (n.children.map (·.name))

/-- The descriptors of the methods of the node at a path, the standard ones first. -/
def dir (t : Tree) (path : String) : Except ResolutionError (List Descriptor) := do
  let n ← t.resolveNode path
  .ok (standardMethods ++ n.methods.map (·.descriptor))

end Tree

end DeviceTree
