import DeviceTree.Method

/-!
# Nodes

A node has a name, a path, methods, and children in order of declaration; the root has no name. The
path of a node is made of the names on the way to it.
-/

namespace DeviceTree

/-- The property of a node. -/
structure Property where
  typeName : String
  /-- There is no method that sets the property. -/
  readonly : Bool
  /-- The name of the signal sent when the property changes, if there is one. -/
  signal : Option String
deriving Repr, DecidableEq, Inhabited

/-- A named point of the tree. -/
structure Node where
  /-- Empty for the root. -/
  name : String := ""
  /-- The names from the root on, separated by slashes. -/
  path : String := ""
  children : List Node := []
  /-- Those of the property come before those declared. -/
  methods : List Method := []
  property : Option Property := none
  description : String := ""
deriving BEq, Inhabited

/-- The path of the node `name` below the node at `parent`. -/
def joinPath (parent name : String) : String :=
  if parent.isEmpty then name else parent ++ "/" ++ name

namespace Node

/-- Whether the node is the root. -/
def isRoot (n : Node) : Bool :=
  n.path.isEmpty

/-- The child with the given name. -/
def child? (n : Node) (name : String) : Option Node :=
  n.children.find? (·.name == name)

/-- The method with the given name. -/
def method? (n : Node) (name : String) : Option Method :=
  n.methods.find? (·.name == name)

/-- The name of the signal sent when the property changes. -/
def changeSignal? (n : Node) : Option String :=
  n.property.bind (·.signal)

theorem sizeOf_append (a b : List Node) : sizeOf (a ++ b) + 1 = sizeOf a + sizeOf b := by
  induction a with
  | nil => simp [Nat.add_comm]
  | cons n rest ih =>
    simp only [List.cons_append, List.cons.sizeOf_spec]
    omega

theorem sizeOf_children_lt (n : Node) : sizeOf n.children < sizeOf n := by
  cases n
  simp only [mk.sizeOf_spec]
  omega

/-- The nodes that come off a stack, where each leaves its children on the top. -/
def walkAll : (stack : List Node) → List Node
  | [] => []
  | n :: stack => n :: walkAll (n.children ++ stack)
termination_by stack => sizeOf stack
decreasing_by
  have less := sizeOf_children_lt n
  have sum := sizeOf_append n.children stack
  simp only [List.cons.sizeOf_spec]
  omega

/-- The node and all nodes below it, depth first. -/
def walk (n : Node) : List Node :=
  walkAll [n]

theorem walkAll_append (a b : List Node) : walkAll (a ++ b) = walkAll a ++ walkAll b := by
  fun_induction walkAll a with
  | case1 => rfl
  | case2 n stack ih =>
    rw [List.append_assoc] at ih
    rw [List.cons_append, walkAll, ih, List.cons_append]

theorem walk_eq (n : Node) : n.walk = n :: walkAll n.children := by
  rw [walk, walkAll, List.append_nil]

/-- All that is below a node comes before what is beside it. -/
theorem walkAll_cons (n : Node) (rest : List Node) :
    walkAll (n :: rest) = n.walk ++ walkAll rest :=
  walkAll_append [n] rest

theorem mem_walkAll {nodes : List Node} {m : Node} :
    m ∈ walkAll nodes ↔ ∃ n ∈ nodes, m ∈ n.walk := by
  induction nodes with
  | nil => simp [walkAll]
  | cons n rest ih => simp [walkAll_cons, ih]

end Node

end DeviceTree
