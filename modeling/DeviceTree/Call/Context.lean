import DeviceTree.Signal

/-!
# Contexts of calls

A handler declares the fields of the call that it reads. Its context gives those fields and no
others.
-/

namespace DeviceTree

/-- A call as it is received. -/
structure Request where
  /-- The path of the node, empty for the root. -/
  path : String
  method : String
  param : Value := .null
  /-- The level that the caller holds. -/
  access : AccessLevel := .browse
  userId : Option String := none

/-- A field of the context of a call. -/
inductive ContextField where
  | path
  /-- The last name on the path. -/
  | nodeName
  | node
  | methodName
  /-- The path and the name of the method with a colon between them. -/
  | methodPath
  | method
  | accessLevel
  | param
  /-- The signals of the node. -/
  | signals
  | userId
deriving Repr, DecidableEq, Inhabited

namespace ContextField

/-- All fields. -/
def all : List ContextField :=
  [path, nodeName, node, methodName, methodPath, method, accessLevel, param, signals, userId]

/-- The name of a field. -/
def name : ContextField → String
  | path => "path"
  | nodeName => "node_name"
  | node => "node"
  | methodName => "method_name"
  | methodPath => "method_path"
  | method => "method"
  | accessLevel => "access_level"
  | param => "param"
  | signals => "signals"
  | userId => "user_id"

/-- The field with the given name. -/
def ofName? (text : String) : Option ContextField :=
  all.find? (·.name == text)

/-- The bit of a field in a set of fields. -/
def bit (field : ContextField) : UInt16 :=
  1 <<< UInt16.ofNat field.ctorIdx

theorem mem_all (field : ContextField) : field ∈ all := by
  cases field <;> decide

theorem ofName?_name (field : ContextField) : ofName? field.name = some field := by
  cases field <;> decide

theorem ofName?_eq_some_iff {text : String} {field : ContextField} :
    ofName? text = some field ↔ field.name = text := by
  refine ⟨fun found => by simpa using List.find?_some found, ?_⟩
  rintro rfl
  exact ofName?_name field

theorem name_injective {field field' : ContextField} (same : field.name = field'.name) :
    field = field' :=
  Option.some.inj ((ofName?_name field).symm.trans (ofName?_eq_some_iff.2 same.symm))

/-- Different fields have no bit in common. -/
theorem bit_and_bit (field field' : ContextField) :
    field.bit &&& field'.bit ≠ 0 ↔ field = field' := by
  cases field <;> cases field' <;> decide

end ContextField

/-- A set of fields, with one bit for each. -/
structure ContextFields where
  bits : UInt16 := 0
deriving Repr, DecidableEq, Inhabited

namespace ContextFields

/-- The set with one more field. -/
def insert (s : ContextFields) (field : ContextField) : ContextFields :=
  ⟨s.bits ||| field.bit⟩

/-- Whether a field is in the set. -/
def contains (s : ContextFields) (field : ContextField) : Bool :=
  s.bits &&& field.bit ≠ 0

/-- The set of the listed fields. -/
def ofList (fields : List ContextField) : ContextFields :=
  fields.foldl insert {}

/-- The fields of the set, in the order of all fields. -/
def toList (s : ContextFields) : List ContextField :=
  ContextField.all.filter s.contains

/-- What a function gives of the fields of the set, in the order of all fields. -/
def map {α : Type} (s : ContextFields) (f : ContextField → α) : List α :=
  s.toList.map f

@[simp] theorem contains_empty (field : ContextField) : contains {} field = false := by
  cases field <;> decide

theorem contains_insert {s : ContextFields} {field field' : ContextField} :
    (s.insert field).contains field' ↔ s.contains field' ∨ field = field' := by
  have split : field'.bit &&& (s.bits ||| field.bit) =
      field'.bit &&& s.bits ||| field'.bit &&& field.bit :=
    UInt16.toBitVec_inj.1 BitVec.and_or_distrib_left
  simp only [contains, insert, decide_eq_true_eq, ← ContextField.bit_and_bit field field',
    UInt16.and_comm _ field'.bit, split, ne_eq, UInt16.or_eq_zero_iff,
    Decidable.not_and_iff_not_or_not]

theorem contains_foldl_insert {fields : List ContextField} {s : ContextFields}
    {field : ContextField} :
    (fields.foldl insert s).contains field ↔ s.contains field ∨ field ∈ fields := by
  induction fields generalizing s with
  | nil => simp
  | cons first rest ih =>
    rw [List.foldl_cons, ih, contains_insert, List.mem_cons, or_assoc, eq_comm (a := first)]

/-- The set of listed fields has these and no others. -/
theorem contains_ofList {fields : List ContextField} {field : ContextField} :
    (ofList fields).contains field ↔ field ∈ fields := by
  simp [ofList, contains_foldl_insert]

theorem mem_toList {s : ContextFields} {field : ContextField} :
    field ∈ s.toList ↔ s.contains field := by
  simp [toList, ContextField.mem_all]

end ContextFields

/-- What a handler knows of a call. -/
structure CallContext (σ : Type) where
  tree : Tree
  /-- The fields that the handler has declared. -/
  fields : ContextFields
  request : Request
  /-- The parameter, unless it is not declared or has been taken. -/
  param? : Option Value
  emitter : Emitter σ

namespace CallContext

variable {σ : Type}

/-- The context of a request for a handler with the given fields. -/
def ofRequest (tree : Tree) (fields : ContextFields) (request : Request)
    (emitter : Emitter σ) : CallContext σ :=
  { tree, fields, request, emitter,
    param? := if fields.contains .param then some request.param else none }

/-- A value that is given only when its field is declared. -/
def declared {α : Type} (c : CallContext σ) (field : ContextField) (value : Option α) : Option α :=
  if c.fields.contains field then value else none

/-- The types of the tree. -/
def registry (c : CallContext σ) : Registry :=
  c.tree.registry

/-- The path of the node. -/
def path? (c : CallContext σ) : Option String :=
  c.declared .path (some c.request.path)

/-- The last name on the path. -/
def nodeName? (c : CallContext σ) : Option String :=
  c.declared .nodeName (some ((Text.splitOn '/' c.request.path).getLast?.getD ""))

/-- The node. -/
def node? (c : CallContext σ) : Option Node :=
  c.declared .node (c.tree.resolveNode c.request.path).toOption

/-- The name of the method. -/
def methodName? (c : CallContext σ) : Option String :=
  c.declared .methodName (some c.request.method)

/-- The path and the name of the method. -/
def methodPath? (c : CallContext σ) : Option String :=
  c.declared .methodPath (some (c.request.path ++ ":" ++ c.request.method))

/-- The method. -/
def method? (c : CallContext σ) : Option Method :=
  c.declared .method
    ((c.tree.resolveMethod c.request.path c.request.method).toOption.map Prod.snd)

/-- The level that the caller holds. -/
def accessLevel? (c : CallContext σ) : Option AccessLevel :=
  c.declared .accessLevel (some c.request.access)

/-- The parameter, and the context without it. -/
def takeParam (c : CallContext σ) : Option Value × CallContext σ :=
  (c.param?, { c with param? := none })

/-- The signals of the node. -/
def signals? (c : CallContext σ) : Option (Signals σ) :=
  c.declared .signals (some ⟨c.tree, c.request.path, c.emitter⟩)

/-- The user who calls. -/
def userId? (c : CallContext σ) : Option String :=
  c.declared .userId c.request.userId

end CallContext

end DeviceTree
