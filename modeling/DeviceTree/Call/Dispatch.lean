import DeviceTree.Call.Handler

/-!
# Dispatch of calls

A `Device` is a tree with the handlers of its methods. A call passes the stages of `CallStage` in
order: the access of the caller is checked, the handler is found, the parameter is checked and
bound, the handler runs, and its result is checked. The hooks of the device run before the parameter
is checked and after the handler has run. A call that fails stops at the stage it has reached.

The methods `ls` and `dir` of every node are answered from the tree.
-/

namespace DeviceTree

/-- Why a call fails. -/
inductive DispatchError where
  | resolution (cause : ResolutionError)
  | accessDenied (path method : String) (required granted : AccessLevel)
  /-- The method is a signal. -/
  | notCallable (path method : String)
  | notImplemented (path method handler : String)
  | invalidParam (cause : ValidationError)
  /-- A hook has refused the call. -/
  | rejected (cause : HandlerError)
  | handler (cause : HandlerError)
  /-- The handler has given a result of another type than declared. -/
  | resultMismatch (cause : ValidationError)

namespace DispatchError

/-- The text of a dispatch error. -/
def message : DispatchError → String
  | resolution cause => cause.message
  | accessDenied path method required granted =>
    s!"access to {path}:{method} requires '{required.token}', granted '{granted.token}'"
  | notCallable path method => s!"{path}:{method} is a signal and can't be called"
  | notImplemented path method name =>
    s!"{path}:{method} is not implemented (no handler '{name}')"
  | invalidParam cause => "invalid parameter: " ++ cause.message
  | rejected cause => "call rejected: " ++ cause.message
  | handler cause => "handler failed: " ++ cause.message
  | resultMismatch cause => "handler returned a result of the wrong type: " ++ cause.message

/-- Whether the error is the fault of the handler and not of the caller. -/
def isHandlerDefect : DispatchError → Bool
  | resultMismatch _ => true
  | _ => false

end DispatchError

/-- How far a call has come. -/
inductive CallStage where
  | received
  | accessChecked
  | handlerResolved
  | argsBound
  | invoked
  | resultValidated
  | completed
deriving Repr, DecidableEq

namespace CallStage

/-- All stages in order. -/
def all : List CallStage :=
  [received, accessChecked, handlerResolved, argsBound, invoked, resultValidated, completed]

/-- The name of a stage. -/
def name : CallStage → String
  | received => "received"
  | accessChecked => "access_checked"
  | handlerResolved => "handler_resolved"
  | argsBound => "args_bound"
  | invoked => "invoked"
  | resultValidated => "result_validated"
  | completed => "completed"

end CallStage

/-- What is done around the work of handlers. -/
structure Hooks (σ : Type) where
  /-- Sees a call that has passed the access check. -/
  preCall : Request → Method → HandlerM σ Unit := fun _ _ => pure ()
  /-- Sees the result of a call and gives the one that is checked and returned. -/
  postCall : Request → Method → Value → HandlerM σ Value := fun _ _ result => pure result

/-- A tree and what implements its methods. -/
structure Device (σ : Type) where
  tree : Tree
  handlers : Handlers σ := .empty
  /-- Answers methods without a handler of their own. -/
  defaultHandler : Option (RegisteredHandler σ) := none
  hooks : Hooks σ := {}
  emitter : Emitter σ := Emitter.silent

/-- The outcome of a call and the stages it has entered. -/
structure CallReport where
  answer : Except DispatchError Value
  stages : List CallStage

/-! ## Methods answered from the tree -/

/-- The children of the node at a path, or whether there is a child with the name given as
parameter. -/
def Tree.answerLs (t : Tree) (path : String) (param : Value) : Except DispatchError Value := do
  let children ← (t.ls path).mapError .resolution
  match param with
  | .string name => .ok (.bool (children.contains name))
  | .null => .ok (.list (children.map Value.string))
  | other => .error (.invalidParam ⟨[], "OptionalString", .kind "String" other.kind⟩)

/-- A descriptor as a value. -/
def Descriptor.toValue (d : Descriptor) : Value :=
  .map ([("name", .string d.name), ("flags", .uint (UInt64.ofNat d.flags.bits)),
    ("param", .string d.param), ("result", .string d.result), ("access", .string d.access.token)] ++
    if d.description.isEmpty then [] else [("description", .string d.description)])

/-- The descriptors of the methods of the node at a path, or that of the method with the name given
as parameter. -/
def Tree.answerDir (t : Tree) (path : String) (param : Value) : Except DispatchError Value := do
  let descriptors ← (t.dir path).mapError .resolution
  match param with
  | .string name =>
    match descriptors.find? (·.name == name) with
    | some d => .ok d.toValue
    | none => .ok .null
  | _ => .ok (.list (descriptors.map Descriptor.toValue))

/-! ## Methods of the tree -/

/-- The method of a request, when the caller holds the level it requires. -/
def Tree.accessibleMethod (t : Tree) (q : Request) : Except DispatchError (Node × Method) := do
  let (n, m) ← (t.resolveMethod q.path q.method).mapError .resolution
  if q.access.grants m.access then .ok (n, m)
  else .error (.accessDenied q.path q.method m.access q.access)

/-- What answers a call. -/
inductive Implementation (σ : Type) where
  | handler (h : RegisteredHandler σ)
  /-- The description of the node. -/
  | description (text : String)

/-- A result as it is reported: integers of unsigned types are unsigned. -/
def Registry.asDeclared (r : Registry) (typeName : String) (v : Value) : Value :=
  match r.resolve typeName, v with
  | .ok (.int range), .int n =>
    if range.unsigned && 0 ≤ n.toInt then .uint (UInt64.ofNat n.toInt.toNat) else .int n
  | _, v => v

/-- Computations that fail with a dispatch error and keep the stages they have entered. -/
abbrev DispatchM (σ : Type) := ExceptT DispatchError (StateT (List CallStage) (StateM σ))

namespace DispatchM

variable {σ : Type}

/-- Enters a stage. -/
def enter (stage : CallStage) : DispatchM σ Unit :=
  modify (· ++ [stage])

/-- A pure outcome. -/
def settle {α : Type} (outcome : Except DispatchError α) : DispatchM σ α :=
  ExceptT.mk (pure outcome)

/-- Runs the code of a handler or a hook; its failure becomes that of the call. -/
def perform {α : Type} (wrap : HandlerError → DispatchError) (code : HandlerM σ α) :
    DispatchM σ α :=
  ExceptT.mk fun stages s =>
    let (outcome, s) := (ExceptT.run code).run s
    ((outcome.mapError wrap, stages), s)

end DispatchM

namespace Device

variable {σ : Type}

open DispatchM

/-- The device with another default handler. -/
def setDefaultHandler (d : Device σ) (parameters : List String) (run : Handler σ) :
    Except RegistrationError (Device σ) := do
  let handler ← RegisteredHandler.declare "default" parameters run
  .ok { d with defaultHandler := some handler }

/-- The signals of the node at a path. -/
def signals (d : Device σ) (path : String) : Except ResolutionError (Signals σ) := do
  let _ ← d.tree.resolveNode path
  .ok ⟨d.tree, path, d.emitter⟩

/-- What answers a call of a method: its own handler, or the description for the method that reads
it, or the default handler. -/
def implementation (d : Device σ) (q : Request) (n : Node) (m : Method) :
    Except DispatchError (Implementation σ) :=
  let name := handlerName q.path q.method
  if m.flags.signal then .error (.notCallable q.path q.method)
  else match d.handlers.get? name with
    | some h => .ok (.handler h)
    | none =>
      if m.origin = .description then
        .ok (.description (String.ofList (Text.trim n.description.toList)))
      else match d.defaultHandler with
        | some h => .ok (.handler h)
        | none => .error (.notImplemented q.path q.method name)

/-- The result of what answers a call. -/
def invoke (d : Device σ) (q : Request) : Implementation σ → HandlerM σ Value
  | .handler h => h.run (.ofRequest d.tree h.fields q d.emitter)
  | .description text => pure (.string text)

/-- The end of a call: its result passes the hook and is checked. -/
def conclude (d : Device σ) (q : Request) (m : Method) (result : Value) : DispatchM σ Value := do
  let result ← perform .rejected (d.hooks.postCall q m result)
  settle ((d.tree.registry.validate m.result result).mapError .resultMismatch)
  enter .resultValidated
  enter .completed
  pure (d.tree.registry.asDeclared m.result result)

/-- A call whose parameter is bound. -/
def callBound (d : Device σ) (q : Request) (m : Method) (i : Implementation σ) :
    DispatchM σ Value := do
  let result ← perform .handler (d.invoke q i)
  enter .invoked
  d.conclude q m result

/-- A call of a method that is found and answered. -/
def callFound (d : Device σ) (q : Request) (m : Method) (i : Implementation σ) :
    DispatchM σ Value := do
  perform .rejected (d.hooks.preCall q m)
  settle ((d.tree.registry.validate m.param q.param).mapError .invalidParam)
  enter .argsBound
  d.callBound q m i

/-- A call of a method of the tree. -/
def callMethod (d : Device σ) (q : Request) : DispatchM σ Value := do
  let (n, m) ← settle (d.tree.accessibleMethod q)
  enter .accessChecked
  let i ← settle (d.implementation q n m)
  enter .handlerResolved
  d.callFound q m i

/-- The answer to a call. -/
def dispatch (d : Device σ) (q : Request) : DispatchM σ Value := do
  enter .received
  if q.method = "ls" then settle (d.tree.answerLs q.path q.param)
  else if q.method = "dir" then settle (d.tree.answerDir q.path q.param)
  else d.callMethod q

/-- Calls a method. -/
def call (d : Device σ) (q : Request) : StateM σ CallReport := do
  let (answer, stages) ← (ExceptT.run (d.dispatch q)).run []
  pure { answer, stages }

end Device

end DeviceTree
