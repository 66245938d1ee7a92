import DeviceTree.Call.Context
import DeviceTree.Text.Properties

/-!
# Handlers

A handler answers the calls of a method. Handlers are registered under a name made from the path of
the node and the name of the method, together with the fields of the context that they read.
-/

namespace DeviceTree

/-- The failure of a handler. -/
inductive HandlerError where
  /-- The parameter has the right type but cannot be accepted. -/
  | invalidParam (reason : String)
  | failed (reason : String)
  | signal (cause : SignalError)

/-- The text of a handler error. -/
def HandlerError.message : HandlerError → String
  | invalidParam reason => "invalid parameter: " ++ reason
  | failed reason => reason
  | signal cause => cause.message

/-- Computations of handlers in a world of states `σ`. -/
abbrev HandlerM (σ : Type) := ExceptT HandlerError (StateM σ)

/-- What answers the calls of a method. -/
abbrev Handler (σ : Type) := CallContext σ → HandlerM σ Value

/-- Why a handler is not registered. -/
inductive RegistrationError where
  | unknownParameter (handler parameter : String)
  | duplicate (handler : String)
deriving Repr, DecidableEq

/-- The text of a registration error. -/
def RegistrationError.message : RegistrationError → String
  | unknownParameter handler parameter =>
    s!"handler '{handler}' declares unknown parameter '{parameter}'"
  | duplicate handler => s!"handler '{handler}' is already registered"

/-- A handler and the fields it has declared. -/
structure RegisteredHandler (σ : Type) where
  fields : ContextFields
  run : Handler σ

/-- The field that a parameter of a handler names. -/
def declaredField (handler parameter : String) : Except RegistrationError ContextField :=
  match ContextField.ofName? parameter with
  | some field => .ok field
  | none => .error (.unknownParameter handler parameter)

/-- The fields that the parameters of a handler name. -/
def declaredFields (handler : String) (parameters : List String) :
    Except RegistrationError ContextFields := do
  let named ← parameters.mapM (declaredField handler)
  .ok (.ofList named)

/-- A handler that reads the named fields of its context. -/
def RegisteredHandler.declare {σ : Type} (name : String) (parameters : List String)
    (run : Handler σ) : Except RegistrationError (RegisteredHandler σ) := do
  let fields ← declaredFields name parameters
  .ok { fields, run }

/-- The name under which the handler of a method is registered: characters other than letters,
digits and underscores become underscores. -/
def handlerName (path method : String) : String :=
  String.ofList (("_" ++ path ++ "_" ++ method).toList.map fun c =>
    if Text.isAlphanumeric c || c == '_' then c else '_')

/-- Handlers by name. -/
structure Handlers (σ : Type) where
  entries : OrderedMap (RegisteredHandler σ)

namespace Handlers

variable {σ : Type}

/-- No handlers. -/
def empty : Handlers σ := ⟨.empty⟩

instance : Inhabited (Handlers σ) := ⟨empty⟩

/-- The handler registered under a name. -/
def get? (h : Handlers σ) (name : String) : Option (RegisteredHandler σ) :=
  h.entries.get? name

/-- The number of handlers. -/
def size (h : Handlers σ) : Nat :=
  h.entries.size

/-- Registers a handler under a free name. -/
def enroll (name : String) (parameters : List String) (run : Handler σ) :
    ExceptT RegistrationError (StateM (Handlers σ)) Unit := do
  let h ← get
  if h.entries.contains name then throw (.duplicate name)
  match RegisteredHandler.declare name parameters run with
  | .ok handler => set (⟨h.entries.insert name handler⟩ : Handlers σ)
  | .error e => throw e

/-- The handlers with one more under a free name. -/
def register (h : Handlers σ) (name : String) (parameters : List String) (run : Handler σ) :
    Except RegistrationError (Handlers σ) :=
  let (outcome, handlers) := (ExceptT.run (enroll name parameters run)).run h
  outcome.map fun () => handlers

section

variable {h h' : Handlers σ} {name : String} {parameters : List String} {run : Handler σ}

theorem entries_contains_iff : h.entries.contains name ↔ h.get? name ≠ none :=
  Option.isSome_iff_ne_none

theorem run_enroll_taken (taken : h.get? name ≠ none) :
    (ExceptT.run (enroll name parameters run)).run h = (.error (.duplicate name), h) := by
  show (ite _ _ _ : ExceptT _ (StateM _) _) h = _
  rw [if_pos (entries_contains_iff.2 taken)]
  rfl

theorem run_enroll_of_ok {handler : RegisteredHandler σ} (free : h.get? name = none)
    (declared : RegisteredHandler.declare name parameters run = .ok handler) :
    (ExceptT.run (enroll name parameters run)).run h =
      (.ok (), ⟨h.entries.insert name handler⟩) := by
  show (ite _ _ _ : ExceptT _ (StateM _) _) h = _
  rw [if_neg (fun taken => entries_contains_iff.1 taken free), declared]
  rfl

theorem run_enroll_of_error {e : RegistrationError} (free : h.get? name = none)
    (declared : RegisteredHandler.declare name parameters run = .error e) :
    (ExceptT.run (enroll name parameters run)).run h = (.error e, h) := by
  show (ite _ _ _ : ExceptT _ (StateM _) _) h = _
  rw [if_neg (fun taken => entries_contains_iff.1 taken free), declared]
  rfl

theorem register_eq_ok :
    h.register name parameters run = .ok h' ↔
      h.get? name = none ∧ ∃ handler,
        RegisteredHandler.declare name parameters run = .ok handler ∧
          h' = ⟨h.entries.insert name handler⟩ := by
  rw [register]
  by_cases free : h.get? name = none
  · cases declared : RegisteredHandler.declare name parameters run with
    | ok handler => simp [run_enroll_of_ok free declared, free, Except.map, eq_comm]
    | error e => simp [run_enroll_of_error free declared, Except.map]
  · simp [run_enroll_taken free, free, Except.map]

end

/-- The handlers with one more for a method of the node at a path. -/
def registerMethod (h : Handlers σ) (path method : String) (parameters : List String)
    (run : Handler σ) : Except RegistrationError (Handlers σ) :=
  h.register (handlerName path method) parameters run

end Handlers

end DeviceTree
