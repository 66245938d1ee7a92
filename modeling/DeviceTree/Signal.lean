import DeviceTree.Tree
import DeviceTree.Validation

/-!
# Signals

A signal carries a value from a node to those who listen. Before an `Emitter` gets it, the signal
must be a method of the node that is marked as one, and the value must match its result type.
-/

namespace DeviceTree

/-- A signal sent by a node. -/
structure SignalEvent where
  path : String
  signal : String
  value : Value

/-- Why a signal is not sent. -/
inductive SignalError where
  | unknownSignal (path signal : String)
  | noChangeSignal (path : String)
  | invalidValue (cause : ValidationError)
  /-- The emitter could not deliver the event. -/
  | delivery (reason : String)

/-- The text of a signal error. -/
def SignalError.message : SignalError → String
  | unknownSignal path signal => s!"node '{path}' has no signal '{signal}'"
  | noChangeSignal path => s!"node '{path}' has no change signal"
  | invalidValue cause => "invalid signal value: " ++ cause.message
  | delivery reason => "signal delivery failed: " ++ reason

/-- What takes signals that have been checked, in a world of states `σ`. -/
abbrev Emitter (σ : Type) := SignalEvent → ExceptT SignalError (StateM σ) Unit

/-- The event of a signal of the node at a path, if the node has the signal and the value matches
its type. -/
def Tree.signalEvent (t : Tree) (path signal : String) (value : Value) :
    Except SignalError SignalEvent :=
  match t.resolveMethod path signal with
  | .error _ => .error (.unknownSignal path signal)
  | .ok (_, m) =>
    if m.flags.signal then
      match t.registry.validate m.result value with
      | .ok () => .ok { path, signal, value }
      | .error e => .error (.invalidValue e)
    else .error (.unknownSignal path signal)

/-- The name of the change signal of the node at a path. -/
def Tree.changeSignal (t : Tree) (path : String) : Except SignalError String :=
  match (t.resolveNode path).toOption.bind (·.changeSignal?) with
  | some signal => .ok signal
  | none => .error (.noChangeSignal path)

/-- The signals of one node. -/
structure Signals (σ : Type) where
  tree : Tree
  path : String
  emitter : Emitter σ

namespace Signals

variable {σ : Type}

/-- Sends a signal. -/
def emit (s : Signals σ) (signal : String) (value : Value) : ExceptT SignalError (StateM σ) Unit :=
  match s.tree.signalEvent s.path signal value with
  | .ok event => s.emitter event
  | .error e => throw e

/-- Sends the change signal of the property of the node. -/
def changed (s : Signals σ) (value : Value) : ExceptT SignalError (StateM σ) Unit :=
  match s.tree.changeSignal s.path with
  | .ok signal => s.emit signal value
  | .error e => throw e

end Signals

/-- Takes events and leaves no trace of them. -/
def Emitter.silent {σ : Type} : Emitter σ := fun _ => pure ()

end DeviceTree
