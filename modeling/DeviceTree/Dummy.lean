import DeviceTree.Call.Dispatch
import DeviceTree.Generation.Values

/-!
# The dummy device

A device that answers every method with a generated value of its result type. A few nodes that are
well known answer in a more plausible way: `serialNumber`, `status`, `utcTime` and `localTime`. The
clock of the device can be set; it keeps the difference from the clock of the source.
-/

namespace DeviceTree

/-- The state of a dummy device around that of its source. -/
structure Dummy.World (σ : Type) where
  source : σ
  /-- Nanoseconds by which the clock of the device is ahead of that of the source. -/
  timeOffset : Int := 0

/-- What a dummy device is made from. -/
structure Dummy.Environment (σ : Type) where
  source : Source σ
  /-- Seconds by which local time is ahead of universal time. -/
  localOffset : Int := 0

namespace Dummy

variable {σ : Type}

/-- The serial number, where the result type admits it. -/
def serialNumber : Int64 := 0xFF42

/-- Runs code of the source. -/
def fromSource {α : Type} (code : StateM σ α) : HandlerM (World σ) α :=
  ExceptT.lift fun w =>
    let (a, source) := code w.source
    (a, { w with source })

/-- Generates a value of a named type. -/
def generate (env : Environment σ) (r : Registry) (name : String) : HandlerM (World σ) Value := do
  match ← fromSource (r.generate env.source name).run with
  | .ok v => pure v
  | .error e => throw (.failed e.message)

/-- The method that is called. -/
def calledMethod (c : CallContext (World σ)) : HandlerM (World σ) Method :=
  match c.method? with
  | some m => pure m
  | none => throw (.failed "method not available")

/-- Whether a name stands for the type of timestamps. -/
def isDateTime (r : Registry) (name : String) : Bool :=
  match r.resolve name with
  | .ok .dateTime => true
  | _ => false

/-- Generates the result of the method. -/
def anyMethod (env : Environment σ) : Handler (World σ) := fun c => do
  let m ← calledMethod c
  generate env c.registry m.result

/-- Gives the serial number. -/
def serialNumberGet (env : Environment σ) : Handler (World σ) := fun c => do
  let m ← calledMethod c
  if c.registry.isValid m.result (.int serialNumber) then pure (.int serialNumber)
  else generate env c.registry m.result

/-- Gives the status `ok`, where the enumeration has it. -/
def statusGet (env : Environment σ) : Handler (World σ) := fun c => do
  let m ← calledMethod c
  match c.registry.resolve m.result with
  | .ok (.enum e) =>
    match e.value? "ok" with
    | some n => pure (.ofInteger n)
    | none => generate env c.registry m.result
  | _ => generate env c.registry m.result

/-- Gives the time of the device under a clock ahead of universal time. -/
def timeGet (env : Environment σ) (offset : Int) : Handler (World σ) := fun c => do
  let m ← calledMethod c
  if isDateTime c.registry m.result then
    let now ← fromSource env.source.now
    let ahead := (← get).timeOffset
    pure (.dateTime ((now.addNanos ahead).shownAt offset))
  else generate env c.registry m.result

/-- Sets the time of the device. A time that is not in universal time is refused. -/
def utcTimeSet (env : Environment σ) : Handler (World σ) := fun c => do
  let m ← calledMethod c
  if isDateTime c.registry m.param then
    match c.param? with
    | some (.dateTime t) =>
      if t.offset ≠ 0 then throw (.invalidParam "DateTime must be in UTC")
      let now ← fromSource env.source.now
      modify fun w => { w with timeOffset := t.nanosSince now }
    | _ => pure ()
  generate env c.registry m.result

/-- A handler that reads fields of its context. -/
def reading (fields : List ContextField) (run : Handler (World σ)) :
    RegisteredHandler (World σ) :=
  { fields := .ofList fields, run }

/-- The handlers of well-known nodes. -/
def wellKnown (env : Environment σ) : Handlers (World σ) :=
  ⟨.ofList [
    (handlerName "serialNumber" "get", reading [.method] (serialNumberGet env)),
    (handlerName "status" "get", reading [.method] (statusGet env)),
    (handlerName "utcTime" "get", reading [.method] (timeGet env 0)),
    (handlerName "utcTime" "set", reading [.method, .param] (utcTimeSet env)),
    (handlerName "localTime" "get", reading [.method] (timeGet env env.localOffset))]⟩

/-- The dummy device of a tree. -/
def device (env : Environment σ) (tree : Tree) : Device (World σ) :=
  { tree, handlers := wellKnown env, defaultHandler := some (reading [.method] (anyMethod env)) }

end Dummy

end DeviceTree
