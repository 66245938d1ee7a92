import DeviceTree.Mismatch
import DeviceTree.Registry.Resolution

/-!
# Validation of values

`Registry.validate` checks a value against a named type and gives the first mismatch, in the order
in which the value is written. A value that matches some member of a union matches the union, and
mismatches inside members are not told.

Every type entered, aliases and members of unions too, is one level deep, and at most
`Validation.depthLimit` levels are entered: this ends the check in registries whose types refer to
themselves.

The steps to the part at hand are kept on a stack, from which a mismatch takes its path. `checkType`
is the check without the stack: it puts the steps in front of the path on the way back.
-/

namespace DeviceTree

/-- The outcome of a check. -/
abbrev Verdict := Except ValidationError Unit

/-- The mismatch of the value itself. -/
def mismatch (name : String) (m : Mismatch) : Verdict :=
  .error ⟨[], name, m⟩

/-- A verdict about a part as one about the whole. -/
def Verdict.below (step : Step) (v : Verdict) : Verdict :=
  v.mapError fun e => { e with path := step :: e.path }

/-- A verdict about the part that the steps lead to, the last one first, as one about the whole. -/
def Verdict.under (steps : List Step) (v : Verdict) : Verdict :=
  v.mapError fun e => { e with path := steps.reverse ++ e.path }

namespace Validation

/-- The largest number of nested types. -/
def depthLimit : Nat := 64

/-- A mismatch for a bound that is violated. -/
def refuse {α : Type} (name : String) (violated : Option α) (m : α → Mismatch) : Verdict :=
  match violated with
  | some bound => mismatch name (m bound)
  | none => .ok ()

/-- The verdict on a length. -/
def checkLength (name : String) (length : Nat) (minimum maximum : Option Nat) : Verdict := do
  refuse name (minimum.filter (length < ·)) (.tooShort length)
  refuse name (maximum.filter (length > ·)) (.tooLong length)

/-- The verdict on an integer. -/
def checkInt (name : String) (range : IntRange) (n : Int) : Verdict := do
  refuse name (range.minimum.filter (n < ·)) fun low => .belowMinimum (.integer n) (.integer low)
  refuse name (range.maximum.filter (n > ·)) fun high => .aboveMaximum (.integer n) (.integer high)
  refuse name ((if range.unsigned then some 0 else none).filter (n < ·))
    fun zero => .belowMinimum (.integer n) (.integer zero)
  refuse name (range.multipleOf.filter fun unit => unit != 0 && n % unit != 0)
    fun unit => .notMultiple (.integer n) (.integer unit)

/-- The bound that a double is below: the inclusive one, else the exclusive one. -/
def violatedMinimum? (range : DoubleRange) (x : Float) : Option Float :=
  (range.minimum.filter (x < ·)).or (range.exclusiveMinimum.filter (x ≤ ·))

/-- The bound that a double is above: the inclusive one, else the exclusive one. -/
def violatedMaximum? (range : DoubleRange) (x : Float) : Option Float :=
  (range.maximum.filter (x > ·)).or (range.exclusiveMaximum.filter (x ≥ ·))

/-- The verdict on a double. -/
def checkDouble (name : String) (range : DoubleRange) (x : Float) : Verdict := do
  refuse name (violatedMinimum? range x) fun low => .belowMinimum (.double x) (.double low)
  refuse name (violatedMaximum? range x) fun high => .aboveMaximum (.double x) (.double high)
  refuse name (range.multipleOf.filter (!Double.isMultiple x ·))
    fun unit => .notMultiple (.double x) (.double unit)

/-- The verdict on a decimal. -/
def checkDecimal (name : String) (range : DecimalRange) (d : Decimal) : Verdict := do
  refuse name (range.minimum.filter (d < ·)) fun low => .belowMinimum (.decimal d) (.decimal low)
  refuse name (range.maximum.filter (· < d)) fun high => .aboveMaximum (.decimal d) (.decimal high)

/-- The verdict on a text: its number of characters, then its pattern. -/
def checkString (name : String) (shape : StringShape) (s : String) : Verdict := do
  checkLength name s.length shape.minLength shape.maxLength
  refuse name (shape.pattern.filter (!·.accepts s)) fun p => .pattern s p.source

/-- The verdict on a value of an enumeration: one of its aliases or one of its integers. -/
def checkEnum (name : String) (e : Enumeration) (v : Value) : Verdict :=
  match v with
  | .string text =>
    if (e.value? text).isSome then .ok () else mismatch name (.notInEnum (.alias text))
  | _ =>
    match v.asInteger? with
    | some n => if e.containsValue n then .ok () else mismatch name (.notInEnum (.value n))
    | none => mismatch name (.kind "Enum" v.kind)

/-- Whether bit `i` belongs to a field whose type is not null. -/
def isAssigned (r : Registry) (b : BitfieldShape) (i : Nat) : Bool :=
  b.fields.any fun f =>
    f.covers i && !(match r.resolve? f.typeName with
      | some .null => true
      | _ => false)

/-- The set bits of a word that belong to no field, or to one of type null. -/
def unassignedBits (r : Registry) (b : BitfieldShape) (bits : Nat) : Nat :=
  let positions := (List.range 64).filter fun i => bits.testBit i && !isAssigned r b i
  positions.foldr (fun i word => 1 <<< i ||| word) 0

/-- The verdict on a word whose bits are divided into fields. -/
def checkBitfield (r : Registry) (name : String) (b : BitfieldShape) (v : Value) : Verdict :=
  match v.asInteger?.filter (fun n => 0 ≤ n && n < 0x10000000000000000) with
  | some n =>
    let unassigned := unassignedBits r b n.toNat
    if unassigned == 0 then .ok () else mismatch name (.unassignedBits unassigned)
  | none => mismatch name (.kind "Bitfield" v.kind)

/-- The verdict on the items of a list from position `i` on. -/
def checkItems (check : Value → Verdict) (i : Nat) : List Value → Verdict
  | [] => .ok ()
  | item :: rest => do
    Verdict.below (.index i) (check item)
    checkItems check (i + 1) rest

/-- The verdict on the items of a tuple from position `i` on. -/
def checkPositions (check : String → Value → Verdict) (i : Nat) :
    List String → List Value → Verdict
  | typeName :: types, item :: items => do
    Verdict.below (.index i) (check typeName item)
    checkPositions check (i + 1) types items
  | _, _ => .ok ()

/-- The verdict on the entries of a map whose keys are declared. -/
def checkEntries (check : String → Value → Verdict) (name : String) (fields : OrderedMap String) :
    List (String × Value) → Verdict
  | [] => .ok ()
  | (key, item) :: rest =>
    match fields.get? key with
    | none => mismatch name (.undeclaredKey key)
    | some typeName => do
      Verdict.below (.key key) (check typeName item)
      checkEntries check name fields rest

/-- The verdict on the entries of an integer map whose keys are declared. -/
def checkPairs (check : String → Value → Verdict) (name : String) (fields : SortedMap String) :
    List (Int × Value) → Verdict
  | [] => .ok ()
  | (key, item) :: rest =>
    match fields.get? key with
    | none => mismatch name (.undeclaredKey (toString key))
    | some typeName => do
      Verdict.below (.ikey key) (check typeName item)
      checkPairs check name fields rest

/-- The verdict on a value against the body of a type, where `check` checks against the types it
refers to. -/
def checkBody (r : Registry) (check : String → Value → Verdict) (name : String)
    (type : TypeDef) (v : Value) : Verdict :=
  match type, v with
  | .any, _ => .ok ()
  | .null, .null => .ok ()
  | .null, v => mismatch name (.kind "Null" v.kind)
  | .bool, .bool _ => .ok ()
  | .bool, v => mismatch name (.kind "Bool" v.kind)
  | .dateTime, .dateTime _ => .ok ()
  | .dateTime, v => mismatch name (.kind "DateTime" v.kind)
  | .int range, v =>
    match v.asInteger? with
    | some n => checkInt name range n
    | none => mismatch name (.kind "Int" v.kind)
  | .double range, .double x => checkDouble name range x
  | .double _, v => mismatch name (.kind "Double" v.kind)
  | .decimal range, .decimal d => checkDecimal name range d
  | .decimal _, v => mismatch name (.kind "Decimal" v.kind)
  | .string shape, .string s => checkString name shape s
  | .string _, v => mismatch name (.kind "String" v.kind)
  | .blob shape, .blob bytes => checkLength name bytes.length shape.minLength shape.maxLength
  | .blob _, v => mismatch name (.kind "Blob" v.kind)
  | .enum e, v => checkEnum name e v
  | .bitfield b, v => checkBitfield r name b v
  | .list shape, .list items => do
    checkLength name items.length (some shape.minLength) shape.maxLength
    match shape.allowed with
    | some typeName => checkItems (check typeName) 0 items
    | none => .ok ()
  | .list _, v => mismatch name (.kind "List" v.kind)
  | .tuple shape, .list items =>
    if items.length = shape.items.length then checkPositions check 0 shape.items items
    else mismatch name (.arity shape.items.length items.length)
  | .tuple _, v => mismatch name (.kind "Tuple" v.kind)
  | .map shape, .map entries =>
    match shape.fields with
    | some fields => checkEntries check name fields entries
    | none => .ok ()
  | .map _, v => mismatch name (.kind "Map" v.kind)
  | .imap shape, .imap entries =>
    match shape.fields with
    | some fields => checkPairs check name fields entries
    | none => .ok ()
  | .imap _, v => mismatch name (.kind "IMap" v.kind)
  | .alias target, v => check target v
  | .union members, v =>
    if members.any fun member => (check member v).isOk then .ok ()
    else mismatch name (.noMember members)
  | .constant c, v => if c == v then .ok () else mismatch name .notConstant

/-- The verdict on a value against a type, with the given number of levels left. -/
def checkType (r : Registry) : Nat → String → TypeDef → Value → Verdict
  | 0, name, _, _ => mismatch name (.tooDeep depthLimit)
  | levels + 1, name, type, v =>
    checkBody r
      (fun target part => match r.get? target with
        | some targetType => checkType r levels target targetType part
        | none => mismatch target (.unknownType target))
      name type v

/-! ## The stack of the validator -/

/-- A check that keeps a stack: the steps from the value that is validated to the part at hand, the
last one first. The stack outlives a failure. -/
abbrev Tracked := ExceptT ValidationError (StateM (List Step))

/-- The verdict on the part at hand, told of where it stands. -/
def settle (verdict : Verdict) : Tracked Unit := do
  let steps ← get
  ExceptT.mk (pure (verdict.under steps))

/-- The verdict of a check, which is not yet one on the part at hand. -/
def attempt (check : Tracked Unit) : Tracked Verdict :=
  ExceptT.lift check.run

/-- A check one step further down: the step is on the stack meanwhile. -/
def descend (step : Step) (check : Tracked Unit) : Tracked Unit := do
  modify (step :: ·)
  let verdict ← attempt check
  modify List.tail
  ExceptT.mk (pure verdict)

/-- Checks the items of a list from position `i` on. -/
def trackItems (check : Value → Tracked Unit) (i : Nat) : List Value → Tracked Unit
  | [] => pure ()
  | item :: rest => do
    descend (.index i) (check item)
    trackItems check (i + 1) rest

/-- Checks the items of a tuple from position `i` on. -/
def trackPositions (check : String → Value → Tracked Unit) (i : Nat) :
    List String → List Value → Tracked Unit
  | typeName :: types, item :: items => do
    descend (.index i) (check typeName item)
    trackPositions check (i + 1) types items
  | _, _ => pure ()

/-- Checks the entries of a map whose keys are declared. -/
def trackEntries (check : String → Value → Tracked Unit) (name : String)
    (fields : OrderedMap String) : List (String × Value) → Tracked Unit
  | [] => pure ()
  | (key, item) :: rest =>
    match fields.get? key with
    | none => settle (mismatch name (.undeclaredKey key))
    | some typeName => do
      descend (.key key) (check typeName item)
      trackEntries check name fields rest

/-- Checks the entries of an integer map whose keys are declared. -/
def trackPairs (check : String → Value → Tracked Unit) (name : String)
    (fields : SortedMap String) : List (Int × Value) → Tracked Unit
  | [] => pure ()
  | (key, item) :: rest =>
    match fields.get? key with
    | none => settle (mismatch name (.undeclaredKey (toString key)))
    | some typeName => do
      descend (.ikey key) (check typeName item)
      trackPairs check name fields rest

/-- Whether some check passes, in turn until one does. What the others find is dropped. -/
def trackMembers (check : String → Tracked Unit) : List String → Tracked Bool
  | [] => pure false
  | member :: rest => do
    let verdict ← attempt (check member)
    if verdict.isOk then pure true else trackMembers check rest

/-- Checks a value against the body of a type, where `check` checks against the types it refers to.
Values without parts to look into have the verdict of `checkBody`. -/
def trackBody (r : Registry) (check : String → Value → Tracked Unit) (name : String)
    (type : TypeDef) (v : Value) : Tracked Unit :=
  match type, v with
  | .list shape, .list items => do
    settle (checkLength name items.length (some shape.minLength) shape.maxLength)
    match shape.allowed with
    | some typeName => trackItems (check typeName) 0 items
    | none => pure ()
  | .tuple shape, .list items =>
    if items.length = shape.items.length then trackPositions check 0 shape.items items
    else settle (mismatch name (.arity shape.items.length items.length))
  | .map shape, .map entries =>
    match shape.fields with
    | some fields => trackEntries check name fields entries
    | none => pure ()
  | .imap shape, .imap entries =>
    match shape.fields with
    | some fields => trackPairs check name fields entries
    | none => pure ()
  | .alias target, v => check target v
  | .union members, v => do
    if ← trackMembers (check · v) members then pure ()
    else settle (mismatch name (.noMember members))
  | type, v => settle (checkBody r (fun _ _ => .ok ()) name type v)

/-- Checks a value against a type, with the given number of levels left. -/
def trackType (r : Registry) : Nat → String → TypeDef → Value → Tracked Unit
  | 0, name, _, _ => settle (mismatch name (.tooDeep depthLimit))
  | levels + 1, name, type, v =>
    trackBody r
      (fun target part => match r.get? target with
        | some targetType => trackType r levels target targetType part
        | none => settle (mismatch target (.unknownType target)))
      name type v

/-- The verdict of a check that starts at the value itself. -/
def conclude (check : Tracked Unit) : Verdict :=
  (check.run.run []).1

end Validation

namespace Registry

/-- The verdict on a value against a type that is not registered itself. It goes by the name of its
kind. -/
def validateType (r : Registry) (type : TypeDef) (v : Value) : Verdict :=
  Validation.conclude (Validation.trackType r Validation.depthLimit type.kind type v)

/-- The verdict on a value against a named type. -/
def validate (r : Registry) (name : String) (v : Value) : Verdict :=
  match r.get? name with
  | some type => Validation.conclude (Validation.trackType r Validation.depthLimit name type v)
  | none => mismatch name (.unknownType name)

/-- Whether a value matches a named type. -/
def isValid (r : Registry) (name : String) (v : Value) : Bool :=
  (r.validate name v).isOk

end Registry

end DeviceTree
