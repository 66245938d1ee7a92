import DeviceTree.Generation.Source
import DeviceTree.Registry.Resolution

/-!
# Generation of values

`Registry.generate` draws a value of a named type. It fails where the type has a pattern, where no
value matches, and where types are nested too deep. Which members of a union are tried first is
drawn; the union fails only when all members do.
-/

namespace DeviceTree

/-- Why no value is generated. -/
inductive GenerateError where
  | pattern (name : String)
  | tooDeep (limit : Nat)
  | unknownType (name : String)
  | unsatisfiable (name : String)
deriving Repr, DecidableEq

/-- The text of a generation error. -/
def GenerateError.message : GenerateError → String
  | pattern name => s!"can't generate a value of '{name}' matching its pattern"
  | tooDeep limit => s!"types nested deeper than {limit} levels"
  | unknownType name => s!"unknown type '{name}'"
  | unsatisfiable name => s!"type '{name}' has no valid value"

/-- Computations that draw and may fail. -/
abbrev GenM (σ : Type) := ExceptT GenerateError (StateM σ)

namespace Generation

variable {σ : Type}

/-- The deepest level at which a type is entered, where the outermost is zero. -/
def deepestLevel : Nat := 16

/-- How far generated numbers go beyond a bound, or from zero, where the other bound is missing. -/
def reach : Nat := 100

/-- The letters of generated texts. -/
def letters : List Char :=
  "abcdefghijklmnopqrstuvwxyzABCDEFGHIJKLMNOPQRSTUVWXYZ".toList

/-- The largest integer that bounds can be. -/
def largestBound : Int := 0x7FFFFFFFFFFFFFFFFFFFFFFFFFFFFFFF

/-- The smallest integer that bounds can be. -/
def smallestBound : Int := -0x80000000000000000000000000000000

/-- The bounds between which an integer is drawn. -/
def integerBounds (range : IntRange) : Int × Int :=
  let low := range.minimum.getD (if range.unsigned then 0 else -reach)
  let high := range.maximum.getD reach
  let high := if range.maximum.isNone && high < low then min (low + reach) largestBound else high
  let low :=
    if range.minimum.isNone && low > high then
      if range.unsigned then 0 else max (high - reach) smallestBound
    else low
  (low, high)

/-- The multiples of `unit` between two bounds, as bounds of the factor. -/
def factorBounds (low high unit : Int) : Int × Int :=
  (low / unit + (if low % unit = 0 then 0 else 1), high / unit)

/-- An integer of a range. -/
def integer (source : Source σ) (name : String) (range : IntRange) : GenM σ Int := do
  let (low, high) := integerBounds range
  if low > high then throw (.unsatisfiable name)
  match range.multipleOf.filter (· > 0) with
  | none => source.integer low high
  | some unit =>
    let (first, last) := factorBounds low high unit
    if first > last then throw (.unsatisfiable name)
    let factor ← source.integer first last
    pure (factor * unit)

/-- An integer as a value of a range: unsigned integers are cut to 64 bits. -/
def integerValue (range : IntRange) (n : Int) : Value :=
  if range.unsigned then .uint (UInt64.ofNat (min n.toNat 0xFFFFFFFFFFFFFFFF)) else .ofInteger n

/-- The tighter of an inclusive and an exclusive bound, and whether it is exclusive. -/
def tighter (beyond : Float → Float → Bool) (inclusive exclusive : Option Float) :
    Option Float × Bool :=
  match inclusive, exclusive with
  | some i, some e => if beyond i e then (some i, false) else (some e, true)
  | some i, none => (some i, false)
  | none, e => (e, e.isSome)

/-- The bounds between which a double is drawn, each with whether it is exclusive. -/
def doubleBounds (range : DoubleRange) : (Float × Bool) × (Float × Bool) :=
  let (minimum, lowOpen) := tighter (fun a b => a > b) range.minimum range.exclusiveMinimum
  let (maximum, highOpen) := tighter (fun a b => a < b) range.maximum range.exclusiveMaximum
  let low := minimum.getD (match maximum with
    | some high => (if high < 0 then high else 0) - 100
    | none => -100)
  let high := maximum.getD ((if low > 0 then low else 0) + 100)
  ((low, lowOpen), (high, highOpen))

/-- A double of a range. -/
def double (source : Source σ) (name : String) (range : DoubleRange) : GenM σ Float := do
  let ((low, lowOpen), (high, highOpen)) := doubleBounds range
  match range.multipleOf.filter (fun unit => unit > 0) with
  | some unit =>
    let first := (low / unit).ceil.toInt64
    let first := if lowOpen && first.toFloat * unit ≤ low then first + 1 else first
    let last := (high / unit).floor.toInt64
    let last := if highOpen && last.toFloat * unit ≥ high then last - 1 else last
    if first > last then throw (.unsatisfiable name)
    let factor ← source.integer first.toInt last.toInt
    pure ((Int64.ofInt factor).toFloat * unit)
  | none =>
    if low < high then
      let x ← source.double low high
      pure (if lowOpen && x ≤ low then (low + high) / 2 else x)
    else if low == high && !lowOpen && !highOpen then pure low
    else throw (.unsatisfiable name)

/-- A decimal with two places, cut to a range. -/
def decimal (source : Source σ) (range : DecimalRange) : GenM σ Decimal := do
  let hundredths ← source.integer (-10000) 10000
  let d : Decimal := ⟨Int64.ofInt hundredths, -2⟩
  pure <|
    if range.minimum.any (d < ·) then range.minimum.getD d
    else if range.maximum.any (· < d) then range.maximum.getD d
    else d

/-- A length between optional bounds. -/
def length (source : Source σ) (minimum maximum : Option Nat) : GenM σ Nat := do
  let low := minimum.getD 0
  let high := max (maximum.getD (low + 16)) low
  let n ← source.integer low high
  pure n.toNat

/-- The results of running code a number of times. -/
def repeated {α : Type} (code : GenM σ α) : Nat → GenM σ (List α)
  | 0 => pure []
  | n + 1 => do
    let a ← code
    let rest ← repeated code n
    pure (a :: rest)

/-- A letter. -/
def letter (source : Source σ) : GenM σ Char := do
  let i ← source.index letters.length
  pure (letters.getD i 'a')

/-- The bits of a value inside a bitfield. -/
def rawBits : Value → Nat
  | .bool b => b.toNat
  | .int n => n.toInt.toNat + (if n < 0 then (n.toInt + 0x10000000000000000).toNat else 0)
  | .uint n => n.toNat
  | _ => 0

/-- The bits of all fields, each at its place. -/
def packFields (value : String → GenM σ Value) : List BitField → GenM σ Nat
  | [] => pure 0
  | f :: rest => do
    let v ← value f.typeName
    let bits ← packFields value rest
    pure ((rawBits v % (1 <<< min f.width 64)) <<< f.offset ||| bits)

/-- A value for each key. -/
def keyed {κ : Type} (value : String → GenM σ Value) :
    List (κ × String) → GenM σ (List (κ × Value))
  | [] => pure []
  | (key, typeName) :: rest => do
    let v ← value typeName
    let entries ← keyed value rest
    pure ((key, v) :: entries)

/-- The first value that can be generated; when none can, the last failure. -/
def firstOf (value : String → GenM σ Value) (last : GenerateError) : List String → GenM σ Value
  | [] => throw last
  | member :: rest => tryCatch (value member) fun e => firstOf value e rest

/-- A value of a type, where `value` generates those of the types it refers to. -/
def ofType (source : Source σ) (value : String → GenM σ Value) (name : String) :
    TypeDef → GenM σ Value
  | .any | .null => pure .null
  | .bool => Value.bool <$> source.bool
  | .int range => integerValue range <$> integer source name range
  | .double range => Value.double <$> double source name range
  | .decimal range => Value.decimal <$> decimal source range
  | .string shape => do
    if shape.pattern.isSome then throw (.pattern name)
    let n ← length source shape.minLength shape.maxLength
    let text ← repeated (letter source) n
    pure (.string (String.ofList text))
  | .blob shape => do
    let n ← length source shape.minLength shape.maxLength
    let bytes ← repeated (liftM source.byte) n
    pure (.blob bytes)
  | .dateTime => Value.dateTime <$> source.now
  | .enum e => do
    if e.values.values.isEmpty then throw (.unsatisfiable name)
    let i ← source.index e.values.values.length
    pure (.ofInteger (e.values.values.getD i 0))
  | .bitfield b => do
    let bits ← packFields value b.fields
    pure (.uint (UInt64.ofNat bits))
  | .list shape => do
    let item := match shape.allowed with
      | some allowed => value allowed
      | none => pure .null
    Value.list <$> repeated item shape.minLength
  | .tuple shape => Value.list <$> shape.items.mapM value
  | .map shape => do
    let entries ← keyed value ((shape.fields.map (·.entries)).getD [])
    pure (.map entries)
  | .imap shape => do
    let entries ← keyed value ((shape.fields.map (·.entries)).getD [])
    pure (.imap entries)
  | .alias target => value target
  | .union members => do
    let order ← source.shuffle members
    firstOf value (.unsatisfiable name) order
  | .constant v => pure v

/-- A value of a named type, with the given number of levels left. -/
def atLevel (r : Registry) (source : Source σ) : Nat → String → GenM σ Value
  | 0, _ => throw (.tooDeep deepestLevel)
  | levels + 1, name =>
    match r.get? name with
    | some type => ofType source (atLevel r source levels) name type
    | none => throw (.unknownType name)

end Generation

/-- A value of a named type. -/
def Registry.generate {σ : Type} (r : Registry) (source : Source σ) (name : String) :
    GenM σ Value :=
  Generation.atLevel r source (Generation.deepestLevel + 1) name

end DeviceTree
