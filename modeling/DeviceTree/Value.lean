import DeviceTree.Decimal
import DeviceTree.Json.Printer
import DeviceTree.SortedMap
import DeviceTree.Timestamp

/-!
# Runtime values

A `Value` is what methods take and give and what signals carry. Integers keep whether they are
signed, maps are keyed by texts in order of insertion, and integer maps by integers in ascending
order. Equality is that of the content: integers agree across signedness, decimals as numbers,
timestamps as instants, maps whatever the order of their entries, and doubles as the hardware
compares them.
-/

namespace DeviceTree

/-- A value carried by a call or a signal. -/
inductive Value where
  | null
  | bool (b : Bool)
  | int (n : Int64)
  | uint (n : UInt64)
  | double (x : Float)
  | decimal (d : Decimal)
  | string (s : String)
  | blob (bytes : List UInt8)
  | dateTime (t : Timestamp)
  | list (items : List Value)
  /-- Entries with distinct keys, in order of insertion. -/
  | map (entries : List (String × Value))
  /-- Entries by ascending key. -/
  | imap (entries : List (Int × Value))
deriving Inhabited

namespace Value

/-- The name of the kind of a value. -/
def kind : Value → String
  | .null => "Null"
  | .bool _ => "Bool"
  | .int _ => "Int"
  | .uint _ => "UInt"
  | .double _ => "Double"
  | .decimal _ => "Decimal"
  | .string _ => "String"
  | .blob _ => "Blob"
  | .dateTime _ => "DateTime"
  | .list _ => "List"
  | .map _ => "Map"
  | .imap _ => "IMap"

/-- Whether the value is null. -/
def isNull : Value → Bool
  | .null => true
  | _ => false

/-- The integer, signed or not. -/
def asInteger? : Value → Option Int
  | .int n => some n.toInt
  | .uint n => some n.toNat
  | _ => none

/-- The text, if the value is one. -/
def asString? : Value → Option String
  | .string s => some s
  | _ => none

/-- An integer as a value: signed if it fits, else unsigned, cut to the range of unsigned
integers. -/
def ofInteger (n : Int) : Value :=
  if -0x8000000000000000 ≤ n ∧ n < 0x8000000000000000 then .int (Int64.ofInt n)
  else .uint (UInt64.ofNat (min n.toNat 0xFFFFFFFFFFFFFFFF))

/-! ## Equality -/

mutual

/-- Whether two values have the same content. -/
def same : Value → Value → Bool
  | .null, .null => true
  | .bool a, .bool b => a == b
  | .int a, .int b => a.toInt == b.toInt
  | .int a, .uint b => a.toInt == b.toNat
  | .uint a, .int b => (a.toNat : Int) == b.toInt
  | .uint a, .uint b => a.toNat == b.toNat
  | .double a, .double b => a == b
  | .decimal a, .decimal b => a == b
  | .string a, .string b => a == b
  | .blob a, .blob b => a == b
  | .dateTime a, .dateTime b => a == b
  | .list a, .list b => sameItems a b
  | .map a, .map b => a.length == b.length && allBound a b
  | .imap a, .imap b => samePairs a b
  | _, _ => false

/-- Whether two lists have the same items in order. -/
def sameItems : List Value → List Value → Bool
  | [], [] => true
  | a :: as, b :: bs => a.same b && sameItems as bs
  | _, _ => false

/-- Whether the second list binds every key of the first to the same value. -/
def allBound : List (String × Value) → List (String × Value) → Bool
  | [], _ => true
  | (key, a) :: rest, other => (other.lookup key).any a.same && allBound rest other

/-- Whether two lists bind the same integers to the same values in order. -/
def samePairs : List (Int × Value) → List (Int × Value) → Bool
  | [], [] => true
  | (key, a) :: as, (key', b) :: bs => key == key' && a.same b && samePairs as bs
  | _, _ => false

end

instance : BEq Value := ⟨same⟩

/-! ## Plain data -/

mutual

/-- The value of plain data: integers are signed if they fit, mappings become maps with one entry
for each key. -/
def ofJson : Json → Value
  | .null => .null
  | .bool b => .bool b
  | .int n => if n < 0x8000000000000000 then .int (Int64.ofInt n) else .uint (UInt64.ofNat n.toNat)
  | .double x => .double x
  | .str s => .string s
  | .arr items => .list (ofJsonItems items)
  | .obj fields => .map (mergeEntries (ofJsonFields fields))

/-- The values of all items. -/
def ofJsonItems : List Json → List Value
  | [] => []
  | item :: rest => ofJson item :: ofJsonItems rest

/-- The values of all entries. -/
def ofJsonFields : List (String × Json) → List (String × Value)
  | [] => []
  | (key, item) :: rest => (key, ofJson item) :: ofJsonFields rest

end

mutual

/-- The plain data that stands for a value: integer keys become texts, bytes a list of numbers,
decimals and timestamps their texts. -/
def toJson : Value → Json
  | .null => .null
  | .bool b => .bool b
  | .int n => .int n.toInt
  | .uint n => .int n.toNat
  | .double x => .double x
  | .decimal d => .str d.toText
  | .string s => .str s
  | .blob bytes => .arr (bytes.map fun b => .int b.toNat)
  | .dateTime t => .str t.toText
  | .list items => .arr (toJsonItems items)
  | .map entries => .obj (toJsonEntries entries)
  | .imap entries => .obj (toJsonPairs entries)

/-- The plain data of all items. -/
def toJsonItems : List Value → List Json
  | [] => []
  | item :: rest => item.toJson :: toJsonItems rest

/-- The plain data of all entries. -/
def toJsonEntries : List (String × Value) → List (String × Json)
  | [] => []
  | (key, item) :: rest => (key, item.toJson) :: toJsonEntries rest

/-- The plain data of all entries, their keys as texts. -/
def toJsonPairs : List (Int × Value) → List (String × Json)
  | [] => []
  | (key, item) :: rest => (toString key, item.toJson) :: toJsonPairs rest

end

/-- The JSON text of a value. -/
def jsonText (v : Value) : String :=
  v.toJson.compact

end Value

end DeviceTree
