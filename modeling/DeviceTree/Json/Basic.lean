import DeviceTree.Double.Basic
import DeviceTree.OrderedMap

/-!
# Documents of plain data

`Json` is the tree of a document before anything is interpreted: null, booleans, numbers, texts,
lists and mappings. A whole number in the range of 64-bit integers is an integer, every other number
a double. Mappings are lists of entries, so that a reader can keep repeated keys for those who
report them; `Json.merged` leaves one entry for each key.
-/

namespace DeviceTree

/-- A tree of plain data. -/
inductive Json where
  | null
  | bool (b : Bool)
  /-- An integer between `-2 ^ 63` and `2 ^ 64 - 1`. -/
  | int (n : Int)
  | double (x : Float)
  | str (s : String)
  | arr (items : List Json)
  | obj (fields : List (String × Json))
deriving Inhabited

namespace Json

/-- The integer, if it fits 64 bits with a sign. -/
def asInt64? : Json → Option Int
  | .int n => if n < 0x8000000000000000 then some n else none
  | _ => none

/-- The integer, if it is not negative. -/
def asNat? : Json → Option Nat
  | .int n => if 0 ≤ n then some n.toNat else none
  | _ => none

/-- The number as the nearest double. -/
def asFloat? : Json → Option Float
  | .int n => some (Double.ofRatio (n < 0) n.natAbs 1)
  | .double x => some x
  | _ => none

/-- The text, if it is one. -/
def asString? : Json → Option String
  | .str s => some s
  | _ => none

/-- The truth value, if it is one. -/
def asBool? : Json → Option Bool
  | .bool b => some b
  | _ => none

/-- Whether the tree is null. -/
def isNull : Json → Bool
  | .null => true
  | _ => false

mutual

/-- The tree with one entry for each key of each mapping: at the place of the first entry, with the
value of the last. -/
def merged : Json → Json
  | .arr items => .arr (mergedItems items)
  | .obj fields => .obj (mergeEntries (mergedFields fields))
  | leaf => leaf

/-- `merged` for all items of a list. -/
def mergedItems : List Json → List Json
  | [] => []
  | item :: rest => item.merged :: mergedItems rest

/-- `merged` for the values of all entries. -/
def mergedFields : List (String × Json) → List (String × Json)
  | [] => []
  | (key, value) :: rest => (key, value.merged) :: mergedFields rest

end

end Json

end DeviceTree
