import DeviceTree.LoadError
import DeviceTree.TypeDef

/-!
# Numbering of lists

Lists of aliases, and of fields, are numbered by a counter. A name takes the next number, a hole
takes a number without a name, a count takes as many, and an explicit number sets the counter to
the one after it.
-/

namespace DeviceTree.Loading

/-- A number that is not negative and fits 64 bits with a sign. -/
def nonNegative (location : Location) (v : Json) : Except LoadError Int :=
  match v.asInt64?.filter (0 ≤ ·) with
  | some n => .ok n
  | none => .error (.invalid location (.sizeExpected v))

/-- The aliases with explicit numbers, and the counter after them. -/
def explicitAliases (location : Location) (next : Int) :
    List (String × Json) → Except LoadError (List (String × Int) × Int)
  | [] => .ok ([], next)
  | (name, v) :: rest =>
    match v.asInt64? with
    | none => .error (.invalid (location.join name) .intExpected)
    | some n => do
      let (pairs, next) ← explicitAliases location (n + 1) rest
      .ok ((name, n) :: pairs, next)

/-- The aliases of a list with their numbers, counted from `next`. -/
def numberAliases (location : Location) (next : Int) :
    List Json → Except LoadError (List (String × Int))
  | [] => .ok []
  | .null :: rest => numberAliases location (next + 1) rest
  | .int n :: rest => do
    let count ← nonNegative location (.int n)
    numberAliases location (next + count) rest
  | .double x :: _ => .error (.invalid location (.sizeExpected (.double x)))
  | .str name :: rest => do
    let pairs ← numberAliases location (next + 1) rest
    .ok ((name, next) :: pairs)
  | .obj fields :: rest => do
    let (explicit, next) ← explicitAliases location next fields
    let pairs ← numberAliases location next rest
    .ok (explicit ++ pairs)
  | other :: _ => .error (.invalid location (.notASlot other))

/-- The enumeration of distinct aliases; one that comes twice is an error. -/
def distinctAliases (location : Location) (acc : OrderedMap Int) :
    List (String × Int) → Except LoadError (OrderedMap Int)
  | [] => .ok acc
  | (name, n) :: rest =>
    if acc.contains name then .error (.invalid location (.duplicateAlias name))
    else distinctAliases location (acc.insert name n) rest

/-- The enumeration that a list of aliases gives. -/
def enumeration (location : Location) (spec : Json) : Except LoadError Enumeration :=
  match spec with
  | .arr items => do
    let pairs ← numberAliases location 0 items
    let values ← distinctAliases location .empty pairs
    .ok { values }
  | _ => .error (.invalid location .listExpected)

/-- The types of explicitly numbered fields, and the counter after them. -/
def explicitFields (location : Location) (next : Int) :
    List (String × Json) → Except LoadError (List (Int × String) × Int)
  | [] => .ok ([], next)
  | (typeName, v) :: rest => do
    let n ← nonNegative (location.join typeName) v
    let (fields, next) ← explicitFields location (n + 1) rest
    .ok ((n, typeName) :: fields, next)

/-- The map with fields at new numbers; a number that is taken is an error. -/
def placeFields (location : Location) (acc : SortedMap String) :
    List (Int × String) → Except LoadError (SortedMap String)
  | [] => .ok acc
  | (n, typeName) :: rest =>
    if acc.contains n then .error (.invalid location (.duplicateIndex n))
    else placeFields location (acc.insert n typeName) rest

/-- The fields of a list of type names, counted from `next`; `position` is that in the list. -/
def numberFields (location : Location) (acc : SortedMap String) (next : Int) (position : Nat) :
    List Json → Except LoadError (SortedMap String)
  | [] => .ok acc
  | .str typeName :: rest => do
    let acc ← placeFields location acc [(next, typeName)]
    numberFields location acc (next + 1) (position + 1) rest
  | .obj explicit :: rest => do
    let (fields, next) ← explicitFields (location.join s!"[{position}]") next explicit
    let acc ← placeFields location acc fields
    numberFields location acc next (position + 1) rest
  | _ => .error (.invalid location .fieldExpected)

end DeviceTree.Loading
