import DeviceTree.LoadError
import DeviceTree.TypeDef

/-!
# The registry of types

A `Registry` binds names to types, in order of registration. Every registry starts with the core
types and the types predefined from them; `Registry.define` adds a type under a name that is still
free, so what a name means never changes.
-/

namespace DeviceTree

/-- Where a registered type comes from. -/
inductive Origin where
  /-- A reserved name with a kind of its own. -/
  | core
  /-- A reserved name predefined from core types. -/
  | builtin
  /-- Defined by a document. -/
  | custom
deriving Repr, DecidableEq, Inhabited

/-- A type and where it comes from. -/
structure Registry.Entry where
  type : TypeDef
  origin : Origin
deriving BEq, Inhabited

/-- Types by name. -/
structure Registry where
  entries : OrderedMap Registry.Entry
deriving BEq

namespace Registry

/-- The shared type of the parameter of property getters. -/
def getParam : String := "_getParam"

/-- The core types. -/
def coreTypes : List (String × TypeDef) :=
  [("Any", .any), ("Null", .null), ("Bool", .bool), ("Int", .int {}), ("Double", .double {}),
    ("Decimal", .decimal {}), ("String", .string {}), ("Blob", .blob {}), ("DateTime", .dateTime),
    ("List", .list {}), ("Map", .map {}), ("IMap", .imap {})]

/-- The types predefined from core types. -/
def builtinTypes : List (String × TypeDef) :=
  [("Int8", .int (.between (-128) 127)),
    ("Int16", .int (.between (-32768) 32767)),
    ("Int32", .int (.between (-2147483648) 2147483647)),
    ("Int64", .int (.between (-9223372036854775808) 9223372036854775807)),
    ("UInt", .int { minimum := some 0, unsigned := true }),
    ("UInt8", .int (.between 0 255)),
    ("UInt16", .int (.between 0 65535)),
    ("UInt32", .int (.between 0 4294967295)),
    ("UInt64", .int (.between 0 18446744073709551615)),
    ("OptionalString", .union ["Null", "String"]),
    (getParam, .alias "OptionalString")]

/-- The registry without custom types. -/
def fresh : Registry :=
  ⟨.ofList (coreTypes.map (fun (name, type) => (name, ⟨type, .core⟩)) ++
    builtinTypes.map (fun (name, type) => (name, ⟨type, .builtin⟩)))⟩

instance : Inhabited Registry := ⟨fresh⟩

/-- The entry of a name. -/
def entry? (r : Registry) (name : String) : Option Entry :=
  r.entries.get? name

/-- The type bound to a name; aliases are not followed. -/
def get? (r : Registry) (name : String) : Option TypeDef :=
  (r.entry? name).map (·.type)

/-- Whether a name is bound. -/
def contains (r : Registry) (name : String) : Bool :=
  (r.entry? name).isSome

/-- Whether a name is bound to a core or predefined type. -/
def isReserved (r : Registry) (name : String) : Bool :=
  (r.entry? name).any (·.origin != .custom)

/-- All names in order of registration. -/
def names (r : Registry) : List String :=
  r.entries.keys

/-- The number of types. -/
def size (r : Registry) : Nat :=
  r.entries.size

/-- The custom types in order of registration. -/
def customTypes (r : Registry) : List (String × TypeDef) :=
  (r.entries.entries.filter fun (_, e) => e.origin == .custom).map fun (name, e) => (name, e.type)

/-- The registry with a custom type under a free name. -/
def define (r : Registry) (name : String) (type : TypeDef) : Except LoadError Registry :=
  if r.contains name then .error ⟨.ofType name, .duplicateType name⟩
  else .ok ⟨r.entries.insert name ⟨type, .custom⟩⟩

/-- The registry with another body for a name that is bound. -/
def redefine (r : Registry) (name : String) (type : TypeDef) : Registry :=
  match r.entry? name with
  | some e => ⟨r.entries.insert name { e with type }⟩
  | none => r

theorem mem_names_of_get? {r : Registry} {name : String} {type : TypeDef}
    (h : r.get? name = some type) : name ∈ r.names := by
  obtain ⟨e, found, -⟩ := Option.map_eq_some_iff.1 h
  exact OrderedMap.mem_keys_of_get? found

theorem get?_of_bound {r : Registry} {name : String} {e : Entry} (found : r.entry? name = some e) :
    r.get? name = some e.type := by
  rw [get?, found, Option.map_some]

theorem contains_iff {r : Registry} {name : String} :
    r.contains name = true ↔ ∃ type, r.get? name = some type := by
  simp only [contains, get?, Option.isSome_iff_exists, Option.map_eq_some_iff]
  exact ⟨fun ⟨e, found⟩ => ⟨e.type, e, found, rfl⟩, fun ⟨_, e, found, _⟩ => ⟨e, found⟩⟩

theorem mem_customTypes {r : Registry} {name : String} {type : TypeDef} :
    (name, type) ∈ r.customTypes ↔ r.entry? name = some ⟨type, .custom⟩ := by
  rw [ entry?, OrderedMap.get?_eq_some, customTypes, List.mem_map]
  constructor
  · rintro ⟨⟨n, t, o⟩, mem, ⟨⟩⟩
    obtain ⟨mem, custom⟩ := List.mem_filter.1 mem
    obtain rfl : o = .custom := by simpa using custom
    exact mem
  · exact fun mem => ⟨_, List.mem_filter.2 ⟨mem, rfl⟩, rfl⟩

theorem get?_of_mem_customTypes {r : Registry} {name : String} {type : TypeDef}
    (mem : (name, type) ∈ r.customTypes) : r.get? name = some type :=
  get?_of_bound (mem_customTypes.1 mem)

/-- Registering a type binds its name, which was free, and no other. -/
theorem define_eq_ok {r r' : Registry} {name : String} {type : TypeDef}
    (h : r.define name type = .ok r') :
    r.entry? name = none ∧
      ∀ n, r'.entry? n = if n = name then some ⟨type, .custom⟩ else r.entry? n := by
  rw [define] at h
  split at h
  · contradiction
  · next free =>
    cases h
    exact ⟨by simpa [contains] using free, fun n => OrderedMap.get?_insert _ _ _ _⟩

/-- Another body changes one entry, and keeps its origin. -/
theorem entry?_redefine (r : Registry) (name : String) (type : TypeDef) (n : String) :
    Registry.entry? (r.redefine name type) n =
      if n = name then (r.entry? name).map ({ · with type }) else r.entry? n := by
  rw [redefine]
  split
  · next e found =>
    rw [found]
    exact OrderedMap.get?_insert _ _ _ _
  · next absent =>
    split
    · next same => rw [same, absent, Option.map_none]
    · rfl

theorem get?_redefine_self {r : Registry} {name : String} {type : TypeDef}
    (found : r.get? name = some type) (new : TypeDef) :
    (r.redefine name new).get? name = some new := by
  obtain ⟨e, entry, -⟩ := Option.map_eq_some_iff.1 found
  rw [get?, entry?_redefine, if_pos rfl, entry]
  rfl

theorem get?_redefine_of_ne (r : Registry) {name n : String} (new : TypeDef) (other : n ≠ name) :
    (r.redefine name new).get? n = r.get? n := by
  rw [get?, entry?_redefine, if_neg other, get?]

/-! ## What a walk along references has not visited -/

/-- The number of names that a list does not hold. -/
def unvisited (r : Registry) (visited : List String) : Nat :=
  (r.names.filter fun name => !visited.contains name).length

/-- Visiting one more registered name leaves fewer to visit. -/
theorem unvisited_lt {r : Registry} {visited visited' : List String} {name : String}
    (registered : name ∈ r.names) (new : name ∉ visited)
    (grown : ∀ n, n ∈ visited' ↔ n = name ∨ n ∈ visited) :
    r.unvisited visited' < r.unvisited visited := by
  unfold unvisited
  have sub : (r.names.filter fun n => !visited'.contains n) =
      (r.names.filter fun n => !visited.contains n).filter (· != name) := by
    rw [List.filter_filter]
    congr 1
    funext n
    by_cases same : n = name <;> simp [grown, same]
  rw [sub]
  apply List.length_filter_lt_length_iff_exists.2
  exact ⟨name, by simp [registered, new], by simp⟩

end Registry

end DeviceTree
