import DeviceTree.OrderedMap

/-!
# Tables of TOML

A document is a table that grows line by line. Headers and dotted keys lead to tables inside it and
make those that are missing; how a table came to be decides what may still be added to it. A header
opens a table once. A dotted key enters tables made by dotted keys, and those only implied by the
headers of others, but puts nothing directly into the latter. Written values are closed.
-/

namespace DeviceTree

namespace Toml

/-- How a table came to be. -/
inductive Origin where
  /-- Opened by its own header. -/
  | header
  /-- Passed by the header of another table. -/
  | implied
  /-- Passed by a dotted key. -/
  | dotted
  /-- Written as a value in braces. -/
  | closed
deriving Repr, DecidableEq

end Toml

/-- A value of TOML. -/
inductive Toml where
  | string (s : String)
  | integer (n : Int)
  | float (x : Float)
  | bool (b : Bool)
  /-- A date, a time of day or both, as written. -/
  | moment (text : String)
  /-- A list in brackets. -/
  | array (items : List Toml)
  | table (origin : Toml.Origin) (entries : List (String × Toml))
  /-- The tables under one repeated header, the last of them apart. -/
  | tables (earlier : List (List (String × Toml))) (latest : List (String × Toml))
deriving Inhabited

namespace Toml

/-- Changes the table that the path of a header leads to. Tables that are missing are made; of
several tables under one header, the path means the last. -/
def within (change : List (String × Toml) → Option (List (String × Toml))) :
    (path : List String) → List (String × Toml) → Option (List (String × Toml))
  | [], entries => change entries
  | key :: path, entries => do
    let place (value : Toml) := putEntry key value entries
    match entries.lookup key with
    | none => (within change path []).map fun inner => place (.table .implied inner)
    | some (.table .closed _) => none
    | some (.table origin inner) =>
      (within change path inner).map fun inner => place (.table origin inner)
    | some (.tables earlier latest) =>
      (within change path latest).map fun latest => place (.tables earlier latest)
    | some _ => none

/-- Opens the table under a key by its header. -/
def openTable (key : String) (entries : List (String × Toml)) : Option (List (String × Toml)) :=
  match entries.lookup key with
  | none => some (putEntry key (.table .header []) entries)
  | some (.table .implied inner) => some (putEntry key (.table .header inner) entries)
  | some _ => none

/-- Opens one more table under a key by its repeated header. -/
def openNext (key : String) (entries : List (String × Toml)) : Option (List (String × Toml)) :=
  match entries.lookup key with
  | none => some (putEntry key (.tables [] []) entries)
  | some (.tables earlier latest) => some (putEntry key (.tables (earlier ++ [latest]) []) entries)
  | some _ => none

/-- Puts a value under a dotted key, which must be free. -/
def put (value : Toml) :
    (path : List String) → List (String × Toml) → Option (List (String × Toml))
  | [], _ => none
  | [key], entries =>
    match entries.lookup key with
    | none => some (putEntry key value entries)
    | some _ => none
  | key :: next :: path, entries =>
    let place (value : Toml) := putEntry key value entries
    match entries.lookup key with
    | none => (put value (next :: path) []).map fun inner => place (.table .dotted inner)
    | some (.table .dotted inner) =>
      (put value (next :: path) inner).map fun inner => place (.table .dotted inner)
    | some (.table .implied inner) =>
      if path.isEmpty then none
      else (put value (next :: path) inner).map fun inner => place (.table .implied inner)
    | some (.tables earlier latest) =>
      if path.isEmpty then none
      else (put value (next :: path) latest).map fun latest => place (.tables earlier latest)
    | some _ => none

end Toml

end DeviceTree
