import DeviceTree.AccessLevel
import DeviceTree.Toml.Reader

/-!
# Settings

Settings are read from a TOML document with the sections `log`, `call` and `dummy`. Keys that are
missing have defaults and keys that are not known are ignored; a value of the wrong kind makes the
whole document invalid. A section may also be a list of its values in order.
-/

namespace DeviceTree

/-- What a user may set. -/
structure Settings where
  /-- The least severity of log lines. Any text will do. -/
  logLevel : String := "warn"
  /-- The access level that calls are made with. -/
  access : AccessLevel := .superuser
  /-- The user that calls are made for. -/
  userId : Option String := none
  /-- The seed of generated values; each run has its own if there is none. -/
  seed : Option Nat := none
deriving Repr, DecidableEq, Inhabited

namespace Settings

/-- The values of a section under the given keys, if the value has the form of a section. -/
def section? (keys : List String) : Toml → Option (List (String × Toml))
  | .table _ entries => some entries
  | .array items => some (keys.zip items)
  | .tables earlier latest =>
    some (keys.zip ((earlier ++ [latest]).map (Toml.table .header)))
  | .moment _ => some []
  | _ => none

/-- A text. -/
def text? : Toml → Option String
  | .string s => some s
  | _ => none

/-- A number that is not negative. -/
def natural? : Toml → Option Nat
  | .integer n => if 0 ≤ n then some n.toNat else none
  | _ => none

/-- The value under a key, or the default where there is none; nothing where it cannot be read. -/
def readKey {α : Type} (read : Toml → Option α) (default : α) (key : String)
    (entries : List (String × Toml)) : Option α :=
  match entries.lookup key with
  | some value => read value
  | none => some default

/-- The entries of the section under a key. -/
def readSection (key : String) (keys : List String) (entries : List (String × Toml)) :
    Option (List (String × Toml)) :=
  readKey (section? keys) [] key entries

/-- The settings in the entries of a document. -/
def ofEntries? (entries : List (String × Toml)) : Option Settings := do
  let unset : Settings := {}
  let log ← readSection "log" ["level"] entries
  let call ← readSection "call" ["access", "user_id"] entries
  let dummy ← readSection "dummy" ["seed"] entries
  let access? (value : Toml) := (text? value).bind AccessLevel.ofToken?
  some {
    logLevel := ← readKey text? unset.logLevel "level" log
    access := ← readKey access? unset.access "access" call
    userId := ← readKey (fun value => (text? value).map some) none "user_id" call
    seed := ← readKey (fun value => (natural? value).map some) none "seed" dummy }

/-- The settings written in TOML by `text`. -/
def parse? (text : String) : Option Settings :=
  (Toml.parse? text).bind ofEntries?

theorem ofEntries?_nil : ofEntries? [] = some {} := rfl

end Settings

end DeviceTree
