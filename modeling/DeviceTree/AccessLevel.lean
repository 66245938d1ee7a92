/-!
# Access levels

The nine tiers of privilege in their order, and the tokens they are written by.
-/

namespace DeviceTree

/-- A tier of privilege. -/
inductive AccessLevel where
  | browse
  | read
  | write
  | command
  | config
  | service
  | superService
  | developer
  | superuser
deriving Repr, DecidableEq, Inhabited

namespace AccessLevel

/-- All levels, the lowest first. -/
def all : List AccessLevel :=
  [browse, read, write, command, config, service, superService, developer, superuser]

/-- The place of a level in the order of privilege. -/
def rank : AccessLevel → Nat
  | browse => 0
  | read => 1
  | write => 2
  | command => 3
  | config => 4
  | service => 5
  | superService => 6
  | developer => 7
  | superuser => 8

/-- The text of a level. -/
def token : AccessLevel → String
  | browse => "bws"
  | read => "rd"
  | write => "wr"
  | command => "cmd"
  | config => "cfg"
  | service => "srv"
  | superService => "ssrv"
  | developer => "dev"
  | superuser => "su"

/-- The level written by a text. -/
def ofToken? (text : String) : Option AccessLevel :=
  all.find? (·.token == text)

/-- What is said of a text that is no level. -/
def unknown (text : String) : String :=
  s!"unknown access level '{text}'"

/-- Whether who holds a level may call what requires another. -/
def grants (held required : AccessLevel) : Bool :=
  required.rank ≤ held.rank

theorem ofToken?_token (level : AccessLevel) : ofToken? level.token = some level := by
  cases level <;> decide

end AccessLevel

end DeviceTree
