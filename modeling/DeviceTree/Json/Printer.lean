import DeviceTree.Double.Text
import DeviceTree.Json.Basic

/-!
# Writing JSON text

`Json.compact` writes no blanks; `Json.pretty` puts every item and entry on a line of its own,
indented by two spaces for each level. Texts escape quotes, backslashes and control characters only.
-/

namespace DeviceTree.Json

/-- The escape of a control character without a letter of its own. -/
def controlEscape (c : Char) : String :=
  let digit n := (Nat.digitChar n).toString
  "\\u00" ++ digit (c.toNat / 16) ++ digit (c.toNat % 16)

/-- A character inside a quoted text. -/
def escapeChar (c : Char) : String :=
  match c with
  | '"' => "\\\""
  | '\\' => "\\\\"
  | '\n' => "\\n"
  | '\r' => "\\r"
  | '\t' => "\\t"
  | '\x08' => "\\b"
  | '\x0c' => "\\f"
  | _ => if c.toNat < 0x20 then controlEscape c else c.toString

/-- The text in quotes. -/
def quote (s : String) : String :=
  "\"" ++ String.join (s.toList.map escapeChar) ++ "\""

/-- The parts between brackets, separated by commas. -/
def bracket (opening closing : String) (parts : List String) : String :=
  opening ++ String.intercalate "," parts ++ closing

mutual

/-- The text without blanks. -/
def compact : Json → String
  | .null => "null"
  | .bool b => if b then "true" else "false"
  | .int n => toString n
  | .double x => Double.text Double.jsonLayout x
  | .str s => quote s
  | .arr items => bracket "[" "]" (compactItems items)
  | .obj fields => bracket "\x7b" "\x7d" (compactFields fields)

/-- The texts of all items. -/
def compactItems : List Json → List String
  | [] => []
  | item :: rest => item.compact :: compactItems rest

/-- The texts of all entries. -/
def compactFields : List (String × Json) → List String
  | [] => []
  | (key, value) :: rest => (quote key ++ ":" ++ value.compact) :: compactFields rest

end

/-- The start of a line at the given level. -/
def lineStart (level : Nat) : String :=
  "\n".pushn ' ' (2 * level)

/-- The parts on lines of their own at the level inside the brackets; nothing between the brackets
when there are none. -/
def bracketLines (opening closing : String) (level : Nat) (parts : List String) : String :=
  match parts with
  | [] => opening ++ closing
  | _ =>
    opening ++ lineStart (level + 1) ++
      String.intercalate ("," ++ lineStart (level + 1)) parts ++ lineStart level ++ closing

mutual

/-- The text with one item or entry to a line, for a value that starts at the given level. -/
def prettyAt (level : Nat) : Json → String
  | .arr items => bracketLines "[" "]" level (prettyItems (level + 1) items)
  | .obj fields => bracketLines "\x7b" "\x7d" level (prettyFields (level + 1) fields)
  | leaf => leaf.compact

/-- The texts of all items. -/
def prettyItems (level : Nat) : List Json → List String
  | [] => []
  | item :: rest => item.prettyAt level :: prettyItems level rest

/-- The texts of all entries. -/
def prettyFields (level : Nat) : List (String × Json) → List String
  | [] => []
  | (key, value) :: rest =>
    (quote key ++ ": " ++ value.prettyAt level) :: prettyFields level rest

end

/-- The text with one item or entry to a line. -/
def pretty (value : Json) : String :=
  value.prettyAt 0

end DeviceTree.Json
