import DeviceTree.Json.Basic

/-!
# Outlines

An `Outline` is a document as written, before its sections are told apart. Mappings keep all their
entries, and a scalar has two readings: the text it gives where a text is asked for, and the plain
value it denotes where anything may stand. In one notation every scalar has a text, in another only
quoted ones do, so the two readings are kept apart.
-/

namespace DeviceTree

/-- A key of a mapping. -/
structure Outline.Key where
  name : String
  /-- Whether the key denotes a text, and not a number or another scalar. -/
  isText : Bool

/-- The tree of a document as written. -/
inductive Outline where
  /-- A scalar: its text and its plain value, where it has them. -/
  | scalar (text : Option String) (value : Option Json)
  | list (items : List Outline)
  | mapping (entries : List (Outline.Key × Outline))
deriving Inhabited

namespace Outline

mutual

/-- The outline of plain data: only texts can be read as texts. -/
def ofJson : Json → Outline
  | .str s => .scalar (some s) (some (.str s))
  | .arr items => .list (ofJsonItems items)
  | .obj fields => .mapping (ofJsonFields fields)
  | leaf => .scalar none (some leaf)

/-- The outlines of all items. -/
def ofJsonItems : List Json → List Outline
  | [] => []
  | item :: rest => ofJson item :: ofJsonItems rest

/-- The outlines of all entries. -/
def ofJsonFields : List (String × Json) → List (Key × Outline)
  | [] => []
  | (key, value) :: rest => (⟨key, true⟩, ofJson value) :: ofJsonFields rest

end

mutual

/-- The number of nested lists and mappings. -/
def depth : Outline → Nat
  | .scalar .. => 0
  | .list items => depthOfItems items + 1
  | .mapping entries => depthOfEntries entries + 1

/-- The largest depth of all items. -/
def depthOfItems : List Outline → Nat
  | [] => 0
  | item :: rest => max item.depth (depthOfItems rest)

/-- The largest depth of the nodes of all entries. -/
def depthOfEntries : List (Key × Outline) → Nat
  | [] => 0
  | (_, item) :: rest => max item.depth (depthOfEntries rest)

end

/-- Whether the outline is null. -/
def isNull : Outline → Bool
  | .scalar _ (some .null) => true
  | _ => false

/-- Plain data has no doubles but finite ones: others become null. -/
def finite : Json → Json
  | .double x => if x.isFinite then .double x else .null
  | value => value

mutual

/-- The plain data of an outline, with one entry for each key. With `textKeys`, a key that does not
denote a text is refused. -/
def plain? (textKeys : Bool) : Outline → Option Json
  | .scalar _ value => value.map finite
  | .list items => (plainItems? textKeys items).map .arr
  | .mapping entries =>
    (plainEntries? textKeys entries).map fun fields => .obj (mergeEntries fields)

/-- The plain data of all items. -/
def plainItems? (textKeys : Bool) : List Outline → Option (List Json)
  | [] => some []
  | item :: rest => do
    let value ← item.plain? textKeys
    (plainItems? textKeys rest).map (value :: ·)

/-- The plain data of all entries. -/
def plainEntries? (textKeys : Bool) : List (Key × Outline) → Option (List (String × Json))
  | [] => some []
  | (key, item) :: rest => do
    guard (key.isText || !textKeys)
    let value ← item.plain? textKeys
    (plainEntries? textKeys rest).map ((key.name, value) :: ·)

end

/-- The text of a scalar. -/
def text? : Outline → Option String
  | .scalar text _ => text
  | _ => none

/-- An optional text: null counts as absent. The outer option tells whether it can be read. -/
def optionalText? (o : Outline) : Option (Option String) :=
  if o.isNull then some none else o.text?.map some

/-- An optional truth value: null counts as absent. -/
def optionalBool? : Outline → Option (Option Bool)
  | .scalar _ (some .null) => some none
  | .scalar _ (some (.bool b)) => some (some b)
  | _ => none

/-- The texts of a list. -/
def texts? : List Outline → Option (List String)
  | [] => some []
  | item :: rest => do
    let text ← item.text?
    (texts? rest).map (text :: ·)

/-- An optional list of texts: null counts as absent. -/
def optionalTexts? : Outline → Option (Option (List String))
  | .scalar _ (some .null) => some none
  | .list items => (texts? items).map some
  | _ => none

end Outline

end DeviceTree
