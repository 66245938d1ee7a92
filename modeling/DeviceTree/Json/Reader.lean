import DeviceTree.Json.Token

/-!
# Reading JSON text

The reader is a machine over tokens with a stack of open lists and mappings. It accepts the strict
grammar and a limited number of open containers, and keeps every entry of a mapping, repeated keys
too.
-/

namespace DeviceTree.Json

/-- A container that is still open; its parts so far in reverse. -/
inductive Frame where
  | list (items : List Json)
  /-- A mapping whose entry under `key` is being read. -/
  | mapping (fields : List (String × Json)) (key : String)

/-- What the reader expects next. -/
inductive Reader where
  /-- A value; `first` right after an opening bracket, where the list may end as well. -/
  | value (stack : List Frame) (first : Bool)
  /-- A key of the innermost mapping, whose earlier entries are given. -/
  | key (stack : List Frame) (fields : List (String × Json)) (first : Bool)
  | colon (stack : List Frame) (fields : List (String × Json)) (key : String)
  /-- A comma or the end of the innermost container. -/
  | more (stack : List Frame)
  | finished (result : Json)

/-- The reader after a complete value. -/
def complete (stack : List Frame) (value : Json) : Reader :=
  match stack with
  | [] => .finished value
  | .list items :: rest => .more (.list (value :: items) :: rest)
  | .mapping fields key :: rest => .more (.mapping ((key, value) :: fields) key :: rest)

/-- The reader at the start of a value, with at most `limit` containers open. -/
def beginValue (limit : Nat) (stack : List Frame) (token : Token) : Option Reader :=
  match token with
  | .text s => some (complete stack (.str s))
  | .scalar value => some (complete stack value)
  | .openList => if stack.length < limit then some (.value (.list [] :: stack) true) else none
  | .openMapping => if stack.length < limit then some (.key stack [] true) else none
  | _ => none

/-- One step of the reader. -/
def Reader.step (limit : Nat) (reader : Reader) (token : Token) : Option Reader :=
  match reader, token with
  | .value (.list _ :: rest) true, .closeList => some (complete rest (.arr []))
  | .value stack _, token => beginValue limit stack token
  | .key stack fields _, .text name => some (.colon stack fields name)
  | .key stack _ true, .closeMapping => some (complete stack (.obj []))
  | .colon stack fields name, .colon => some (.value (.mapping fields name :: stack) false)
  | .more (.list items :: rest), .comma => some (.value (.list items :: rest) false)
  | .more (.list items :: rest), .closeList => some (complete rest (.arr items.reverse))
  | .more (.mapping fields _ :: rest), .comma => some (.key rest fields false)
  | .more (.mapping fields _ :: rest), .closeMapping => some (complete rest (.obj fields.reverse))
  | _, _ => none

/-- The tree of a JSON text with at most `limit` containers open at once, repeated keys kept. -/
def parseWithin? (limit : Nat) (text : String) : Option Json := do
  let tokens ← Mode.between.tokens? text.toList
  match ← tokens.foldlM (Reader.step limit) (.value [] false) with
  | .finished result => some result
  | _ => none

/-- The largest number of open containers in a document. -/
def nestingLimit : Nat := 127

/-- The tree of a JSON text, with repeated keys kept. -/
def parseRaw? (text : String) : Option Json :=
  parseWithin? nestingLimit text

/-- The tree of a JSON text, with one entry for each key. -/
def parse? (text : String) : Option Json :=
  (parseRaw? text).map merged

end DeviceTree.Json
