import DeviceTree.Document.Outline
import DeviceTree.Yaml.BlockText
import DeviceTree.Yaml.Flowing
import DeviceTree.Yaml.Scalar

/-!
# Reading YAML text

The reader follows indentation. The node of a key or an item stands deeper than the key or the dash;
only the items of a list may stand at the column of the key it belongs to. Brackets suspend
indentation. A scalar that is followed on its line by a colon is the first key of a mapping.

Lists, mappings, comments, scalars of all styles, anchors and aliases are read; tags, directives,
keys that are no scalars and texts of several documents are refused.
-/

namespace DeviceTree.Yaml

/-- Where the reader stands, and the nodes that have names. -/
structure State where
  cursor : Cursor
  anchors : List (String × Outline) := []

/-- Computations of the reader. -/
abbrev ReadM := StateT State Option

/-- The node of a place where nothing is written. -/
def emptyNode : Outline :=
  .scalar (some "") (some .null)

/-- The node of a scalar in quotes or of a block text. -/
def textNode (text : String) : Outline :=
  .scalar (some text) (some (.str text))

/-- The node of a plain scalar. -/
def plainNode (text : String) : Outline :=
  .scalar (some text) (plainValue? text)

/-- The key that a node is. -/
def keyOf? : Outline → Option Outline.Key
  | .scalar (some name) value =>
    some { name, isText := match value with
      | some (.str _) => true
      | _ => false }
  | _ => none

/-- The place of the reader. -/
def here : ReadM Cursor := do
  return (← get).cursor

/-- Goes to a place. -/
def goto (cursor : Cursor) : ReadM Unit :=
  modify fun s => { s with cursor }

/-- Goes to the next place that is no blank and no comment, and gives it. -/
def skip (flow : Bool) : ReadM Cursor := do
  let c := (← here).skip flow
  goto c
  pure c

/-- Goes past one character. -/
def pass (fresh : Bool) : ReadM Unit := do
  goto ((← here).advance 1 fresh)

/-- Names a node. -/
def bindAnchor (anchor : Option String) (node : Outline) : ReadM Unit :=
  match anchor with
  | some name => modify fun s => { s with anchors := (name, node) :: s.anchors }
  | none => pure ()

/-- Characters of the names of nodes. -/
def isNameChar (c : Char) : Bool :=
  c.isAlphanum || c == '-' || c == '_'

/-- Reads the name after `&` or `*`. -/
def readName : ReadM String := do
  let c ← here
  let name := (c.rest.drop 1).takeWhile isNameChar
  let after := c.rest.drop (1 + name.length)
  guard (!name.isEmpty && (endsWord after || after.head?.any "?:,]\x7d%@`".toList.contains))
  goto (c.advance (1 + name.length) false)
  pure (String.ofList name)

/-- Reads the anchor of a node, if there is one. -/
def readAnchor : ReadM (Option String) := do
  match (← here).rest with
  | '&' :: _ => some <$> readName
  | _ => pure none

/-- Goes to where a scan has stopped, and gives what it has read. -/
def scanned (scan : Option (List Char × Cursor)) : ReadM String := do
  match scan with
  | some (text, c) =>
    goto c
    pure (String.ofList text)
  | none => failure

/-- Reads a quoted or plain scalar, a block text or an alias. Tells whether it can be a key. -/
def readScalar (flow : Bool) (parent : Int) : ReadM (Outline × Bool) := do
  let c ← here
  match c.rest with
  | '*' :: _ =>
    let name ← readName
    match (← get).anchors.lookup name with
    | some node => pure (node, true)
    | none => failure
  | '\'' :: rest =>
    let text ← scanned (singleFrom [] .none c.line (c.column + 1) rest)
    pure (textNode text, true)
  | '"' :: rest =>
    let text ← scanned (doubleFrom [] .none c.line (c.column + 1) rest)
    pure (textNode text, true)
  | rest =>
    if !flow && (rest.head? == some '|' || rest.head? == some '>') then
      match readBlockText? (rest.head? == some '>') parent (c.advance 1 false) with
      | some (text, after) =>
        goto after
        pure (textNode text, false)
      | none => failure
    else
      guard (startsPlain flow rest)
      let text ← scanned (plainFrom flow (parent + 1).toNat [] .none c.line c.column rest)
      pure (plainNode text, true)

/-- Whether a node is complete before this place: at the end of the document or at a line that is
indented less than `column`. -/
def closes (c : Cursor) (column : Nat) : Bool :=
  c.atEnd || c.atMarker || c.column < column

mutual

/-- Reads what stands at one place: a collection in brackets, or a scalar. Tells whether it can be
a key. -/
def readInline : (budget : Nat) → (flow : Bool) → (parent : Int) → ReadM (Outline × Bool)
  | 0, _, _ => failure
  | budget + 1, flow, parent => do
    match (← here).rest with
    | '[' :: _ =>
      pass false
      let items ← readFlowItems budget
      pure (.list items, true)
    | '\x7b' :: _ =>
      pass false
      let entries ← readFlowEntries budget
      pure (.mapping entries, true)
    | _ => readScalar flow parent

/-- Reads a node inside brackets. -/
def readFlowNode : (budget : Nat) → ReadM Outline
  | 0 => failure
  | budget + 1 => do
    let _ ← skip true
    let anchor ← readAnchor
    let c ← skip true
    let node ←
      if anchor.isSome && c.rest.head?.any fun mark => ",]\x7d".toList.contains mark then
        pure emptyNode
      else Prod.fst <$> readInline budget true (-1)
    bindAnchor anchor node
    pure node

/-- Reads the value after a colon inside brackets; it may be missing. -/
def readFlowValue : (budget : Nat) → ReadM Outline
  | 0 => failure
  | budget + 1 => do
    pass false
    let c ← skip true
    if c.rest.head?.any fun mark => ",]\x7d".toList.contains mark then pure emptyNode
    else readFlowNode budget

/-- Reads the items of a list in brackets, up to the closing one. An item may be a single entry of a
mapping. -/
def readFlowItems : (budget : Nat) → ReadM (List Outline)
  | 0 => failure
  | budget + 1 => do
    let start ← skip true
    if start.rest.head? == some ']' then
      pass false
      pure []
    else
      let node ← readFlowNode budget
      let c ← skip true
      let item ←
        if c.line == start.line && c.atColon true then do
          let some key := keyOf? node | failure
          let value ← readFlowValue budget
          pure (.mapping [(key, value)])
        else pure node
      let c ← skip true
      match c.rest with
      | ',' :: _ =>
        pass false
        let items ← readFlowItems budget
        pure (item :: items)
      | ']' :: _ =>
        pass false
        pure [item]
      | _ => failure

/-- Reads the entries of a mapping in brackets, up to the closing one. A key may have no value. -/
def readFlowEntries : (budget : Nat) → ReadM (List (Outline.Key × Outline))
  | 0 => failure
  | budget + 1 => do
    let start ← skip true
    if start.rest.head? == some '\x7d' then
      pass false
      pure []
    else
      let node ← readFlowNode budget
      let some key := keyOf? node | failure
      let c ← skip true
      let value ←
        if c.line == start.line && c.atColon true then readFlowValue budget else pure emptyNode
      let c ← skip true
      match c.rest with
      | ',' :: _ =>
        pass false
        let entries ← readFlowEntries budget
        pure ((key, value) :: entries)
      | '\x7d' :: _ =>
        pass false
        pure [(key, value)]
      | _ => failure

/-- Reads the node of something at column `parent`. Under a key, a list may stand at the column of
the key. -/
def readNode : (budget : Nat) → (parent : Int) → (underKey : Bool) → ReadM Outline
  | 0, _, _ => failure
  | budget + 1, parent, underKey => do
    let start ← skip false
    let level := underKey && start.column == parent && start.atDash
    if start.atEnd || start.atMarker || (start.column ≤ parent && !level) then pure emptyNode
    else if start.atDash then
      guard start.fresh
      .list <$> readItems budget start.column level
    else
      let anchor ← readAnchor
      let c ← skip false
      if anchor.isSome && (c.atEnd || c.line != start.line) then
        let node ← readNode budget parent underKey
        bindAnchor anchor node
        pure node
      else
        let (node, keyable) ← readInline budget false parent
        bindAnchor anchor node
        let after ← skip false
        if keyable && after.line == start.line && after.atColon false then
          guard start.fresh
          let some key := keyOf? node | failure
          .mapping <$> readEntries budget start.column key
        else pure node

/-- Reads the items of a list whose dashes are at `column`. A list at the column of its key ends
where the next key stands. -/
def readItems : (budget column : Nat) → (level : Bool) → ReadM (List Outline)
  | 0, _, _ => failure
  | budget + 1, column, level => do
    pass true
    let item ← readNode budget column false
    let c ← skip false
    if closes c column || (level && c.column == column && !c.atDash) then pure [item]
    else
      guard (c.column == column && c.atDash)
      let items ← readItems budget column level
      pure (item :: items)

/-- Reads the entries of a mapping with keys at `column`, from the colon after the first key. -/
def readEntries : (budget column : Nat) → Outline.Key → ReadM (List (Outline.Key × Outline))
  | 0, _, _ => failure
  | budget + 1, column, key => do
    pass false
    let value ← readNode budget column true
    let start ← skip false
    if closes start column then pure [(key, value)]
    else
      guard (start.column == column && start.fresh && !start.atDash)
      let anchor ← readAnchor
      let _ ← skip false
      let (node, keyable) ← readInline budget false column
      bindAnchor anchor node
      let c ← skip false
      guard (keyable && c.line == start.line && c.atColon false)
      let some next := keyOf? node | failure
      let entries ← readEntries budget column next
      pure ((key, value) :: entries)

end

/-- Reads the only document of a text. -/
def readDocument (budget : Nat) : ReadM Outline := do
  let c ← skip false
  if c.atMarkerOf '-' then goto (c.advance 3 false)
  let node ← readNode budget (-1) false
  let c ← skip false
  if c.atMarkerOf '.' then goto (c.advance 3 false)
  let c ← skip false
  guard c.atEnd
  pure node

/-- The text with every line end as one character. -/
def unifyBreaks : List Char → List Char
  | [] => []
  | '\r' :: '\n' :: rest => '\n' :: unifyBreaks rest
  | c :: rest => (if c == '\r' || c == '\u0085' then '\n' else c) :: unifyBreaks rest

/-- Whether a character may stand in a text. -/
def isPrintable (c : Char) : Bool :=
  c == '\t' || c == '\n' || (' ' ≤ c && c ≤ '~') ||
    (c ≥ '\u00a0' && c != '\uffff' && c != '\ufffe' && c != '\ufeff')

/-- The largest number of nested lists and mappings. -/
def nestingLimit : Nat := 128

/-- The outline of a YAML text. -/
def parse? (text : String) : Option Outline := do
  let cs := match text.toList with
    | '\ufeff' :: rest => rest
    | cs => cs
  let cs := unifyBreaks cs
  guard (cs.all isPrintable)
  let (node, _) ← (readDocument (4 * cs.length + 4)).run { cursor := { rest := cs } }
  guard (node.depth ≤ nestingLimit)
  pure node

end DeviceTree.Yaml
