import DeviceTree.Registry.Basic

/-!
# References between types

`checkReferences` finds the first custom type that refers to a name not registered.
`checkCycles` searches depth first for a type that reaches itself. A name on the path of the search
closes a cycle; a name whose references have all been searched is finished and is not searched
again. The path holds each registered name at most once, which bounds the depth.
-/

namespace DeviceTree.Registry

/-- The first reference of a custom type to a name that is not registered is an error. -/
def checkReferences (r : Registry) : Except LoadError Unit :=
  r.customTypes.forM fun (name, type) =>
    match type.references.find? (!r.contains ·) with
    | some missing => .error ⟨.ofType name, .unknownType missing⟩
    | none => .ok ()

/-- The part of a path (in reverse) from `name` on, and `name` again. -/
def cycleThrough (path : List String) (name : String) : List String :=
  path.reverse.dropWhile (· != name) ++ [name]

mutual

/-- Searches from `name` for a cycle and gives the names finished. The names on the path, last one
first, lead to `name`. -/
def searchCycle (r : Registry) (finished path : List String) (name : String) :
    Except LoadError (List String) :=
  if name ∈ finished then .ok finished
  else if _ : name ∈ path then
    .error ⟨.ofType name, .cyclicType name (cycleThrough path name)⟩
  else match _ : r.get? name with
    | none => .ok finished
    | some type => do
      let finished ← r.searchCycles finished (name :: path) type.references
      .ok (name :: finished)
termination_by (r.unvisited path, 0)
decreasing_by
  exact Prod.Lex.left _ _ (unvisited_lt (mem_names_of_get? ‹_›) ‹_› (by simp))

/-- Searches from all names in turn. -/
def searchCycles (r : Registry) (finished path : List String) :
    List String → Except LoadError (List String)
  | [] => .ok finished
  | name :: rest => do
    let finished ← r.searchCycle finished path name
    r.searchCycles finished path rest
termination_by names => (r.unvisited path, names.length + 1)
decreasing_by
  · exact Prod.Lex.right _ (by simp)
  · exact Prod.Lex.right _ (by simp)

end

/-- A custom type that reaches itself by references is an error. -/
def checkCycles (r : Registry) : Except LoadError Unit := do
  let _ ← r.searchCycles [] [] (r.customTypes.map Prod.fst)

end DeviceTree.Registry
