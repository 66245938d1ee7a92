import DeviceTree.Loading.Bitfields
import DeviceTree.Registry.References

/-!
# The types of a document

Loading declares all names, interprets the specifications in order, and then completes what needs
every type in place: names used as enumerations must denote some, fields of integer maps that are
named by aliases are placed, references are checked, cycles refused, and bitfields laid out.
-/

namespace DeviceTree.Loading

/-- The names that the document declares; one that is taken already is an error. -/
def declareNames (r : Registry) (declared : List String) :
    List String → Except LoadError (List String)
  | [] => .ok declared
  | name :: rest =>
    if r.contains name || declared.contains name then
      .error ⟨.ofType name, .duplicateType name⟩
    else declareNames r (declared ++ [name]) rest

/-- Registers the type that a specification gives. -/
def loadType (name : String) (spec : Json) : LoadM Unit := do
  let type ← specifiedType (.ofType name) name spec
  define name type

/-- The fields of an integer map with those named by aliases put at the values of the aliases. -/
def placeNamed (location : Location) (e : Enumeration) (acc : SortedMap String) :
    List (String × String) → Except LoadError (SortedMap String)
  | [] => .ok acc
  | (name, typeName) :: rest =>
    match e.value? name with
    | none => .error (.invalid (location.join name) .notAnAlias)
    | some n => do
      let acc ← placeFields location acc [(n, typeName)]
      placeNamed location e acc rest

/-- Gives an integer map its fields named by aliases. -/
def completeImap (r : Registry) (name : String) (p : PendingFields) : Except LoadError Registry :=
  match p.enumName with
  | none => .error (.invalid p.location .enumRequired)
  | some enumName => do
    let e ← r.enumeration p.location enumName
    match r.get? name with
    | some (.imap shape) =>
      let fields ← placeNamed p.location e (shape.fields.getD .empty) p.named
      .ok (r.redefine name (.imap { shape with fields := some fields }))
    | _ => .ok r

/-- The registry once everything that waited for other types is done. -/
def complete (s : State) : Except LoadError Registry := do
  s.enumRefs.forM fun (location, name) => discard (s.registry.enumeration location name)
  let r ← s.imaps.foldlM (fun r (name, p) => completeImap r name p) s.registry
  r.checkReferences
  r.checkCycles
  layoutBitfields r s.bitfields

/-- The registry with the types that a document specifies. -/
def loadTypes (types : List (String × Json)) : Except LoadError Registry := do
  let declared ← declareNames .fresh [] (types.map Prod.fst)
  let (_, s) ← (types.forM fun (name, spec) => loadType name spec).run
    { registry := .fresh, declared }
  complete s

end DeviceTree.Loading
