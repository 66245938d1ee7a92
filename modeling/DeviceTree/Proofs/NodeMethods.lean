import DeviceTree.Proofs.Listings

/-!
# The methods of a node

Which methods a node has is said by its entry in the document: the accessors of its property, the
methods that it declares, and one that reads its description, in that order. `ofDocument_methods`
says that a loaded node has these and no others, each found under its name.

A node cannot declare a method that has the name of an accessor. Accessors that its settings do not
ask for leave their names free: those of read only properties the name `set`, those without a change
signal, or with one of another name, the name `chng` (`ofDocument_excludes`, `hallDocument_loads`).
-/

namespace DeviceTree

open Loading

/-! ## Methods that are asked for -/

/-- The name of the change signal that the settings of a property ask for. -/
def NodeSpec.signalName? (spec : NodeSpec) : Option String :=
  match spec.signal with
  | none => if spec.readonly = some true then none else some "chng"
  | some (.enabled true) => some "chng"
  | some (.enabled false) => none
  | some (.named name) => some name

/-- The methods that a node has for its property. -/
def NodeSpec.accessors (spec : NodeSpec) : List Method :=
  match spec.property with
  | none => []
  | some type =>
    let getter : Method :=
      { name := "get", param := Registry.getParam, result := type, access := .read,
        flags := { getter := true }, origin := .property }
    let setter : Method :=
      { name := "set", param := type, result := "Null", access := .write,
        flags := { setter := true }, origin := .property }
    let signal (name : String) : Method :=
      { name, param := "Null", result := type, access := .read, flags := { signal := true },
        origin := .property }
    [getter] ++ (if spec.readonly = some true then [] else [setter]) ++
      (spec.signalName?.map signal).toList

/-- The method is the one that is declared under the name: a token gives its level, and texts its
flags. -/
structure MethodSpec.Declares (spec : MethodSpec) (name : String) (m : Method) : Prop where
  name : m.name = name
  param : m.param = spec.param.getD "Null"
  result : m.result = spec.result.getD "Null"
  access : m.access.token = spec.access.getD "bws"
  known : ∀ text ∈ spec.flags.getD [], (MethodFlag.ofName? text).isSome = true
  flags : ∀ flag, m.flags.has flag = true ↔
    ∃ text ∈ spec.flags.getD [], MethodFlag.ofName? text = some flag
  description : m.description = spec.description.getD ""
  origin : m.origin = .declared

/-- The method that a node has for its description, if there is one and no other method has its
name. -/
def NodeSpec.describer (spec : NodeSpec) (others : List Method) : List Method :=
  let description := spec.description.getD ""
  if description = "" ∨ "desc" ∈ others.map (·.name) then []
  else
    [{ name := "desc", param := "Null", result := "String", access := .browse,
       flags := { getter := true, largeResultHint := 1024 < description.length },
       origin := .description }]

/-- The node has the methods that its entry asks for, each under its own name. -/
structure Node.Equipped (n : Node) (spec : NodeSpec) : Prop where
  methods : ∃ declared, List.Forall₂ (fun p m => p.2.Declares p.1 m) spec.methods declared ∧
    n.methods = spec.accessors ++ declared ++ spec.describer (spec.accessors ++ declared)
  distinct : (n.methods.map (·.name)).Nodup

theorem MethodSpec.names_of_declares {specs : List (String × MethodSpec)} {declared : List Method}
    (each : List.Forall₂ (fun p m => p.2.Declares p.1 m) specs declared) :
    declared.map (·.name) = specs.map Prod.fst := by
  induction each with
  | nil => rfl
  | cons first _ ih => rw [List.map_cons, List.map_cons, first.name, ih]

/-- The names of the methods that an entry asks for. -/
theorem Node.Equipped.names {n : Node} {spec : NodeSpec} (h : n.Equipped spec) :
    let before := spec.accessors.map (·.name) ++ spec.methods.map Prod.fst
    n.methods.map (·.name) = before ++
      if spec.description.getD "" = "" ∨ "desc" ∈ before then [] else ["desc"] := by
  intro before
  obtain ⟨⟨declared, each, all⟩, -⟩ := h
  have same : (spec.accessors ++ declared).map (·.name) = before := by
    rw [List.map_append, MethodSpec.names_of_declares each]
  rw [all, List.map_append, same, NodeSpec.describer, same]
  exact congrArg (before ++ ·) (apply_ite (List.map Method.name) ..)

namespace Loading

variable {r : Registry} {l : Location} {spec : NodeSpec}

theorem changeSignal_eq_signalName? {signal : Option String}
    (h : changeSignal l (spec.readonly.getD false) spec.signal = .ok signal) :
    signal = spec.signalName? := by
  rw [NodeSpec.signalName?]
  rcases set : spec.signal with _ | ⟨_ | _⟩ | name
  · rw [set] at h
    cases h
    rcases spec.readonly with _ | _ | _ <;> rfl
  · rw [set] at h
    cases h
    rfl
  · rw [set] at h
    cases h
    rfl
  · rw [set] at h
    obtain ⟨_, -, h⟩ := bind_eq_ok.1 h
    cases h
    rfl

theorem propertyMethods_eq_accessors {type : String} {p : Property}
    (given : spec.property = some type) (h : propertyOf r l type spec = .ok p) :
    propertyMethods p = spec.accessors := by
  obtain ⟨typeName, named, h⟩ := bind_eq_ok.1 h
  obtain ⟨signal, asked, h⟩ := bind_eq_ok.1 h
  cases h
  obtain ⟨rfl, -⟩ := typeName_eq_ok named
  rw [NodeSpec.accessors, given, ← changeSignal_eq_signalName? asked]
  rcases spec.readonly with _ | _ | _ <;> rfl

/-- The methods of a property are those its settings ask for, and none of them is declared. -/
theorem nodeProperty_accessors {p? : Option Property} {methods : List Method}
    (h : nodeProperty r l spec = .ok (p?, methods)) :
    methods = spec.accessors ∧ ∀ m ∈ methods, m.name ∉ spec.methods.map Prod.fst := by
  rw [nodeProperty] at h
  split at h
  · next type given =>
    obtain ⟨p, ok, h⟩ := bind_eq_ok.1 h
    obtain ⟨methods', added, h⟩ := bind_eq_ok.1 h
    cases h
    obtain ⟨rfl, -, free⟩ := addPropertyMethods_eq_ok added
    exact ⟨propertyMethods_eq_accessors given ok, free⟩
  · next none =>
    obtain ⟨_, -, h⟩ := bind_eq_ok.1 h
    cases h
    rw [NodeSpec.accessors, none]
    exact ⟨rfl, List.forall_mem_nil _⟩

/-- Methods that are declared do not matter to the property if none of them is an accessor. -/
theorem addPropertyMethods_of_free {declared : List String} {acc methods : List Method}
    (free : ∀ m ∈ methods, m.name ∉ declared) :
    addPropertyMethods l declared acc methods = addPropertyMethods l [] acc methods := by
  induction methods generalizing acc with
  | nil => rfl
  | cons m rest ih =>
    rw [List.forall_mem_cons] at free
    simp only [addPropertyMethods, ih free.2, List.contains_eq_mem, free.1, List.not_mem_nil]

theorem nodeProperty_of_free
    (free : ∀ m ∈ spec.accessors, m.name ∉ spec.methods.map Prod.fst) :
    nodeProperty r l spec = nodeProperty r l { spec with methods := [] } := by
  rcases given : spec.property with _ | type
  · simp only [nodeProperty, given]
  · simp only [nodeProperty, given]
    have same : propertyOf r l type { spec with property := some type, methods := [] } =
      propertyOf r l type spec := rfl
    rw [same]
    rcases made : propertyOf r l type spec with e | p
    · rfl
    · rw [← propertyMethods_eq_accessors given made] at free
      exact congrArg (· >>= fun methods => .ok (some p, methods)) (addPropertyMethods_of_free free)

theorem accessLevel_token {token? : Option String} {level : AccessLevel}
    (h : accessLevel l token? = .ok level) : level.token = token?.getD "bws" := by
  cases token? with
  | none =>
    cases h
    rfl
  | some token =>
    rw [accessLevel] at h
    split at h
    · next level' found =>
      cases h
      simpa using List.find?_some found
    · contradiction

/-- The flags are those from before and those that the texts name. -/
theorem methodFlags_eq_ok {acc flags : MethodFlags} {texts : List String}
    (h : methodFlags l acc texts = .ok flags) :
    (∀ text ∈ texts, (MethodFlag.ofName? text).isSome = true) ∧
      ∀ flag, flags.has flag = true ↔
        acc.has flag = true ∨ ∃ text ∈ texts, MethodFlag.ofName? text = some flag := by
  induction texts generalizing acc with
  | nil =>
    cases h
    simp
  | cons text rest ih =>
    rw [methodFlags] at h
    split at h
    · next flag named =>
      obtain ⟨known, union⟩ := ih h
      refine ⟨List.forall_mem_cons.2 ⟨by rw [named, Option.isSome_some], known⟩, fun flag' => ?_⟩
      rw [union, MethodFlags.has_insert, Bool.or_eq_true, decide_eq_true_eq]
      simp only [List.mem_cons, exists_eq_or_imp, named, Option.some.injEq]
      tauto
    · contradiction

theorem typeNameOrNull_eq_ok {name? : Option String} {name : String}
    (h : typeNameOrNull r l name? = .ok name) : name = name?.getD "Null" := by
  cases name? with
  | none =>
    cases h
    rfl
  | some given => exact (typeName_eq_ok h).1

theorem declaredMethod_declares {name : String} {spec : MethodSpec} {m : Method}
    (h : declaredMethod r l name spec = .ok m) : spec.Declares name m := by
  obtain ⟨-, -, param, result, access, flags, readParam, readResult, readAccess, readFlags, rfl⟩ :=
    declaredMethod_eq_ok h
  obtain ⟨known, union⟩ := methodFlags_eq_ok readFlags
  exact
    { name := rfl
      param := typeNameOrNull_eq_ok readParam
      result := typeNameOrNull_eq_ok readResult
      access := accessLevel_token readAccess
      known
      flags := fun flag => (union flag).trans (or_iff_right (by cases flag <;> decide))
      description := rfl
      origin := rfl }

theorem withDescription_describer (methods : List Method) :
    withDescription (spec.description.getD "") methods = methods ++ spec.describer methods := by
  rw [withDescription, NodeSpec.describer]
  simp only [Bool.or_eq_true, String.isEmpty_iff, List.any_eq_true, beq_iff_eq, List.mem_map]
  split
  · exact (List.append_nil _).symm
  · rfl

theorem bareNode_equipped {parent name : String} {n : Node}
    (h : bareNode r l parent name spec = .ok n) :
    n.Equipped spec ∧ ∀ m ∈ spec.accessors, m.name ∉ spec.methods.map Prod.fst := by
  have distinct := (bareNode_named h).1.distinct
  obtain ⟨-, -, p?, methods, all, ok, added, rfl⟩ := bareNode_steps h
  obtain ⟨rfl, free⟩ := nodeProperty_accessors ok
  obtain ⟨declared, rfl, each, -⟩ := addDeclaredMethods_eq_ok added
  have declares := each.imp fun p m ok => declaredMethod_declares ok
  exact ⟨⟨⟨declared, declares, withDescription_describer _⟩, distinct⟩, free⟩

end Loading

/-! ## Nodes of loaded trees -/

/-- The settings of the property ask for an accessor of the name. -/
def NodeSpec.AsksFor (spec : NodeSpec) (name : String) : Prop :=
  spec.property.isSome = true ∧
    (name = "get" ∨ (name = "set" ∧ spec.readonly ≠ some true) ∨ spec.signalName? = some name)

theorem NodeSpec.asksFor_iff {spec : NodeSpec} {name : String} :
    spec.AsksFor name ↔ ∃ m ∈ spec.accessors, m.name = name := by
  rcases given : spec.property with _ | type
  · simp [AsksFor, accessors, given]
  simp only [AsksFor, accessors, given, List.mem_append, List.mem_singleton, List.mem_ite_nil_left,
    Option.mem_toList, Option.map_eq_some_iff, Option.isSome_some, true_and]
  constructor
  · rintro (rfl | ⟨rfl, writable⟩ | asked)
    · exact ⟨_, .inl (.inl rfl), rfl⟩
    · exact ⟨_, .inl (.inr ⟨writable, rfl⟩), rfl⟩
    · exact ⟨_, .inr ⟨name, asked, rfl⟩, rfl⟩
  · rintro ⟨_, (rfl | ⟨writable, rfl⟩) | ⟨name, asked, rfl⟩, rfl⟩
    · exact .inl rfl
    · exact .inr (.inl ⟨rfl, writable⟩)
    · exact .inr (.inr asked)

namespace Tree

variable {document : Document} {t : Tree}

/-- The nodes of a loaded tree but the root have the methods that their entries ask for, each of
which is found under its name, as are all methods that the entry declares. -/
theorem ofDocument_methods (loads : ofDocument document = .ok t) :
    ∃ below, t.nodes = t.root :: below ∧ t.root.methods = [] ∧
      List.Forall₂ (fun e n => n.path = "/".intercalate e.1 ∧ n.Equipped e.2 ∧
          (∀ m ∈ n.methods, n.method? m.name = some m) ∧
          ∀ p ∈ e.2.methods, ∃ m, n.method? p.1 = some m ∧ p.2.Declares p.1 m)
        document.entries below := by
  obtain ⟨bare, -, -⟩ := ofDocument_entries loads
  obtain ⟨⟨below, nodes, -, -, entries⟩, -⟩ := ofDocument_nodes loads
  refine ⟨below, nodes, bare, entries.imp fun e n h => ?_⟩
  obtain ⟨path, -, -, l, parent, made⟩ := h
  have named := (bareNode_named made).1
  obtain ⟨⟨⟨declared, each, all⟩, distinct⟩, -⟩ := bareNode_equipped made
  have found : ∀ m ∈ n.methods, n.method? m.name = some m := fun m mem =>
    named.method?_eq_some.2 ⟨mem, rfl⟩
  refine ⟨path, ⟨⟨declared, each, all⟩, distinct⟩, found, fun p mem => ?_⟩
  obtain ⟨m, inside, declares⟩ := exists_entry_of_mem each.flip mem
  refine ⟨m, declares.name ▸ found m ?_, declares⟩
  rw [all]
  exact List.mem_append_left _ (List.mem_append_right _ inside)

/-- A document does not load if a node declares a method that has the name of one of its accessors.
The other names are free: methods of these names do not matter to the property. -/
theorem ofDocument_excludes (document : Document) : ∀ e ∈ document.entries,
    (∀ name ∈ e.2.methods.map Prod.fst, e.2.AsksFor name →
      ∃ error, ofDocument document = .error error) ∧
    ((∀ name ∈ e.2.methods.map Prod.fst, ¬ e.2.AsksFor name) →
      ∀ r l, nodeProperty r l e.2 = nodeProperty r l { e.2 with methods := [] }) := by
  refine fun e mem => ⟨fun name declared asks => ?_, fun free r l => ?_⟩
  · obtain ⟨accessor, needed, rfl⟩ := NodeSpec.asksFor_iff.1 asks
    rcases loads : ofDocument document with error | t
    · exact ⟨error, rfl⟩
    -- A tree would have a node for the entry, which has no method twice.
    · obtain ⟨⟨below, -, -, -, entries⟩, -⟩ := ofDocument_nodes loads
      obtain ⟨n, -, -, -, -, l, parent, made⟩ := exists_entry_of_mem entries.flip mem
      exact absurd declared ((bareNode_equipped made).2 accessor needed)
  · refine nodeProperty_of_free fun accessor needed declared => ?_
    exact free _ declared (NodeSpec.asksFor_iff.2 ⟨accessor, needed, rfl⟩)

end Tree

/-- The entry of a meter, with a property, a declared method, and a description. -/
def meterSpec : NodeSpec :=
  { property := some "Bool"
    signal := some (.named "lit")
    methods := [("reset", { access := some "cmd" })]
    description := some "Flow" }

/-- The meter has the accessors of its property, the declared method and the one that reads its
description, and each is found under its name. -/
theorem meterSpec_methods :
    ∃ t, Tree.ofDocument { nodes := [("meter", meterSpec)] } = .ok t ∧ ∃ n, t.nodes = [t.root, n] ∧
      n.methods.map (·.name) = ["get", "set", "lit", "reset", "desc"] ∧
      (∃ m, n.method? "reset" = some m ∧ m.access = .command) ∧
      ∀ m ∈ n.methods, n.method? m.name = some m := by
  have run : (Tree.ofDocument { nodes := [("meter", meterSpec)] }).isOk = true := by
    rw [ofDocument_nil]
    rfl
  rcases loads : Tree.ofDocument { nodes := [("meter", meterSpec)] } with error | t
  · rw [loads] at run
    contradiction
  obtain ⟨below, nodes, -, entries⟩ := Tree.ofDocument_methods loads
  obtain ⟨n, _, ⟨-, equipped, found, reset⟩, last, rfl⟩ := List.forall₂_cons_left_iff.1 entries
  cases List.forall₂_nil_left_iff.1 last
  obtain ⟨m, here, declares⟩ := reset _ List.mem_cons_self
  refine ⟨t, rfl, n, nodes, ?_, ⟨m, here, ?_⟩, found⟩
  · rw [equipped.names]
    decide
  · have token : m.access.token = "cmd" := declares.access
    cases access : m.access <;> rw [access] at token <;> first | rfl | contradiction

/-- A document with a lamp in a hall that declares a method. -/
def hallDocument (readonly : Option Bool) (method : String) : Document :=
  { nodes := [("hall", { nodes := [("lamp",
      { property := some "Bool", readonly, methods := [(method, {})] })] })] }

/-- The lamp cannot declare a method of the name of its change signal. -/
theorem hallDocument_excludes :
    (∃ e ∈ (hallDocument none "chng").entries, "chng" ∈ e.2.methods.map Prod.fst ∧
      e.2.AsksFor "chng") ∧
      ∃ error, Tree.ofDocument (hallDocument none "chng") = .error error := by
  let lamp : NodeSpec := { property := some "Bool", methods := [("chng", {})] }
  have entry : (["hall", "lamp"], lamp) ∈ (hallDocument none "chng").entries :=
    List.mem_cons_of_mem _ List.mem_cons_self
  have asks : lamp.AsksFor "chng" := ⟨rfl, .inr (.inr rfl)⟩
  have declared : "chng" ∈ lamp.methods.map Prod.fst := List.mem_cons_self
  exact ⟨⟨_, entry, declared, asks⟩,
    (Tree.ofDocument_excludes _ _ entry).1 "chng" declared asks⟩

/-- The lamp, if it is read only, can declare a method named `set`. -/
theorem hallDocument_loads :
    (∃ e ∈ (hallDocument (some true) "set").entries, e.2.property.isSome = true ∧
      "set" ∈ e.2.methods.map Prod.fst) ∧
      (Tree.ofDocument (hallDocument (some true) "set")).isOk = true := by
  refine ⟨⟨_, List.mem_cons_of_mem _ List.mem_cons_self, rfl, List.mem_cons_self⟩, ?_⟩
  rw [hallDocument, ofDocument_nil]
  rfl

end DeviceTree
