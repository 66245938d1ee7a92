import DeviceTree.Proofs.Completion
import DeviceTree.Proofs.Courses
import DeviceTree.Proofs.Mismatches
import DeviceTree.Proofs.Paths

/-!
# What is known of loaded trees

The types that the nodes of a loaded tree name are registered (`loadNodes_registered`), as are those
that its types refer to. `ofDocument_sound` puts this together, with what follows for everyone who
validates values: no value is refused because a type is not known.
-/

namespace DeviceTree

open Loading

/-! ## Types of nodes -/

/-- The types of the parameter and the result are registered. -/
structure Method.Registered (r : Registry) (m : Method) : Prop where
  param : r.contains m.param = true
  result : r.contains m.result = true

/-- The types of the methods and of the property are registered. -/
structure Node.Registered (r : Registry) (n : Node) : Prop where
  methods : ∀ m ∈ n.methods, m.Registered r
  property : ∀ p ∈ n.property, r.contains p.typeName = true

namespace Loading

variable {r : Registry} {l : Location}

theorem typeName_eq_ok {name name' : String} (h : typeName r l name = .ok name') :
    name' = name ∧ r.contains name' = true := by
  rw [typeName] at h
  split at h
  · cases h
    exact ⟨rfl, ‹_›⟩
  · contradiction

theorem typeNameOrNull_registered (null : r.contains "Null" = true) {name? : Option String}
    {name : String} (h : typeNameOrNull r l name? = .ok name) : r.contains name = true := by
  cases name? with
  | none =>
    cases h
    exact null
  | some name => exact (typeName_eq_ok h).2

theorem propertyOf_registered {name : String} {spec : NodeSpec} {p : Property}
    (h : propertyOf r l name spec = .ok p) : r.contains p.typeName = true := by
  obtain ⟨typeName, named, h⟩ := bind_eq_ok.1 h
  obtain ⟨signal, -, h⟩ := bind_eq_ok.1 h
  cases h
  exact (typeName_eq_ok named).2

/-- The types that nodes name without being told. -/
structure Basics (r : Registry) : Prop where
  null : r.contains "Null" = true
  string : r.contains "String" = true
  getParam : r.contains Registry.getParam = true

theorem propertyMethods_registered (basics : Basics r) {p : Property}
    (h : r.contains p.typeName = true) : ∀ m ∈ propertyMethods p, m.Registered r := by
  intro m mem
  simp only [propertyMethods, List.mem_cons, List.mem_append, List.mem_ite_nil_left,
    List.not_mem_nil, or_false, Option.mem_toList, Option.map_eq_some_iff] at mem
  rcases mem with rfl | ⟨-, rfl⟩ | ⟨name, -, rfl⟩
  · exact ⟨basics.getParam, h⟩
  · exact ⟨h, basics.null⟩
  · exact ⟨basics.null, h⟩

theorem nodeProperty_registered (basics : Basics r) {spec : NodeSpec} {p? : Option Property}
    {methods : List Method} (h : nodeProperty r l spec = .ok (p?, methods)) :
    (∀ p ∈ p?, r.contains p.typeName = true) ∧ ∀ m ∈ methods, m.Registered r := by
  rw [nodeProperty] at h
  split at h
  · obtain ⟨p, ok, h⟩ := bind_eq_ok.1 h
    obtain ⟨methods', added, h⟩ := bind_eq_ok.1 h
    cases h
    have registered := propertyOf_registered ok
    refine ⟨by rintro p ⟨⟩; exact registered, ?_⟩
    rw [(addPropertyMethods_eq_ok added).1]
    exact propertyMethods_registered basics registered
  · obtain ⟨_, -, h⟩ := bind_eq_ok.1 h
    cases h
    exact ⟨by simp, by simp⟩

theorem declaredMethod_registered (null : r.contains "Null" = true) {name : String}
    {spec : MethodSpec} {m : Method} (h : declaredMethod r l name spec = .ok m) :
    m.Registered r := by
  obtain ⟨-, -, param, result, access, flags, readParam, readResult, -, -, rfl⟩ :=
    declaredMethod_eq_ok h
  exact ⟨typeNameOrNull_registered null readParam, typeNameOrNull_registered null readResult⟩

theorem addDeclaredMethods_registered (null : r.contains "Null" = true) {acc methods : List Method}
    {specs : List (String × MethodSpec)} (start : ∀ m ∈ acc, m.Registered r)
    (h : addDeclaredMethods r l acc specs = .ok methods) : ∀ m ∈ methods, m.Registered r := by
  obtain ⟨declared, rfl, each, -⟩ := addDeclaredMethods_eq_ok h
  intro m mem
  rcases List.mem_append.1 mem with before | new
  · exact start m before
  · obtain ⟨p, -, ok⟩ := exists_entry_of_mem each new
    exact declaredMethod_registered null ok

theorem withDescription_registered (basics : Basics r) {description : String}
    {methods : List Method} (start : ∀ m ∈ methods, m.Registered r) :
    ∀ m ∈ withDescription description methods, m.Registered r := by
  rw [withDescription]
  split
  · exact start
  · intro m mem
    rcases List.mem_append.1 mem with before | last
    · exact start m before
    · rw [List.mem_singleton.1 last]
      exact ⟨basics.null, basics.string⟩

theorem bareNode_registered (basics : Basics r) {parent name : String} {spec : NodeSpec} {n : Node}
    (h : bareNode r l parent name spec = .ok n) : n.Registered r := by
  obtain ⟨-, -, p?, methods, all, ok, added, rfl⟩ := bareNode_steps h
  obtain ⟨property, start⟩ := nodeProperty_registered basics ok
  exact ⟨withDescription_registered basics (addDeclaredMethods_registered basics.null start added),
    property⟩

mutual

theorem loadNode_registered (basics : Basics r) {l : Location} {parent name : String} {n : Node} :
    (spec : NodeSpec) → loadNode r l parent name spec = .ok n → ∀ m ∈ n.walk, m.Registered r
  | ⟨below, _, _, _, _, _, _⟩, h => by
    rw [loadNode] at h
    obtain ⟨bare, ok, h⟩ := bind_eq_ok.1 h
    obtain ⟨children, loaded, h⟩ := bind_eq_ok.1 h
    cases h
    obtain ⟨methods, property⟩ := bareNode_registered basics ok
    rw [Node.walk_eq, List.forall_mem_cons]
    exact ⟨⟨methods, property⟩, loadNodes_registered basics below (by simp [Node.walkAll]) loaded⟩

theorem loadNodes_registered (basics : Basics r) {l : Location} {parent : String}
    {acc nodes : List Node} : (specs : List (String × NodeSpec)) →
    (∀ m ∈ Node.walkAll acc, m.Registered r) → loadNodes r l parent acc specs = .ok nodes →
    ∀ m ∈ Node.walkAll nodes, m.Registered r
  | [], start, h => by
    cases h
    exact start
  | (name, spec) :: rest, start, h => by
    rw [loadNodes] at h
    split at h
    · obtain ⟨_, thrown, -⟩ := bind_eq_ok.1 h
      contradiction
    · obtain ⟨n, ok, h⟩ := bind_eq_ok.1 h
      refine loadNodes_registered basics rest (fun m mem => ?_) h
      rw [Node.walkAll_append, List.mem_append] at mem
      rcases mem with before | last
      · exact start m before
      · exact loadNode_registered basics spec ok m last

end

end Loading

namespace Tree

variable {t : Tree} {path method : String} {n : Node} {m : Method}

theorem resolveMethod_eq_ok (h : t.resolveMethod path method = .ok (n, m)) :
    t.resolveNode path = .ok n ∧ n.method? method = some m := by
  obtain ⟨n', resolved, h⟩ := bind_eq_ok.1 h
  split at h
  · next found =>
    cases h
    exact ⟨resolved, found⟩
  · contradiction

/-! ## Loaded trees -/

/-- What is known of the tree of every document. -/
structure Loaded (t : Tree) : Prop where
  types : t.registry.Loaded
  nodes : ∀ n ∈ t.nodes, n.Registered t.registry

theorem ofDocument_loaded {document : Document} (h : ofDocument document = .ok t) : t.Loaded := by
  obtain ⟨registry, types, h⟩ := bind_eq_ok.1 h
  obtain ⟨_, -, h⟩ := bind_eq_ok.1 h
  obtain ⟨children, loaded, h⟩ := bind_eq_ok.1 h
  cases h
  have types := loadTypes_loaded types
  have known {name : String} {e : Registry.Entry} (h : Registry.fresh.entry? name = some e) :
      registry.contains name = true := by
    rw [Registry.contains, (types.core name e (Registry.fresh_origin h)).2 h, Option.isSome_some]
  have basics : Basics registry :=
    { null := known (e := ⟨.null, .core⟩) rfl
      string := known (e := ⟨.string {}, .core⟩) rfl
      getParam := known (e := ⟨.alias "OptionalString", .builtin⟩) rfl }
  refine ⟨types, fun n mem => ?_⟩
  rw [Tree.nodes, Node.walk_eq, List.mem_cons] at mem
  rcases mem with rfl | below
  · exact ⟨by simp, by simp⟩
  · exact loadNodes_registered basics document.nodes (by simp [Node.walkAll]) loaded n below

theorem Loaded.registered (h : t.Loaded) (found : t.resolveMethod path method = .ok (n, m)) :
    m.Registered t.registry := by
  obtain ⟨resolved, found⟩ := resolveMethod_eq_ok found
  exact (h.nodes n (mem_nodes_of_resolveNode resolved)).methods m
    (List.mem_of_find?_eq_some found)

theorem Loaded.validate_knows (h : t.Loaded) {name : String}
    (registered : t.registry.contains name = true) {v : Value} {e : ValidationError}
    (failed : t.registry.validate name v = .error e) : e.mismatch.Knows :=
  Registry.validate_knows h.types.closed registered v e failed

theorem Loaded.signalEvent_knows (h : t.Loaded) {signal : String} {v : Value} {e : ValidationError}
    (failed : t.signalEvent path signal v = .error (.invalidValue e)) : e.mismatch.Knows := by
  rw [signalEvent] at failed
  split at failed
  · cases failed
  · next found =>
    split at failed
    · split at failed
      · cases failed
      · next refused =>
        cases failed
        exact h.validate_knows (h.registered found).result refused
    · cases failed

end Tree

section Calls

variable {σ : Type} {d : Device σ} {q : Request} {s s' : σ} {report : CallReport}

theorem Device.Reaches.registered {m : Method} {i : Implementation σ} (loaded : d.tree.Loaded)
    (h : d.Reaches q m i) : m.Registered d.tree.registry := by
  obtain ⟨n, accessible, -⟩ := h
  exact loaded.registered (accessibleMethod_eq_ok.1 accessible).1

/-- A call that fails for a value, fails for what is known. -/
theorem Device.call_knows (loaded : d.tree.Loaded) (run : (d.call q).run s = (report, s'))
    {cause : DispatchError} (failed : report.answer = .error cause) {e : ValidationError}
    (refusal : cause.refusal? = some e) : e.mismatch.Knows := by
  by_cases ls : q.method = "ls"
  · cases (call_ls ls).symm.trans run
    rw [answerLs_refusal failed refusal]
    exact fun _ => nofun
  by_cases dir : q.method = "dir"
  · cases (call_dir dir).symm.trans run
    rw [answerDir_refusal failed] at refusal
    contradiction
  obtain ⟨seen, course⟩ := exists_course_of_call ⟨ls, dir⟩ run
  obtain ⟨m, i, v, reaches, param | result⟩ := course.of_refusal failed refusal
  · exact loaded.validate_knows (reaches.registered loaded).param param
  · exact loaded.validate_knows (reaches.registered loaded).result result

/-- A signal that is refused for its value, is so for what is known, unless the emitter says so. -/
theorem Signals.emit_knows {c : Signals σ} (loaded : c.tree.Loaded) {signal : String} {v : Value}
    {e : ValidationError} (run : (c.emit signal v).run.run s = (.error (.invalidValue e), s')) :
    e.mismatch.Knows ∨ ∃ event, (c.emitter event).run.run s = (.error (.invalidValue e), s') := by
  rw [emit] at run
  split at run
  · exact .inr ⟨_, run⟩
  · next failed =>
    cases run
    exact .inl (loaded.signalEvent_knows failed)

theorem Signals.changed_knows {c : Signals σ} (loaded : c.tree.Loaded) {v : Value}
    {e : ValidationError} (run : (c.changed v).run.run s = (.error (.invalidValue e), s')) :
    e.mismatch.Knows ∨ ∃ event, (c.emitter event).run.run s = (.error (.invalidValue e), s') := by
  rw [changed] at run
  split at run
  · exact emit_knows loaded run
  · next failed =>
    rw [Tree.changeSignal] at failed
    split at failed
    · contradiction
    · cases failed
      cases run

end Calls

/-- The tree of every document. All references lead to registered types and none leads back, so
every name stands for a type; enumerations that name parts are enumerations; the core and predefined
types are those of the fresh registry; the types of nodes are registered. So neither validation nor
a call nor a signal (unless its emitter does) ever complains of a type that is not known. -/
theorem Tree.ofDocument_sound {document : Document} {t : Tree}
    (h : Tree.ofDocument document = .ok t) :
    (∀ name type, t.registry.entry? name = some ⟨type, .custom⟩ →
        ∀ target ∈ type.references, t.registry.contains target = true) ∧
      (∀ name, ¬ Relation.TransGen t.registry.Refers name name) ∧
      (∀ name, t.registry.contains name = true → ∃ type, t.registry.resolve name = .ok type) ∧
      (∀ name type, t.registry.get? name = some type → ∀ n ∈ type.enumName?,
        ∃ e, t.registry.resolve n = .ok (.enum e)) ∧
      (∀ name e, e.origin ≠ .custom →
        (t.registry.entry? name = some e ↔ Registry.fresh.entry? name = some e)) ∧
      (∀ n ∈ t.nodes, n.Registered t.registry) ∧
      (∀ name v e, t.registry.contains name = true → t.registry.validate name v = .error e →
        ∀ missing, e.mismatch ≠ .unknownType missing) ∧
      (∀ (σ : Type) (d : Device σ) (q : Request) (s s' : σ) (report : CallReport)
        (e : ValidationError), d.tree = t → (d.call q).run s = (report, s') →
        report.answer = .error (.invalidParam e) ∨ report.answer = .error (.resultMismatch e) →
        ∀ missing, e.mismatch ≠ .unknownType missing) ∧
      (∀ (σ : Type) (c : Signals σ) (s s' : σ) (v : Value) (e : ValidationError), c.tree = t →
        (∃ signal, (c.emit signal v).run.run s = (.error (.invalidValue e), s')) ∨
          (c.changed v).run.run s = (.error (.invalidValue e), s') →
        (∀ missing, e.mismatch ≠ .unknownType missing) ∨
          ∃ event, (c.emitter event).run.run s = (.error (.invalidValue e), s')) := by
  have loaded := ofDocument_loaded h
  have types := loaded.types
  refine ⟨fun name type found target mem => ?_, Registry.not_refers_self types.acyclic,
    fun name => Registry.resolve_of_acyclic types.closed types.acyclic, types.enums, types.core,
    loaded.nodes, fun name v e registered => loaded.validate_knows registered, ?_, ?_⟩
  · have found : t.registry.get? name = some type := by rw [Registry.get?, found]; rfl
    exact types.closed name target ⟨type, found, mem⟩
  · rintro σ d q s s' report e rfl run (param | result)
    · exact d.call_knows loaded run param rfl
    · exact d.call_knows loaded run result rfl
  · rintro σ c s s' v e rfl (⟨signal, run⟩ | run)
    · exact c.emit_knows loaded run
    · exact c.changed_knows loaded run

/-- A document with one type and a node whose property has it. -/
def gaugeDocument : Document :=
  { types := [("level", .obj [("type", .str "Int"), ("minimum", .int 0), ("maximum", .int 100)])]
    nodes := [("gauge", { property := some "level" })] }

/-- The document of the gauge loads, so its types have no cycle and those of its nodes are known. -/
theorem gaugeDocument_sound :
    ∃ t, Tree.ofDocument gaugeDocument = .ok t ∧
      (∀ name, ¬ Relation.TransGen t.registry.Refers name name) ∧
      ∀ n ∈ t.nodes, n.Registered t.registry := by
  have loads : (Tree.ofDocument gaugeDocument).isOk = true := by cbv
  rcases loaded : Tree.ofDocument gaugeDocument with e | t
  · rw [loaded] at loads
    contradiction
  · obtain ⟨-, acyclic, -, -, -, nodes, -⟩ := Tree.ofDocument_sound loaded
    exact ⟨t, rfl, acyclic, nodes⟩

end DeviceTree
