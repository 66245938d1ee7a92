import DeviceTree.Proofs.HandlerNames
import DeviceTree.Proofs.Listings

/-!
# What handlers see of a call

A handler names the fields that it reads when it is registered. `Handlers.enroll_contexts` says
which registrations succeed, what they leave behind, and what the contexts of calls then show: the
declared fields and no others, where those that are read from the tree agree with the request.

The name of the node comes from the text of the path and the node itself from the tree. They agree
since a node has the last of the names that lead to it.
-/

namespace DeviceTree

variable {σ : Type}

/-! ## Declared fields -/

theorem declaredField_eq_ok {handler parameter : String} {field : ContextField} :
    declaredField handler parameter = .ok field ↔ parameter = field.name := by
  rw [declaredField, eq_comm (a := parameter), ← ContextField.ofName?_eq_some_iff]
  cases ContextField.ofName? parameter <;> simp

/-- Names declare fields when each is the name of one. -/
theorem declaredFields_eq_ok {handler : String} {parameters : List String}
    {fields : ContextFields} :
    declaredFields handler parameters = .ok fields ↔
      ∃ named : List ContextField, parameters = named.map ContextField.name ∧
        fields = .ofList named := by
  simp only [declaredFields, bind_eq_ok, mapM_eq_ok, declaredField_eq_ok,
    ← List.forall₂_map_right_iff, List.forall₂_eq_eq_eq, Except.ok.injEq, eq_comm (a := fields)]

/-- A handler can be declared when every parameter is the name of a field. -/
theorem RegisteredHandler.exists_declare_iff {name : String} {parameters : List String}
    {run : Handler σ} :
    (∃ h, declare name parameters run = .ok h) ↔
      ∀ p ∈ parameters, p ∈ ContextField.all.map ContextField.name := by
  have range : (∃ named : List ContextField, named.map ContextField.name = parameters) ↔
      ∀ p ∈ parameters, p ∈ Set.range ContextField.name :=
    Set.ext_iff.1 (Set.range_list_map ContextField.name) parameters
  constructor
  · rintro ⟨h, declared⟩
    obtain ⟨fields, declared, -⟩ := bind_eq_ok.1 declared
    obtain ⟨named, rfl, -⟩ := declaredFields_eq_ok.1 declared
    intro p mem
    obtain ⟨field, -, rfl⟩ := List.mem_map.1 mem
    exact List.mem_map_of_mem (ContextField.mem_all field)
  · intro known
    obtain ⟨named, rfl⟩ := range.2 fun p mem =>
      (List.mem_map.1 (known p mem)).imp fun _ found => found.2
    exact ⟨_, bind_eq_ok.2 ⟨_, declaredFields_eq_ok.2 ⟨named, rfl, rfl⟩, rfl⟩⟩

/-- A declared handler has the fields that its parameters name. -/
theorem RegisteredHandler.declare_eq_ok {name : String} {parameters : List String}
    {run : Handler σ} {h : RegisteredHandler σ} (declared : declare name parameters run = .ok h) :
    h.run = run ∧ ∀ field, h.fields.contains field ↔ field.name ∈ parameters := by
  obtain ⟨fields, found, made⟩ := bind_eq_ok.1 declared
  cases made
  obtain ⟨named, rfl, rfl⟩ := declaredFields_eq_ok.1 found
  refine ⟨rfl, fun field => ?_⟩
  rw [ContextFields.contains_ofList,
    List.mem_map_of_injective fun _ _ => ContextField.name_injective]

/-! ## What a context shows -/

/-- A context of a call of method `m` of node `n` shows the given fields and no others. -/
structure CallContext.Shows (c : CallContext σ) (d : Device σ) (fields : ContextFields)
    (q : Request) (n : Node) (m : Method) : Prop where
  path : c.path? = if fields.contains .path then some n.path else none
  nodeName : c.nodeName? = if fields.contains .nodeName then some n.name else none
  node : c.node? = if fields.contains .node then some n else none
  methodName : c.methodName? = if fields.contains .methodName then some m.name else none
  methodPath : c.methodPath? =
    if fields.contains .methodPath then some (n.path ++ ":" ++ m.name) else none
  method : c.method? = if fields.contains .method then some m else none
  accessLevel : c.accessLevel? = if fields.contains .accessLevel then some q.access else none
  param : c.param? = if fields.contains .param then some q.param else none
  signals : c.signals? =
    if fields.contains .signals then some ⟨d.tree, n.path, d.emitter⟩ else none
  userId : c.userId? = if fields.contains .userId then q.userId else none

/-- A node has the last of the names that lead to it. -/
theorem Node.name_of_descend {n m : Node} {names : List String} (h : n.descend names = .ok m) :
    (n.name :: names).getLast? = some m.name := by
  induction names generalizing n with
  | nil =>
    cases h
    rfl
  | cons name rest ih =>
    rw [descend] at h
    split at h
    · next c found =>
      obtain rfl : c.name = name := by simpa using List.find?_some found
      exact ih h
    · contradiction

/-- The node at a path is named as the last part of the path. -/
theorem Tree.name_of_resolveNode {document : Document} {t : Tree} {path : String} {n : Node}
    (loads : ofDocument document = .ok t) (resolved : t.resolveNode path = .ok n) :
    (Text.splitOn '/' path).getLast? = some n.name := by
  obtain ⟨⟨-, -, unnamed, -⟩, -⟩ := ofDocument_nodes loads
  rw [resolveNode] at resolved
  split at resolved
  · next empty =>
    cases resolved
    rw [String.isEmpty_iff.1 empty, unnamed]
    decide
  · split at resolved
    · next descended =>
      cases resolved
      have named := Node.name_of_descend descended
      rwa [List.getLast?_cons_of_ne_nil (Text.splitOn_ne_nil _ _)] at named
    · contradiction

/-- What the access check finds is at the path and under the name of the request. -/
theorem Tree.request_of_accessibleMethod {document : Document} {t : Tree}
    (loads : ofDocument document = .ok t) {q : Request} {n : Node} {m : Method}
    (found : t.accessibleMethod q = .ok (n, m)) : n.path = q.path ∧ m.name = q.method := by
  obtain ⟨resolved, -⟩ := Device.accessibleMethod_eq_ok.1 found
  obtain ⟨here, named⟩ := resolveMethod_eq_ok resolved
  obtain ⟨-, -, paths, -⟩ := ofDocument_nodes loads
  exact ⟨((paths q.path n).1 here).2, by simpa using List.find?_some named⟩

/-- The context of a call that is found shows what has been found. -/
theorem CallContext.shows_ofRequest {document : Document} {d : Device σ}
    (loads : Tree.ofDocument document = .ok d.tree) {q : Request} {n : Node} {m : Method}
    (found : d.tree.accessibleMethod q = .ok (n, m)) (fields : ContextFields) :
    (CallContext.ofRequest d.tree fields q d.emitter).Shows d fields q n m := by
  obtain ⟨resolved, -⟩ := Device.accessibleMethod_eq_ok.1 found
  obtain ⟨here, -⟩ := Tree.resolveMethod_eq_ok resolved
  obtain ⟨path, method⟩ := Tree.request_of_accessibleMethod loads found
  have last := Tree.name_of_resolveNode loads here
  constructor <;> simp only [path?, nodeName?, node?, methodName?, methodPath?, method?,
    accessLevel?, signals?, userId?, declared, ofRequest, path, method, last, here, resolved] <;>
    rfl

namespace Handlers

variable {handlers handlers' : Handlers σ} {name : String} {parameters : List String}
  {run : Handler σ} {outcome : Except RegistrationError Unit}

/-- Under a free name, a handler is registered when it can be declared. -/
theorem enroll_succeeds_iff (free : handlers.get? name = none)
    (enrolled : (ExceptT.run (enroll name parameters run)).run handlers = (outcome, handlers')) :
    outcome = .ok () ↔ ∃ h, RegisteredHandler.declare name parameters run = .ok h := by
  cases declared : RegisteredHandler.declare name parameters run with
  | ok h =>
    cases (run_enroll_of_ok free declared).symm.trans enrolled
    simp
  | error e =>
    cases (run_enroll_of_error free declared).symm.trans enrolled
    simp

/-- A registration that fails changes nothing. -/
theorem enroll_fails {e : RegistrationError}
    (enrolled : (ExceptT.run (enroll name parameters run)).run handlers = (.error e, handlers')) :
    handlers' = handlers := by
  by_cases free : handlers.get? name = none
  · cases declared : RegisteredHandler.declare name parameters run with
    | ok h => cases (run_enroll_of_ok free declared).symm.trans enrolled
    | error e =>
      cases (run_enroll_of_error free declared).symm.trans enrolled
      rfl
  · cases (run_enroll_taken free).symm.trans enrolled
    rfl

/-- A registration that succeeds adds one handler. -/
theorem enroll_adds
    (enrolled : (ExceptT.run (enroll name parameters run)).run handlers = (.ok (), handlers')) :
    ∃ h, RegisteredHandler.declare name parameters run = .ok h ∧
      ∀ other, handlers'.get? other = if other = name then some h else handlers.get? other := by
  by_cases free : handlers.get? name = none
  · obtain ⟨h, declared⟩ := (enroll_succeeds_iff free enrolled).1 rfl
    cases (run_enroll_of_ok free declared).symm.trans enrolled
    exact ⟨h, declared, fun other => OrderedMap.get?_insert ..⟩
  · cases (run_enroll_taken free).symm.trans enrolled

/-- What becomes of a registration, and what handlers see of calls. Under a free name it succeeds
exactly when every parameter names a field, under a taken name it fails, and when it fails the
handlers are as before. Otherwise there is one more handler, of the fields that are named. The
context of a call that a handler answers shows the fields of the handler: what is read from the tree
is what the caller was granted access to. -/
theorem enroll_contexts
    (enrolled : (ExceptT.run (enroll name parameters run)).run handlers = (outcome, handlers')) :
    (handlers.get? name = none → (outcome = .ok () ↔
        ∀ p ∈ parameters, p ∈ ContextField.all.map ContextField.name)) ∧
      (handlers.get? name ≠ none → outcome = .error (.duplicate name)) ∧
      (outcome ≠ .ok () → handlers' = handlers) ∧
      (outcome = .ok () → ∃ h : RegisteredHandler σ, h.run = run ∧
        (∀ field, h.fields.contains field ↔ field.name ∈ parameters) ∧
        ∀ other, handlers'.get? other = if other = name then some h else handlers.get? other) ∧
      ∀ (document : Document) (d : Device σ), Tree.ofDocument document = .ok d.tree →
        ∀ q s m h s', d.Binds q s m (.handler h) s' →
          ∃ n c, d.tree.accessibleMethod q = .ok (n, m) ∧ n.path = q.path ∧ m.name = q.method ∧
            d.invoke q (.handler h) = h.run c ∧ c.Shows d h.fields q n m := by
  refine ⟨fun free => ?_, fun taken => ?_, fun failed => ?_, ?_, ?_⟩
  · rw [enroll_succeeds_iff free enrolled, RegisteredHandler.exists_declare_iff]
  · cases (run_enroll_taken taken).symm.trans enrolled
    rfl
  · cases outcome with
    | ok => contradiction
    | error e => exact enroll_fails enrolled
  · rintro rfl
    obtain ⟨h, declared, found⟩ := enroll_adds enrolled
    obtain ⟨runs, fields⟩ := RegisteredHandler.declare_eq_ok declared
    exact ⟨h, runs, fields, found⟩
  · intro document d loads q s m h s' binds
    obtain ⟨n, accessible, -⟩ := binds.reaches.found
    obtain ⟨path, method⟩ := Tree.request_of_accessibleMethod loads accessible
    exact ⟨n, _, accessible, path, method, rfl, CallContext.shows_ofRequest loads accessible _⟩

end Handlers

/-- A handler of the method for superusers that declares two fields sees the name of its node and
the method, and neither the path nor the parameter. -/
theorem doorDocument_contexts :
    ∃ t handlers h, Tree.ofDocument doorDocument = .ok t ∧
      (ExceptT.run (Handlers.enroll (handlerName "a/b" "c") ["node_name", "method"]
        Device.count)).run .empty = (.ok (), handlers) ∧
      handlers.get? (handlerName "a/b" "c") = some h ∧
      ∃ m c, Device.Binds { tree := t, handlers }
          { path := "a/b", method := "c", access := .superuser } 0 m (.handler h) 0 ∧
        Device.invoke { tree := t, handlers }
          { path := "a/b", method := "c", access := .superuser } (.handler h) = h.run c ∧
        c.nodeName? = some "b" ∧ c.method? = some m ∧ c.path? = none ∧ c.param? = none := by
  have run : (fun t => ((t.resolveMethod "a/b" "c").map fun found => (found.1.name, found.2),
      t.registry.validate "Null" .null)) <$> Tree.ofDocument doorDocument =
        .ok (.ok ("b", { name := "c", access := .superuser }), .ok ()) := by cbv
  obtain ⟨t, loads, shown⟩ := map_eq_ok.1 run
  obtain ⟨method, valid⟩ := Prod.mk.inj shown
  obtain ⟨⟨n, m⟩, found, named⟩ := map_eq_ok.1 method
  obtain ⟨name, rfl⟩ := Prod.mk.inj named
  obtain ⟨handlers, enrolled⟩ : ∃ handlers,
      (ExceptT.run (Handlers.enroll (handlerName "a/b" "c") ["node_name", "method"]
        Device.count)).run .empty = (.ok (), handlers) := ⟨_, rfl⟩
  obtain ⟨-, -, -, registered, contexts⟩ := Handlers.enroll_contexts enrolled
  obtain ⟨h, -, fields, handler⟩ := registered rfl
  have here : handlers.get? (handlerName "a/b" "c") = some h := (handler _).trans (if_pos rfl)
  have accessible : t.accessibleMethod { path := "a/b", method := "c", access := .superuser } =
      .ok (n, { name := "c", access := .superuser }) :=
    Device.accessibleMethod_eq_ok.2 ⟨found, by decide⟩
  have binds : Device.Binds { tree := t, handlers }
      { path := "a/b", method := "c", access := .superuser } 0
      { name := "c", access := .superuser } (.handler h) 0 := by
    refine ⟨⟨n, accessible, ?_⟩, rfl, valid⟩
    simp only [Device.implementation, here]
    rfl
  obtain ⟨n', c, accessible', -, -, invoked, shows⟩ := contexts _ _ loads _ _ _ _ _ binds
  cases accessible.symm.trans accessible'
  have declared (field : ContextField) : h.fields.contains field = true ↔
      field ∈ [ContextField.nodeName, .method] := by
    rw [fields]
    cases field <;> decide
  refine ⟨t, handlers, h, loads, enrolled, here, _, c, binds, invoked, ?_, ?_, ?_, ?_⟩
  · rw [shows.nodeName, if_pos ((declared _).2 (by decide)), name]
  · rw [shows.method, if_pos ((declared _).2 (by decide))]
  · rw [shows.path, if_neg (mt (declared _).1 (by decide))]
  · rw [shows.param, if_neg (mt (declared _).1 (by decide))]

end DeviceTree
