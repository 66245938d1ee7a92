import DeviceTree.Proofs.Listings

/-!
# Events of signals

What the emitter of a node is handed. `Signals.noted` notes each event before the emitter gets it,
so that a run shows what has been handed over. A signal is handed over as one event when the node
has it and the value matches its type; else nothing is.

A change signal is sent as any other. That the node has a signal of that name, with the type of the
property, is what the builder keeps (`propertyMethods_of_ofDocument`): neither the other methods of
the property nor the declared ones can take the name.
-/

namespace DeviceTree

open Loading

/-! ## Methods of properties -/

section Properties

variable {document : Document} {t : Tree} {r : Registry} {l : Location} {n : Node} {p : Property}
  {path : String}

theorem Loading.propertyMethods_of_bareNode {parent name : String} {spec : NodeSpec}
    (h : bareNode r l parent name spec = .ok n) (property : n.property = some p) :
    ∀ m ∈ propertyMethods p, m ∈ n.methods := by
  obtain ⟨-, -, p?, methods, all', ok, added, rfl⟩ := bareNode_steps h
  cases property
  obtain ⟨rfl, start, -⟩ := nodeProperty_eq_ok ok
  obtain ⟨start, declared, rfl, -⟩ := addDeclaredMethods_distinct start added
  obtain ⟨-, described, all, -⟩ := withDescription_eq (spec.description.getD "") start
  intro m mem
  show m ∈ withDescription _ _
  rw [all]
  exact List.mem_append_left _ (List.mem_append_left _ mem)

/-- A node of a loaded tree has the methods of its property. -/
theorem Tree.propertyMethods_of_ofDocument (loads : Tree.ofDocument document = .ok t)
    (mem : n ∈ t.nodes) (property : n.property = some p) :
    ∀ m ∈ propertyMethods p, m ∈ n.methods := by
  obtain ⟨-, plain, entries⟩ := Tree.ofDocument_entries loads
  rcases entries n mem with rfl | ⟨e, -, ofEntry⟩
  · rw [plain] at property
    contradiction
  · obtain ⟨l, parent, made⟩ := ofEntry.bare
    have bare : ∀ m ∈ propertyMethods p, m ∈ { n with children := [] }.methods :=
      propertyMethods_of_bareNode made property
    exact bare

/-- The change signal of a property is a signal of the node with the type of the property. -/
theorem Tree.exists_changeSignal (loads : Tree.ofDocument document = .ok t)
    (resolved : t.resolveNode path = .ok n) (property : n.property = some p) {signal : String}
    (named : p.signal = some signal) :
    ∃ m, n.method? signal = some m ∧ m.flags.signal = true ∧ m.result = p.typeName := by
  have mem := Tree.mem_nodes_of_resolveNode resolved
  let m : Method :=
    { name := signal, result := p.typeName, access := .read, flags := { signal := true },
      origin := .property }
  have synthesized : m ∈ propertyMethods p := by
    refine List.mem_cons_of_mem _ (List.mem_append_right _ ?_)
    rw [named]
    exact List.mem_singleton_self m
  have inside := Tree.propertyMethods_of_ofDocument loads mem property m synthesized
  exact ⟨m, (Tree.named_of_ofDocument loads mem).1.method?_eq_some.2 ⟨inside, rfl⟩, rfl, rfl⟩

end Properties

/-! ## Events that are handed over -/

/-- The node has the signal, and the value matches its type. -/
structure Tree.Sends (t : Tree) (path signal : String) (v : Value) (n : Node) (m : Method) :
    Prop where
  resolved : t.resolveNode path = .ok n
  method : m ∈ n.methods
  name : m.name = signal
  flag : m.flags.signal = true
  valid : t.registry.validate m.result v = .ok ()

theorem Tree.signalEvent_eq_ok {t : Tree} {path signal : String} {v : Value} {event : SignalEvent} :
    t.signalEvent path signal v = .ok event ↔
      (∃ n m, t.resolveMethod path signal = .ok (n, m) ∧ m.flags.signal = true ∧
        t.registry.validate m.result v = .ok ()) ∧ event = ⟨path, signal, v⟩ := by
  rw [signalEvent]
  split
  · next failed => simp only [failed, reduceCtorEq, false_and, exists_false]
  · next n m found =>
    simp only [found, Except.ok.injEq, Prod.mk.injEq]
    split
    · next flag =>
      split
      · next valid =>
        simp only [Except.ok.injEq]
        constructor
        · rintro rfl
          exact ⟨⟨n, m, ⟨rfl, rfl⟩, flag, valid⟩, rfl⟩
        · rintro ⟨-, rfl⟩
          rfl
      · next refused =>
        constructor
        · rintro ⟨⟩
        · rintro ⟨⟨_, _, ⟨rfl, rfl⟩, -, valid⟩, -⟩
          rw [refused] at valid
          contradiction
    · next flag =>
      constructor
      · rintro ⟨⟩
      · rintro ⟨⟨_, _, ⟨rfl, rfl⟩, flagged, -⟩, -⟩
        exact absurd flagged flag

/-- In a loaded tree an event is made of what a node sends. -/
theorem Tree.signalEvent_iff {document : Document} {t : Tree} {path signal : String} {v : Value}
    (loads : Tree.ofDocument document = .ok t) :
    t.signalEvent path signal v = .ok ⟨path, signal, v⟩ ↔ ∃ n m, t.Sends path signal v n m := by
  rw [signalEvent_eq_ok]
  constructor
  · rintro ⟨⟨n, m, found, flag, valid⟩, -⟩
    obtain ⟨resolved, named⟩ := resolveMethod_eq_ok found
    obtain ⟨mem, same⟩ := (named_of_ofDocument loads
      (mem_nodes_of_resolveNode resolved)).1.method?_eq_some.1 named
    exact ⟨n, m, resolved, mem, same, flag, valid⟩
  · rintro ⟨n, m, h⟩
    refine ⟨⟨n, m, (resolveMethod_iff h.resolved).2 ?_, h.flag, h.valid⟩, rfl⟩
    exact (named_of_ofDocument loads
      (mem_nodes_of_resolveNode h.resolved)).1.method?_eq_some.2 ⟨h.method, h.name⟩

namespace Signals

variable {σ : Type}

/-- The signals, where each event is noted that the emitter is handed. -/
def noted (c : Signals σ) : Signals (σ × List SignalEvent) :=
  { tree := c.tree
    path := c.path
    emitter := fun event => ExceptT.mk fun (s, events) =>
      let (answer, s) := (c.emitter event).run.run s
      (answer, (s, events ++ [event])) }

/-- What a run ends with that hands the emitter just the one event. -/
def delivered (c : Signals σ) (event : SignalEvent) (s : σ) :
    Except SignalError Unit × (σ × List SignalEvent) :=
  let (answer, s) := (c.emitter event).run.run s
  (answer, (s, [event]))

/-- What a run ends with that hands the emitter nothing. -/
def refused (e : SignalError) (s : σ) : Except SignalError Unit × (σ × List SignalEvent) :=
  (.error e, (s, []))

variable {c : Signals σ} {signal : String} {v : Value} {event : SignalEvent} {e : SignalError}

theorem noted_emit_of_ok (checked : c.tree.signalEvent c.path signal v = .ok event) (s : σ) :
    (c.noted.emit signal v).run.run (s, []) = c.delivered event s := by
  have checked : c.noted.tree.signalEvent c.noted.path signal v = .ok event := checked
  rw [emit, checked]
  rfl

theorem noted_emit_of_error (failed : c.tree.signalEvent c.path signal v = .error e) (s : σ) :
    (c.noted.emit signal v).run.run (s, []) = refused e s := by
  have failed : c.noted.tree.signalEvent c.noted.path signal v = .error e := failed
  rw [emit, failed]
  rfl

theorem changed_eq_emit (named : c.tree.changeSignal c.path = .ok signal) (v : Value) :
    c.changed v = c.emit signal v := by
  rw [changed, named]

end Signals

theorem Tree.changeSignal_of_resolveNode {t : Tree} {path : String} {n : Node}
    (resolved : t.resolveNode path = .ok n) {signal : String}
    (named : n.changeSignal? = some signal) : t.changeSignal path = .ok signal := by
  have found : (t.resolveNode path).toOption.bind (·.changeSignal?) = some signal := by
    rw [resolved]
    exact named
  rw [changeSignal, found]

theorem Tree.changeSignal_eq_error {t : Tree} {path : String}
    (silent : ∀ n, t.resolveNode path = .ok n → n.changeSignal? = none) :
    t.changeSignal path = .error (.noChangeSignal path) := by
  have absent : (t.resolveNode path).toOption.bind (·.changeSignal?) = none := by
    rcases resolved : t.resolveNode path with e | n
    · rfl
    · exact silent n resolved
  rw [changeSignal, absent]

/-- What the emitter of a node of a loaded tree is handed. It gets one event, with the path, the
signal and the value, when the node has the signal and the value matches its type, and the answer is
the emitter's; else it gets nothing and the answer is an error. The change signal of a property is
sent as the signal of that name, and its type is that of the property, so only the value can be
refused; without a change signal that is what the error says. -/
theorem Tree.ofDocument_signals {document : Document} {t : Tree}
    (loads : Tree.ofDocument document = .ok t) {σ : Type} (c : Signals σ) (here : c.tree = t)
    (v : Value) (s : σ) :
    (∀ signal,
      ((∃ n m, t.Sends c.path signal v n m) →
        (c.noted.emit signal v).run.run (s, []) = c.delivered ⟨c.path, signal, v⟩ s) ∧
      ((¬ ∃ n m, t.Sends c.path signal v n m) →
        ∃ e, (c.noted.emit signal v).run.run (s, []) = Signals.refused e s)) ∧
    (∀ n p signal, t.resolveNode c.path = .ok n → n.property = some p → p.signal = some signal →
      c.changed v = c.emit signal v ∧
      (t.registry.validate p.typeName v = .ok () →
        (c.noted.changed v).run.run (s, []) = c.delivered ⟨c.path, signal, v⟩ s) ∧
      (∀ e, t.registry.validate p.typeName v = .error e →
        (c.noted.changed v).run.run (s, []) = Signals.refused (.invalidValue e) s) ∧
      ∀ path' signal' s', (c.changed v).run.run s = (.error (.unknownSignal path' signal'), s') →
        (c.emitter ⟨c.path, signal, v⟩).run.run s = (.error (.unknownSignal path' signal'), s')) ∧
    ((∀ n, t.resolveNode c.path = .ok n → n.changeSignal? = none) →
      (c.noted.changed v).run.run (s, []) = Signals.refused (.noChangeSignal c.path) s) := by
  subst here
  refine ⟨fun signal => ⟨fun sends => ?_, fun silent => ?_⟩, ?_, fun silent => ?_⟩
  · exact Signals.noted_emit_of_ok ((signalEvent_iff loads).2 sends) s
  · rcases checked : c.tree.signalEvent c.path signal v with e | event
    · exact ⟨e, Signals.noted_emit_of_error checked s⟩
    · obtain ⟨-, rfl⟩ := signalEvent_eq_ok.1 checked
      exact absurd ((signalEvent_iff loads).1 checked) silent
  · intro n p signal resolved property named
    obtain ⟨m, found, flag, result⟩ := exists_changeSignal loads resolved property named
    have change : c.tree.changeSignal c.path = .ok signal :=
      changeSignal_of_resolveNode resolved (by rw [Node.changeSignal?, property]; exact named)
    have noted : c.noted.changed v = c.noted.emit signal v :=
      Signals.changed_eq_emit (c := c.noted) change v
    have method := (resolveMethod_iff resolved).2 found
    have valid (ok : c.tree.registry.validate p.typeName v = .ok ()) :
        c.tree.signalEvent c.path signal v = .ok ⟨c.path, signal, v⟩ :=
      signalEvent_eq_ok.2 ⟨⟨n, m, method, flag, by rw [result, ok]⟩, rfl⟩
    have invalid (e : ValidationError) (failed : c.tree.registry.validate p.typeName v = .error e) :
        c.tree.signalEvent c.path signal v = .error (.invalidValue e) := by
      rw [signalEvent, method]
      simp only [flag, result, failed, if_true]
    refine ⟨Signals.changed_eq_emit change v, fun ok => ?_, fun e failed => ?_,
      fun path' signal' s' run => ?_⟩
    · rw [noted]
      exact Signals.noted_emit_of_ok (valid ok) s
    · rw [noted]
      exact Signals.noted_emit_of_error (invalid e failed) s
    · rw [Signals.changed_eq_emit change, Signals.emit] at run
      rcases verdict : c.tree.registry.validate p.typeName v with e | _
      · rw [invalid e verdict] at run
        cases run
      · rw [valid verdict] at run
        exact run
  · have failed : c.noted.tree.changeSignal c.noted.path = .error (.noChangeSignal c.path) :=
      changeSignal_eq_error silent
    rw [Signals.changed, failed]
    rfl

/-- A document with a dial, whose change signal has a name of its own. -/
def dialDocument : Document :=
  { nodes := [("dial", { property := some "Bool", signal := some (.named "moved") })] }

/-- What a tree says of the dial: its change signal, its type, and which of two values has it. -/
def dialReading (t : Tree) : Except ResolutionError (Option String × String × Bool × Bool) := do
  let n ← t.resolveNode "dial"
  .ok (n.changeSignal?, (n.property.map (·.typeName)).getD "",
    t.registry.isValid "Bool" (.bool true), t.registry.isValid "Bool" (.int 1))

/-- An emitter that counts the events, and is busy at every second one. -/
def alternateEmitter : Emitter Nat := fun _ => do
  let n ← get
  set (n + 1)
  if n % 2 = 1 then throw (.delivery "busy")

/-- A change of the dial is handed over as one event, whatever the emitter makes of it. A value of
another type is not handed over, and neither is a change of the root, which has no property. -/
theorem dialDocument_signals :
    ∃ t, Tree.ofDocument dialDocument = .ok t ∧ ∀ s : Nat,
      let dial : Signals Nat := ⟨t, "dial", alternateEmitter⟩
      (dial.noted.changed (.bool true)).run.run (s, []) =
          dial.delivered ⟨"dial", "moved", .bool true⟩ s ∧
        (∃ e, (dial.noted.changed (.int 1)).run.run (s, []) =
          Signals.refused (.invalidValue e) s) ∧
        ((Signals.mk t "" alternateEmitter).noted.changed (.bool true)).run.run (s, []) =
          Signals.refused (.noChangeSignal "") s := by
  have run : dialReading <$> Tree.ofDocument dialDocument =
      .ok (.ok (some "moved", "Bool", true, false)) := by cbv
  obtain ⟨t, loads, read⟩ := map_eq_ok.1 run
  obtain ⟨n, resolved, shown⟩ := bind_eq_ok.1 read
  simp only [Except.ok.injEq, Prod.mk.injEq] at shown
  obtain ⟨signal, type, valid, invalid⟩ := shown
  obtain ⟨p, property, named⟩ := Option.bind_eq_some_iff.1 signal
  rw [property, Option.map_some, Option.getD_some] at type
  refine ⟨t, loads, fun s => ?_⟩
  have change (v : Value) := (Tree.ofDocument_signals loads ⟨t, "dial", alternateEmitter⟩ rfl v s).2.1
    n p "moved" resolved property named
  have silent := (Tree.ofDocument_signals loads ⟨t, "", alternateEmitter⟩ rfl (.bool true) s).2.2
  rw [type] at change
  refine ⟨(change _).2.1 (isOk_eq_true.1 valid), ?_, silent fun root found => ?_⟩
  · rcases verdict : t.registry.validate "Bool" (.int 1) with e | _
    · exact ⟨e, (change _).2.2.1 e verdict⟩
    · rw [Registry.isValid, verdict] at invalid
      contradiction
  · cases found
    rw [Node.changeSignal?, (Tree.ofDocument_entries loads).2.1]
    rfl

end DeviceTree
