import DeviceTree.Proofs.Courses

/-!
# The code of a device runs behind its guards

`Device.observed` is a device whose handlers and hooks leave a note of each run in the state, and do
otherwise what they did. `Course.observed` says that its calls take the courses of the device, with
the notes of the course, so a run of the observed device shows which code of the device runs and
when. `call_guarded` is what these runs show of every call.
-/

namespace DeviceTree

variable {σ α : Type}

/-! ## Devices that are observed -/

/-- Code that leaves a note of its run, and whether it has succeeded, after what it does. -/
def HandlerM.noted (note : Bool → UserCode) (code : HandlerM σ α) :
    HandlerM (σ × List UserCode) α :=
  ExceptT.mk fun (s, seen) =>
    let (outcome, s) := code.run.run s
    (outcome, (s, seen ++ [note outcome.isOk]))

/-- The handler with a note of each run. Its signals go where they went. -/
def RegisteredHandler.observed (emitter : Emitter σ) (h : RegisteredHandler σ) :
    RegisteredHandler (σ × List UserCode) :=
  { fields := h.fields
    run := fun c => .noted .handler (h.run ⟨c.tree, c.fields, c.request, c.param?, emitter⟩) }

/-- What answers, with a note of each run. -/
def Implementation.observed (emitter : Emitter σ) :
    Implementation σ → Implementation (σ × List UserCode)
  | .handler h => .handler (h.observed emitter)
  | .description text => .description text

/-- The map with a function applied to its values. -/
def OrderedMap.map {β : Type} (f : α → β) (m : OrderedMap α) : OrderedMap β :=
  ⟨m.entries.map fun (key, value) => (key, f value), by
    simpa [List.map_map, Function.comp_def] using m.distinct⟩

theorem OrderedMap.get?_map {β : Type} (f : α → β) (m : OrderedMap α) (key : String) :
    (m.map f).get? key = (m.get? key).map f := by
  show (m.entries.map fun (key, value) => (key, f value)).lookup key =
    (m.entries.lookup key).map f
  induction m.entries with
  | nil => rfl
  | cons entry rest ih =>
    rw [List.map_cons, List.lookup_cons, List.lookup_cons]
    split <;> simp [ih]

namespace Device

/-- The device with a note of each run of its handlers and hooks. -/
def observed (d : Device σ) : Device (σ × List UserCode) :=
  { tree := d.tree
    handlers := ⟨d.handlers.entries.map (·.observed d.emitter)⟩
    defaultHandler := d.defaultHandler.map (·.observed d.emitter)
    hooks :=
      { preCall := fun q m => .noted .preCall (d.hooks.preCall q m)
        postCall := fun q m result => .noted .postCall (d.hooks.postCall q m result) } }

variable {d : Device σ} {q : Request} {m : Method} {i : Implementation σ} {s s' : σ}
  {report : CallReport} {seen : List UserCode}

theorem run_noted {note : Bool → UserCode} {code : HandlerM σ α} {outcome : Except HandlerError α}
    (before : List UserCode) (h : code.run.run s = (outcome, s')) :
    (HandlerM.noted note code).run.run (s, before) =
      (outcome, (s', before ++ [note outcome.isOk])) := by
  show ((code.run.run s).1, ((code.run.run s).2, before ++ [note (code.run.run s).1.isOk])) = _
  rw [h]

theorem implementation_observed (d : Device σ) (q : Request) (n : Node) (m : Method) :
    d.observed.implementation q n m = (·.observed d.emitter) <$> d.implementation q n m := by
  have own : d.observed.handlers.get? (handlerName q.path q.method) =
      (d.handlers.get? (handlerName q.path q.method)).map (·.observed d.emitter) :=
    OrderedMap.get?_map _ _ _
  simp only [implementation, own]
  rw [apply_ite (Functor.map _)]
  congr 1
  rcases d.handlers.get? (handlerName q.path q.method) with _ | h
  · simp only [Option.map_none]
    rw [apply_ite (Functor.map _)]
    congr 1
    simp only [observed]
    rcases d.defaultHandler with _ | h <;> rfl
  · rfl

theorem Reaches.observed (h : d.Reaches q m i) :
    d.observed.Reaches q m (i.observed d.emitter) := by
  obtain ⟨n, accessible, answered⟩ := h
  exact ⟨n, accessible, by rw [implementation_observed, answered]; rfl⟩

theorem Binds.observed (before : List UserCode) (h : d.Binds q s m i s') :
    d.observed.Binds q (s, before) m (i.observed d.emitter) (s', before ++ [.preCall true]) :=
  ⟨h.reaches.observed, run_noted before h.accepted, h.valid⟩

theorem invoke_observed {outcome : Except HandlerError Value} (before : List UserCode)
    (h : (d.invoke q i).run.run s = (outcome, s')) :
    (d.observed.invoke q (i.observed d.emitter)).run.run (s, before) =
      (outcome, (s', before ++ i.notes outcome.isOk)) := by
  cases i with
  | handler h' => exact run_noted before h
  | description text =>
    cases h
    exact Prod.ext rfl (Prod.ext rfl (List.append_nil _).symm)

theorem Answers.observed {v : Value} (before : List UserCode) (h : d.Answers q s m i v s') :
    d.observed.Answers q (s, before) m (i.observed d.emitter) v
      (s', before ++ (.preCall true :: i.notes true)) := by
  obtain ⟨s₁, binds, invoked⟩ := h
  refine ⟨(s₁, before ++ [.preCall true]), binds.observed before, ?_⟩
  rw [invoke_observed _ invoked, List.append_assoc]
  rfl

theorem notes_observed (emitter : Emitter σ) (succeeded : Bool) :
    (i.observed emitter).notes succeeded = i.notes succeeded := by
  cases i <;> rfl

/-- The observed device takes the course of the device, and notes what the course says. -/
theorem Course.observed (before : List UserCode) (h : d.Course q s report s' seen) :
    d.observed.Course q (s, before) report (s', before ++ seen) seen := by
  cases h with
  | denied denied =>
    rw [List.append_nil]
    exact .denied denied
  | unanswered accessible unanswered =>
    rw [List.append_nil]
    exact .unanswered accessible (by rw [implementation_observed, unanswered]; rfl)
  | rejected reaches pre => exact .rejected reaches.observed (run_noted before pre)
  | invalidParam reaches pre invalid =>
    exact .invalidParam reaches.observed (run_noted before pre) invalid
  | failed binds failed =>
    have ran := invoke_observed (before ++ [.preCall true]) failed
    rw [List.append_assoc] at ran
    have := Course.failed (binds.observed before) ran
    rwa [notes_observed] at this
  | refused answers post =>
    have := Course.refused (answers.observed before) (run_noted _ post)
    rwa [notes_observed, List.append_assoc] at this
  | resultMismatch answers post invalid =>
    have := Course.resultMismatch (answers.observed before) (run_noted _ post) invalid
    rwa [notes_observed, List.append_assoc] at this
  | completed answers post valid =>
    have := Course.completed (answers.observed before) (run_noted _ post) valid
    rwa [notes_observed, List.append_assoc] at this

/-- The run of the observed device is that of a course of the device. -/
theorem exists_course_of_observed (method : q.method ≠ "ls" ∧ q.method ≠ "dir")
    (h : (d.observed.call q).run (s, []) = (report, (s', seen))) :
    d.Course q s report s' seen := by
  obtain ⟨report₁, s₁, seen₁, course⟩ := exists_course d q s
  cases ((course.observed []).call_eq method).symm.trans h
  exact course

/-- What the run of an observed device shows of a call of a method of the tree. The call itself is
that of the device. The stages are those of `CallStage.all` in order, as far as the call has come,
and all of them exactly when it has a result. A handler runs once at most, as the first code after
the hook has accepted and behind all guards; the hook after the call runs last, when a handler has
succeeded or a description has answered. Below the level of the method no code runs at all. -/
theorem call_guarded (ls : q.method ≠ "ls") (dir : q.method ≠ "dir")
    (run : (d.observed.call q).run (s, []) = (report, (s', seen))) :
    (d.call q).run s = (report, s') ∧
      report.stages <+: CallStage.all ∧
      (report.stages = CallStage.all ↔ ∃ v, report.answer = .ok v) ∧
      seen.countP UserCode.isHandler ≤ 1 ∧
      (∀ b, .handler b ∈ seen →
        (∃ n m, d.Guarded q n m) ∧ [.preCall true, .handler b] <+: seen) ∧
      (∀ b, .postCall b ∈ seen →
        (∃ n m, d.Guarded q n m ∧
          (seen = [.preCall true, .handler true, .postCall b] ∨
            seen = [.preCall true, .postCall b] ∧
              ∃ text, d.implementation q n m = .ok (.description text)))) ∧
      ∀ n m, d.tree.resolveMethod q.path q.method = .ok (n, m) →
        q.access.rank < m.access.rank →
        report = ⟨.error (.accessDenied q.path q.method m.access q.access), [.received]⟩ ∧
          s' = s ∧ seen = [] := by
  have course := exists_course_of_observed ⟨ls, dir⟩ run
  refine ⟨course.call_eq ⟨ls, dir⟩, course.stages_isPrefix, course.stages_eq_all,
    course.countP_isHandler_le, fun b ran => ?_, fun b ran => ?_,
    fun n m resolved low => course.of_low resolved low⟩
  · obtain ⟨m, i, s₁, binds, first⟩ := course.of_handler ran
    obtain ⟨n, guarded, -⟩ := binds.guarded
    exact ⟨⟨n, m, guarded⟩, first⟩
  · obtain ⟨m, i, v, s₂, ⟨s₁, binds, -⟩, rfl⟩ := course.of_postCall ran
    obtain ⟨n, guarded, answered⟩ := binds.guarded
    refine ⟨n, m, guarded, ?_⟩
    cases i with
    | handler h => exact .inl rfl
    | description text => exact .inr ⟨rfl, text, answered⟩

theorem asDeclared_null (r : Registry) (typeName : String) :
    r.asDeclared typeName .null = .null := by
  simp [Registry.asDeclared]

/-- A device with one method, `count`, at its root, which counts the calls of it. -/
def tally : Device Nat where
  tree := ⟨.fresh, { methods := [{ name := "count", access := .write }] }⟩
  defaultHandler := some ⟨{}, fun _ => do modify (· + 1); pure .null⟩

/-- A call of the counting method runs its handler behind the guards, and counts. -/
theorem tally_guarded :
    ("count" ≠ "ls" ∧ "count" ≠ "dir") ∧
      (tally.observed.call { path := "", method := "count", access := .write }).run (0, []) =
        (⟨.ok .null, CallStage.all⟩, (1, [.preCall true, .handler true, .postCall true])) ∧
      (tally.call { path := "", method := "count", access := .write }).run 0 =
        (⟨.ok .null, CallStage.all⟩, 1) ∧
      ∃ n m, tally.Guarded { path := "", method := "count", access := .write } n m := by
  have reaches : tally.Reaches { path := "", method := "count", access := .write }
      { name := "count", access := .write } _ := ⟨_, rfl, rfl⟩
  have answers : tally.Answers _ 0 _ _ .null 1 := ⟨_, ⟨reaches, rfl, rfl⟩, rfl⟩
  have course := Course.completed answers rfl rfl
  have run := (course.observed []).call_eq (by decide)
  rw [asDeclared_null] at run
  obtain ⟨same, -, -, -, handler, -, -⟩ := call_guarded (by decide) (by decide) run
  exact ⟨by decide, run, same, (handler true (by decide)).1⟩

end Device

end DeviceTree
