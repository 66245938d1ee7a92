import DeviceTree.Call.Dispatch
import DeviceTree.Proofs.Outcomes

/-!
# The courses of a call

A call of a method of the tree can end in eight ways. `Device.Course` lists them: what the guards
and the code of the device did on the way, the report, the state the call leaves behind, and the
code of the device that has run.

`exists_course` says that every call takes one of them, `Course.call_eq` that it reports what its
course says. What holds of all calls is then proved by cases on the course, without the dispatch.
-/

namespace DeviceTree

variable {σ : Type}

/-! ## Running a dispatch -/

namespace DispatchM

/-- The outcome of a dispatch from the stages entered so far and a state. -/
def runOn {α : Type} (x : DispatchM σ α) (stages : List CallStage) (s : σ) :
    (Except DispatchError α × List CallStage) × σ :=
  ((ExceptT.run x).run stages).run s

variable {α β : Type} {x : DispatchM σ α} {f : α → DispatchM σ β} {stages stages' : List CallStage}
  {s s' : σ} {outcome : Except DispatchError α} {wrap : HandlerError → DispatchError}
  {code : HandlerM σ α}

theorem runOn_bind_ok {a : α} (h : x.runOn stages s = ((.ok a, stages'), s')) :
    (x >>= f).runOn stages s = (f a).runOn stages' s' := by
  have h : x stages s = ((.ok a, stages'), s') := h
  show ExceptT.bind x f stages s = f a stages' s'
  simp only [ExceptT.bind, ExceptT.mk, ExceptT.bindCont, bind, StateT.bind, h]

theorem runOn_bind_error {e : DispatchError}
    (h : x.runOn stages s = ((.error e, stages'), s')) :
    (x >>= f).runOn stages s = ((.error e, stages'), s') := by
  have h : x stages s = ((.error e, stages'), s') := h
  show ExceptT.bind x f stages s = ((.error e, stages'), s')
  simp only [ExceptT.bind, ExceptT.mk, ExceptT.bindCont, bind, StateT.bind, h]
  rfl

theorem runOn_enter {stage : CallStage} {f : Unit → DispatchM σ β} :
    (enter stage >>= f).runOn stages s = (f ()).runOn (stages ++ [stage]) s := rfl

theorem runOn_settle_ok {a : α} (h : outcome = .ok a) :
    (settle outcome >>= f).runOn stages s = (f a).runOn stages s := by
  rw [h]
  exact runOn_bind_ok rfl

theorem runOn_settle_error {e : DispatchError} (h : outcome = .error e) :
    (settle outcome >>= f).runOn stages s = ((.error e, stages), s) := by
  rw [h]
  exact runOn_bind_error rfl

/-- Code of the device changes the state and enters no stage. -/
theorem runOn_perform :
    (perform wrap code).runOn stages s =
      (((code.run.run s).1.mapError wrap, stages), (code.run.run s).2) := rfl

theorem runOn_perform_ok {a : α} (h : code.run.run s = (.ok a, s')) :
    (perform wrap code >>= f).runOn stages s = (f a).runOn stages s' := by
  refine runOn_bind_ok ?_
  rw [runOn_perform, h]
  rfl

theorem runOn_perform_error {e : HandlerError} (h : code.run.run s = (.error e, s')) :
    (perform wrap code >>= f).runOn stages s = ((.error (wrap e), stages), s') := by
  refine runOn_bind_error ?_
  rw [runOn_perform, h]
  rfl

end DispatchM

/-- What a call fails for, when it fails for a value. -/
def DispatchError.refusal? : DispatchError → Option ValidationError
  | invalidParam cause | resultMismatch cause => some cause
  | _ => none

/-- The stages up to one, which is included. -/
def CallStage.through (stage : CallStage) : List CallStage :=
  CallStage.all.take (CallStage.all.idxOf stage + 1)

theorem CallStage.through_eq_all {stage : CallStage} :
    stage.through = CallStage.all ↔ stage = .completed := by
  cases stage <;> decide

/-! ## Courses -/

/-- A run of code of the device, and whether it has succeeded. -/
inductive UserCode where
  | preCall (accepted : Bool)
  | handler (succeeded : Bool)
  | postCall (succeeded : Bool)
deriving Repr, DecidableEq

/-- Whether the code of a handler has run. -/
def UserCode.isHandler : UserCode → Bool
  | handler _ => true
  | _ => false

/-- The code that runs when an implementation answers. A description runs none. -/
def Implementation.notes : Implementation σ → Bool → List UserCode
  | .handler _, succeeded => [.handler succeeded]
  | .description _, _ => []

theorem Implementation.countP_notes (i : Implementation σ) (succeeded : Bool) :
    (i.notes succeeded).countP UserCode.isHandler ≤ 1 := by
  cases i with
  | handler => exact List.countP_le_length
  | description => exact Nat.zero_le _

namespace Device

/-- The call may reach method `m`, and `i` answers it. -/
structure Reaches (d : Device σ) (q : Request) (m : Method) (i : Implementation σ) : Prop where
  found : ∃ n, d.tree.accessibleMethod q = .ok (n, m) ∧ d.implementation q n m = .ok i

/-- The call reaches its method, the hook before it accepts and the parameter is valid. -/
structure Binds (d : Device σ) (q : Request) (s : σ) (m : Method) (i : Implementation σ) (s' : σ) :
    Prop where
  reaches : d.Reaches q m i
  accepted : (d.hooks.preCall q m).run.run s = (.ok (), s')
  valid : d.tree.registry.validate m.param q.param = .ok ()

/-- The call binds its parameter and is answered with `v`. -/
structure Answers (d : Device σ) (q : Request) (s : σ) (m : Method) (i : Implementation σ)
    (v : Value) (s' : σ) : Prop where
  invoked : ∃ s₁, d.Binds q s m i s₁ ∧ (d.invoke q i).run.run s₁ = (.ok v, s')

/-- The ways a call of a method of the tree can end: the report, the state left behind, and the code
of the device that has run, in order. -/
inductive Course (d : Device σ) (q : Request) (s : σ) :
    CallReport → σ → List UserCode → Prop
  | denied {e : DispatchError} :
    d.tree.accessibleMethod q = .error e →
    d.Course q s ⟨.error e, CallStage.received.through⟩ s []
  | unanswered {n : Node} {m : Method} {e : DispatchError} :
    d.tree.accessibleMethod q = .ok (n, m) → d.implementation q n m = .error e →
    d.Course q s ⟨.error e, CallStage.accessChecked.through⟩ s []
  | rejected {m : Method} {i : Implementation σ} {e : HandlerError} {s₁ : σ} :
    d.Reaches q m i → (d.hooks.preCall q m).run.run s = (.error e, s₁) →
    d.Course q s ⟨.error (.rejected e), CallStage.handlerResolved.through⟩ s₁ [.preCall false]
  | invalidParam {m : Method} {i : Implementation σ} {e : ValidationError} {s₁ : σ} :
    d.Reaches q m i → (d.hooks.preCall q m).run.run s = (.ok (), s₁) →
    d.tree.registry.validate m.param q.param = .error e →
    d.Course q s ⟨.error (.invalidParam e), CallStage.handlerResolved.through⟩ s₁ [.preCall true]
  | failed {m : Method} {i : Implementation σ} {e : HandlerError} {s₁ s₂ : σ} :
    d.Binds q s m i s₁ → (d.invoke q i).run.run s₁ = (.error e, s₂) →
    d.Course q s ⟨.error (.handler e), CallStage.argsBound.through⟩ s₂
      (.preCall true :: i.notes false)
  | refused {m : Method} {i : Implementation σ} {v : Value} {e : HandlerError} {s₁ s₂ : σ} :
    d.Answers q s m i v s₁ → (d.hooks.postCall q m v).run.run s₁ = (.error e, s₂) →
    d.Course q s ⟨.error (.rejected e), CallStage.invoked.through⟩ s₂
      (.preCall true :: i.notes true ++ [.postCall false])
  | resultMismatch {m : Method} {i : Implementation σ} {v v' : Value} {e : ValidationError}
      {s₁ s₂ : σ} :
    d.Answers q s m i v s₁ → (d.hooks.postCall q m v).run.run s₁ = (.ok v', s₂) →
    d.tree.registry.validate m.result v' = .error e →
    d.Course q s ⟨.error (.resultMismatch e), CallStage.invoked.through⟩ s₂
      (.preCall true :: i.notes true ++ [.postCall true])
  | completed {m : Method} {i : Implementation σ} {v v' : Value} {s₁ s₂ : σ} :
    d.Answers q s m i v s₁ → (d.hooks.postCall q m v).run.run s₁ = (.ok v', s₂) →
    d.tree.registry.validate m.result v' = .ok () →
    d.Course q s ⟨.ok (d.tree.registry.asDeclared m.result v'), CallStage.completed.through⟩ s₂
      (.preCall true :: i.notes true ++ [.postCall true])

variable {d : Device σ} {q : Request} {s s' : σ} {report : CallReport} {seen : List UserCode}

/-- Every call takes one of the courses: each step on the way either ends the call or leads on. -/
theorem exists_course (d : Device σ) (q : Request) (s : σ) :
    ∃ report s' seen, d.Course q s report s' seen := by
  rcases accessible : d.tree.accessibleMethod q with e | ⟨n, m⟩
  · exact ⟨_, _, _, .denied accessible⟩
  rcases answered : d.implementation q n m with e | i
  · exact ⟨_, _, _, .unanswered accessible answered⟩
  have reaches : d.Reaches q m i := ⟨n, accessible, answered⟩
  rcases pre : (d.hooks.preCall q m).run.run s with ⟨e | ⟨⟨⟩⟩, s₁⟩
  · exact ⟨_, _, _, .rejected reaches pre⟩
  rcases valid : d.tree.registry.validate m.param q.param with e | ⟨⟨⟩⟩
  · exact ⟨_, _, _, .invalidParam reaches pre valid⟩
  have binds : d.Binds q s m i s₁ := ⟨reaches, pre, valid⟩
  rcases invoked : (d.invoke q i).run.run s₁ with ⟨e | v, s₂⟩
  · exact ⟨_, _, _, .failed binds invoked⟩
  have answers : d.Answers q s m i v s₂ := ⟨s₁, binds, invoked⟩
  rcases post : (d.hooks.postCall q m v).run.run s₂ with ⟨e | v', s₃⟩
  · exact ⟨_, _, _, .refused answers post⟩
  rcases valid' : d.tree.registry.validate m.result v' with e | ⟨⟨⟩⟩
  · exact ⟨_, _, _, .resultMismatch answers post valid'⟩
  · exact ⟨_, _, _, .completed answers post valid'⟩

/-! ## What a call does on its course -/

open DispatchM

/-- The method `ls` is answered from the tree. -/
theorem call_ls (method : q.method = "ls") :
    (d.call q).run s = (⟨d.tree.answerLs q.path q.param, [.received]⟩, s) := by
  have same : (d.dispatch q).runOn [] s = ((d.tree.answerLs q.path q.param, [.received]), s) := by
    rw [dispatch, if_pos method]
    rfl
  show ((⟨((d.dispatch q).runOn [] s).1.1, ((d.dispatch q).runOn [] s).1.2⟩ : CallReport),
    ((d.dispatch q).runOn [] s).2) = _
  rw [same]

/-- The method `dir` is answered from the tree. -/
theorem call_dir (method : q.method = "dir") :
    (d.call q).run s = (⟨d.tree.answerDir q.path q.param, [.received]⟩, s) := by
  have other : ¬ q.method = "ls" := by rw [method]; decide
  have same : (d.dispatch q).runOn [] s = ((d.tree.answerDir q.path q.param, [.received]), s) := by
    rw [dispatch, if_neg other, if_pos method]
    rfl
  show ((⟨((d.dispatch q).runOn [] s).1.1, ((d.dispatch q).runOn [] s).1.2⟩ : CallReport),
    ((d.dispatch q).runOn [] s).2) = _
  rw [same]

theorem call_run {answer : Except DispatchError Value} {stages : List CallStage}
    (method : q.method ≠ "ls" ∧ q.method ≠ "dir")
    (h : (d.callMethod q).runOn [.received] s = ((answer, stages), s')) :
    (d.call q).run s = (⟨answer, stages⟩, s') := by
  have same : (d.dispatch q).runOn [] s = (d.callMethod q).runOn [.received] s := by
    rw [dispatch, if_neg method.1, if_neg method.2]
    rfl
  show ((⟨((d.dispatch q).runOn [] s).1.1, ((d.dispatch q).runOn [] s).1.2⟩ : CallReport),
    ((d.dispatch q).runOn [] s).2) = _
  rw [same, h]

theorem Reaches.runOn_callMethod {m : Method} {i : Implementation σ} (h : d.Reaches q m i) :
    (d.callMethod q).runOn [.received] s =
      (d.callFound q m i).runOn CallStage.handlerResolved.through s := by
  obtain ⟨n, accessible, answered⟩ := h
  rw [callMethod, runOn_settle_ok accessible, runOn_enter, runOn_settle_ok answered, runOn_enter]
  rfl

theorem Binds.runOn_callMethod {m : Method} {i : Implementation σ} (h : d.Binds q s m i s') :
    (d.callMethod q).runOn [.received] s =
      (d.callBound q m i).runOn CallStage.argsBound.through s' := by
  rw [h.reaches.runOn_callMethod, callFound, runOn_perform_ok h.accepted,
    runOn_settle_ok (mapError_eq_ok.2 h.valid), runOn_enter]
  rfl

theorem Answers.runOn_callMethod {m : Method} {i : Implementation σ} {v : Value}
    (h : d.Answers q s m i v s') :
    (d.callMethod q).runOn [.received] s =
      (d.conclude q m v).runOn CallStage.invoked.through s' := by
  obtain ⟨s₁, binds, invoked⟩ := h
  rw [binds.runOn_callMethod, callBound, runOn_perform_ok invoked, runOn_enter]
  rfl

/-- A call reports what its course says and leaves the state of its course. -/
theorem Course.call_eq (method : q.method ≠ "ls" ∧ q.method ≠ "dir")
    (h : d.Course q s report s' seen) : (d.call q).run s = (report, s') := by
  refine call_run method ?_
  cases h with
  | denied denied =>
    rw [callMethod, runOn_settle_error denied]
    rfl
  | unanswered accessible unanswered =>
    rw [callMethod, runOn_settle_ok accessible, runOn_enter, runOn_settle_error unanswered]
    rfl
  | rejected reaches pre => rw [reaches.runOn_callMethod, callFound, runOn_perform_error pre]
  | invalidParam reaches pre invalid =>
    rw [reaches.runOn_callMethod, callFound, runOn_perform_ok pre, invalid]
    rfl
  | failed binds failed => rw [binds.runOn_callMethod, callBound, runOn_perform_error failed]
  | refused answers post => rw [answers.runOn_callMethod, conclude, runOn_perform_error post]
  | resultMismatch answers post invalid =>
    rw [answers.runOn_callMethod, conclude, runOn_perform_ok post, invalid]
    rfl
  | completed answers post valid =>
    rw [answers.runOn_callMethod, conclude, runOn_perform_ok post, valid]
    rfl

/-! ## What all courses have in common -/

/-- Of the values that `ls` is given, only its parameter can be refused, for its kind. -/
theorem answerLs_refusal {t : Tree} {path : String} {param : Value} {cause : DispatchError}
    {e : ValidationError} (failed : t.answerLs path param = .error cause)
    (refusal : cause.refusal? = some e) :
    e = ⟨[], "OptionalString", .kind "String" param.kind⟩ := by
  rw [Tree.answerLs] at failed
  rcases listed : t.ls path with cause' | children
  · rw [listed] at failed
    cases failed
    contradiction
  · rw [listed] at failed
    cases param <;> cases failed <;> cases refusal <;> rfl

theorem answerDir_refusal {t : Tree} {path : String} {param : Value} {cause : DispatchError}
    (failed : t.answerDir path param = .error cause) : cause.refusal? = none := by
  rw [Tree.answerDir] at failed
  rcases listed : t.dir path with cause' | descriptors
  · rw [listed] at failed
    cases failed
    rfl
  · rw [listed] at failed
    simp only [Except.mapError, bind, Except.bind] at failed
    split at failed
    · split at failed <;> contradiction
    · contradiction

/-- The guards of the code that answers a call: the method is found, the caller holds its level, it
is no signal, and the parameter has the declared type. -/
structure Guarded (d : Device σ) (q : Request) (n : Node) (m : Method) : Prop where
  resolved : d.tree.resolveMethod q.path q.method = .ok (n, m)
  granted : m.access.rank ≤ q.access.rank
  callable : m.flags.signal = false
  valid : d.tree.registry.validate m.param q.param = .ok ()

theorem accessibleMethod_eq_ok {t : Tree} {n : Node} {m : Method} :
    t.accessibleMethod q = .ok (n, m) ↔
      t.resolveMethod q.path q.method = .ok (n, m) ∧ m.access.rank ≤ q.access.rank := by
  simp only [Tree.accessibleMethod, bind_eq_ok, mapError_eq_ok, AccessLevel.grants,
    decide_eq_true_eq]
  constructor
  · rintro ⟨⟨n', m'⟩, resolved, h⟩
    split at h
    · cases h
      exact ⟨resolved, ‹_›⟩
    · contradiction
  · rintro ⟨resolved, granted⟩
    exact ⟨(n, m), resolved, if_pos granted⟩

theorem accessibleMethod_refusal {t : Tree} {cause : DispatchError}
    (h : t.accessibleMethod q = .error cause) : cause.refusal? = none := by
  rw [Tree.accessibleMethod] at h
  rcases found : t.resolveMethod q.path q.method with e | ⟨n, m⟩
  · rw [found] at h
    cases h
    rfl
  · rw [found] at h
    simp only [Except.mapError, bind, Except.bind] at h
    split at h
    · contradiction
    · cases h
      rfl

theorem implementation_refusal {n : Node} {m : Method} {cause : DispatchError}
    (h : d.implementation q n m = .error cause) : cause.refusal? = none := by
  rw [implementation] at h
  split at h
  · cases h
    rfl
  · split at h
    · contradiction
    · split at h
      · contradiction
      · split at h
        · contradiction
        · cases h
          rfl

theorem accessibleMethod_denied {t : Tree} {n : Node} {m : Method}
    (resolved : t.resolveMethod q.path q.method = .ok (n, m))
    (low : q.access.rank < m.access.rank) :
    t.accessibleMethod q = .error (.accessDenied q.path q.method m.access q.access) := by
  have denied : ¬ q.access.grants m.access = true := by
    rw [AccessLevel.grants, decide_eq_true_eq]
    omega
  rw [Tree.accessibleMethod, resolved]
  exact if_neg denied

theorem signal_of_implementation {n : Node} {m : Method} {i : Implementation σ}
    (h : d.implementation q n m = .ok i) : m.flags.signal = false := by
  rw [implementation] at h
  split at h
  · contradiction
  · exact Bool.eq_false_iff.2 ‹_›

theorem Binds.guarded {m : Method} {i : Implementation σ} (h : d.Binds q s m i s') :
    ∃ n, d.Guarded q n m ∧ d.implementation q n m = .ok i := by
  obtain ⟨n, accessible, answered⟩ := h.reaches.found
  obtain ⟨resolved, granted⟩ := accessibleMethod_eq_ok.1 accessible
  exact ⟨n, ⟨resolved, granted, signal_of_implementation answered, h.valid⟩, answered⟩

namespace Course

theorem stages_isPrefix (h : d.Course q s report s' seen) : report.stages <+: CallStage.all := by
  cases h <;> exact List.take_prefix _ _

/-- A call has come through all stages exactly when it has a result. -/
theorem stages_eq_all (h : d.Course q s report s' seen) :
    report.stages = CallStage.all ↔ ∃ v, report.answer = .ok v := by
  cases h <;> simp [CallStage.through_eq_all]

theorem countP_isHandler_le (h : d.Course q s report s' seen) :
    seen.countP UserCode.isHandler ≤ 1 := by
  cases h with
  | denied | unanswered | rejected | invalidParam => decide
  | @failed _ i | @refused _ i | @resultMismatch _ i | @completed _ i =>
    simpa [List.countP_append, List.countP_cons, UserCode.isHandler] using i.countP_notes _

/-- A handler runs only behind the guards, as the first code after the hook has accepted. -/
theorem of_handler {b : Bool} (h : d.Course q s report s' seen) (ran : .handler b ∈ seen) :
    ∃ m i s₁, d.Binds q s m i s₁ ∧ [.preCall true, .handler b] <+: seen := by
  cases h with
  | denied | unanswered | rejected | invalidParam => simp at ran
  | @failed _ i _ _ _ binds =>
    cases i with
    | handler =>
      obtain rfl : b = false := by simpa [Implementation.notes] using ran
      exact ⟨_, _, _, binds, List.prefix_rfl⟩
    | description => simp [Implementation.notes] at ran
  | @refused _ i _ _ _ _ answers | @resultMismatch _ i _ _ _ _ _ answers
  | @completed _ i _ _ _ _ answers =>
    obtain ⟨s₁, binds, -⟩ := answers
    cases i with
    | handler =>
      obtain rfl : b = true := by simpa [Implementation.notes] using ran
      exact ⟨_, _, _, binds, List.prefix_append [_, _] _⟩
    | description => simp [Implementation.notes] at ran

/-- The hook after a call runs last, and only when the call is answered. -/
theorem of_postCall {b : Bool} (h : d.Course q s report s' seen) (ran : .postCall b ∈ seen) :
    ∃ m i v s₁, d.Answers q s m i v s₁ ∧ seen = .preCall true :: i.notes true ++ [.postCall b] := by
  have notes (i : Implementation σ) (b' : Bool) : .postCall b ∉ i.notes b' := by
    cases i <;> simp [Implementation.notes]
  cases h with
  | denied | unanswered | rejected | invalidParam => simp at ran
  | failed => simp [notes] at ran
  | refused answers | resultMismatch answers | completed answers =>
    simp only [List.cons_append, List.mem_cons, reduceCtorEq, List.mem_append, notes, false_or,
      UserCode.postCall.injEq, List.not_mem_nil, or_false] at ran
    exact ⟨_, _, _, _, answers, by rw [ran]⟩

/-- A call fails for a value that its method takes or gives. -/
theorem of_refusal {cause : DispatchError} {e : ValidationError}
    (h : d.Course q s report s' seen) (failed : report.answer = .error cause)
    (refusal : cause.refusal? = some e) :
    ∃ m i v, d.Reaches q m i ∧ (d.tree.registry.validate m.param v = .error e ∨
      d.tree.registry.validate m.result v = .error e) := by
  cases h with
  | denied h =>
    cases failed
    rw [accessibleMethod_refusal h] at refusal
    contradiction
  | unanswered _ h =>
    cases failed
    rw [implementation_refusal h] at refusal
    contradiction
  | invalidParam reaches _ invalid =>
    cases failed
    cases refusal
    exact ⟨_, _, _, reaches, .inl invalid⟩
  | resultMismatch answers _ invalid =>
    cases failed
    cases refusal
    obtain ⟨s₁, binds, -⟩ := answers
    exact ⟨_, _, _, binds.reaches, .inr invalid⟩
  | rejected | failed | refused =>
    cases failed
    contradiction
  | completed => contradiction

/-- Below the level of the method, nothing of the device runs. -/
theorem of_low {n : Node} {m : Method} (h : d.Course q s report s' seen)
    (resolved : d.tree.resolveMethod q.path q.method = .ok (n, m))
    (low : q.access.rank < m.access.rank) :
    report = ⟨.error (.accessDenied q.path q.method m.access q.access), [.received]⟩ ∧
      s' = s ∧ seen = [] := by
  have denied := accessibleMethod_denied resolved low
  have none {m : Method} {i : Implementation σ} : ¬ d.Reaches q m i := by
    rintro ⟨n, accessible, -⟩
    rw [denied] at accessible
    contradiction
  cases h with
  | denied h =>
    cases denied.symm.trans h
    exact ⟨rfl, rfl, rfl⟩
  | unanswered h =>
    rw [denied] at h
    contradiction
  | rejected reaches | invalidParam reaches => exact absurd reaches none
  | failed binds => exact absurd binds.reaches none
  | refused answers | resultMismatch answers | completed answers =>
    obtain ⟨s₁, binds, -⟩ := answers
    exact absurd binds.reaches none

end Course

/-- The course of a run whose outcome is known. -/
theorem exists_course_of_call (method : q.method ≠ "ls" ∧ q.method ≠ "dir")
    (h : (d.call q).run s = (report, s')) : ∃ seen, d.Course q s report s' seen := by
  obtain ⟨report₁, s₁, seen, course⟩ := exists_course d q s
  cases (course.call_eq method).symm.trans h
  exact ⟨seen, course⟩

end Device

end DeviceTree
