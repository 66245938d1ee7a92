import DeviceTree.Dummy
import DeviceTree.Proofs.BitSpans
import DeviceTree.Proofs.HandlerNames

/-!
# The clock of the dummy device

The dummy device keeps by how much its clock is ahead of that of its source. Only calls of `set` at
`utcTime` change that, and only those that come to the making of their result: the clock is set
before the result is made. `Dummy.call_clock` says what one call does to the clock, and
`Dummy.callAll_clock` what a run of calls leaves.
-/

namespace DeviceTree

variable {σ α β : Type}

/-! ## Runs of calls -/

/-- A call that has been made: the state it started from and what it has reported. -/
structure Called (σ : Type) where
  request : Request
  before : σ
  report : CallReport

/-- Calls in the order of their requests. -/
def Device.callAll (d : Device σ) : List Request → StateM σ (List (Called σ))
  | [] => pure []
  | request :: rest => do
    let before ← get
    let report ← d.call request
    let later ← d.callAll rest
    pure (⟨request, before, report⟩ :: later)

theorem Device.run_callAll_cons {d : Device σ} {q : Request} {rest : List Request} {s s' : σ}
    {report : CallReport} (run : (d.call q).run s = (report, s')) :
    (d.callAll (q :: rest)).run s =
      (⟨q, s, report⟩ :: ((d.callAll rest).run s').1, ((d.callAll rest).run s').2) := by
  have run : d.call q s = (report, s') := run
  simp only [callAll, StateT.run, bind, StateT.bind, get, getThe, MonadStateOf.get, StateT.get,
    pure, run]
  rfl

/-- Whether a call has come to the making of its result: it has one, or has failed in making it. -/
def CallReport.comesToResult (report : CallReport) : Bool :=
  match report.answer with
  | .ok _ | .error (.handler (.failed _)) | .error (.resultMismatch _) => true
  | .error _ => false

namespace Dummy

variable {env : Environment σ} {tree : Tree} {w w' : World σ}

/-- By how much a request sets the clock ahead: it calls `set` at `utcTime` with a time, and the
parameter of the method is a time for the tree. The clock of the source is read in the state in
which the call starts. -/
def requested? (env : Environment σ) (tree : Tree) (q : Request) (w : World σ) : Option Int :=
  if q.path = "utcTime" ∧ q.method = "set" then
    match tree.resolveMethod q.path q.method, q.param with
    | .ok (_, m), .dateTime t =>
      if isDateTime tree.registry m.param then
        some (t.nanosSince (env.source.now.run w.source).1)
      else none
    | _, _ => none
  else none

/-- By how much a call has set the clock ahead, if it has. -/
def setting? (env : Environment σ) (tree : Tree) (c : Called (World σ)) : Option Int :=
  if c.report.comesToResult then requested? env tree c.request c.before else none

/-! ## Code that keeps the clock -/

/-- The code leaves the clock as it is. -/
def KeepsClock (code : HandlerM (World σ) α) : Prop :=
  ∀ w, (code.run.run w).2.timeOffset = w.timeOffset

namespace KeepsClock

variable {code : HandlerM (World σ) α} {f : α → HandlerM (World σ) β}

protected theorem pure (a : α) : KeepsClock (pure a : HandlerM (World σ) α) :=
  fun _ => rfl

protected theorem throw (e : HandlerError) : KeepsClock (throw e : HandlerM (World σ) α) :=
  fun _ => rfl

theorem fromSource (code : StateM σ α) : KeepsClock (fromSource code) :=
  fun _ => rfl

protected theorem bind (first : KeepsClock code) (rest : ∀ a, KeepsClock (f a)) :
    KeepsClock (code >>= f) := by
  intro w
  have kept := first w
  rcases ran : code.run.run w with ⟨e | a, w₁⟩ <;> rw [ran] at kept
  · rwa [run_bind_error ran]
  · rwa [run_bind_ok ran, rest a w₁]

end KeepsClock

theorem generate_keepsClock (r : Registry) (name : String) : KeepsClock (generate env r name) := by
  refine .bind (.fromSource _) fun generated => ?_
  cases generated with
  | ok v => exact .pure v
  | error e => exact .throw _

theorem calledMethod_keepsClock (c : CallContext (World σ)) : KeepsClock (calledMethod c) := by
  rw [calledMethod]
  split
  · exact .pure _
  · exact .throw _

theorem anyMethod_keepsClock (c : CallContext (World σ)) : KeepsClock (anyMethod env c) :=
  .bind (calledMethod_keepsClock c) fun _ => generate_keepsClock _ _

theorem serialNumberGet_keepsClock (c : CallContext (World σ)) :
    KeepsClock (serialNumberGet env c) := by
  refine .bind (calledMethod_keepsClock c) fun m => ?_
  split
  · exact .pure _
  · exact generate_keepsClock _ _

theorem statusGet_keepsClock (c : CallContext (World σ)) : KeepsClock (statusGet env c) := by
  refine .bind (calledMethod_keepsClock c) fun m => ?_
  split
  · split
    · exact .pure _
    · exact generate_keepsClock _ _
  · exact generate_keepsClock _ _

theorem timeGet_keepsClock (offset : Int) (c : CallContext (World σ)) :
    KeepsClock (timeGet env offset c) := by
  refine .bind (calledMethod_keepsClock c) fun m => ?_
  split
  · exact .bind (.fromSource _) fun now => .bind (fun _ => rfl) fun world => .pure _
  · exact generate_keepsClock _ _

/-! ## The handlers of well-known nodes -/

/-- The handler of `set` at `utcTime` has its name for itself. -/
theorem handlerName_eq_utcTime_set {path method : String} :
    handlerName path method = handlerName "utcTime" "set" ↔ path = "utcTime" ∧ method = "set" := by
  have letters : Text.isAlphanumeric 'u' = true ∧ Text.isAlphanumeric 't' = true ∧
      Text.isAlphanumeric 'c' = true ∧ Text.isAlphanumeric 'T' = true ∧
      Text.isAlphanumeric 'i' = true ∧ Text.isAlphanumeric 'm' = true ∧
      Text.isAlphanumeric 'e' = true ∧ Text.isAlphanumeric 's' = true := by
    simp only [isAlphanumeric_eq_countP]
    decide +kernel
  have plain : PlainNames "utcTime" "set" := by
    constructor <;> simp [letters]
  exact handlerName_eq_iff_of_plain plain (by decide)

theorem get?_wellKnown_utcTime_set : (wellKnown env).get? (handlerName "utcTime" "set") =
    some (reading [.method, .param] (utcTimeSet env)) := by
  have other : handlerName "utcTime" "set" ≠ handlerName "localTime" "get" := fun same =>
    absurd (handlerName_eq_utcTime_set.1 same.symm).1 (by decide)
  refine (OrderedMap.get?_ofList _ _).trans ?_
  rw [List.reverse_cons, List.reverse_cons, List.reverse_cons, List.reverse_cons,
    List.reverse_cons, List.reverse_nil]
  simp only [List.nil_append, List.cons_append]
  rw [lookup_cons_eq_ite, if_neg other, lookup_cons_eq_ite, if_pos rfl]

/-- The other handlers keep the clock. -/
theorem keepsClock_of_get?_wellKnown {name : String} {h : RegisteredHandler (World σ)}
    (other : name ≠ handlerName "utcTime" "set") (found : (wellKnown env).get? name = some h)
    (c : CallContext (World σ)) : KeepsClock (h.run c) := by
  have listed := OrderedMap.mem_of_get?_ofList found
  simp only [List.mem_cons, List.not_mem_nil, or_false, Prod.mk.injEq] at listed
  rcases listed with ⟨-, rfl⟩ | ⟨-, rfl⟩ | ⟨-, rfl⟩ | ⟨set, -⟩ | ⟨-, rfl⟩
  · exact serialNumberGet_keepsClock c
  · exact statusGet_keepsClock c
  · exact timeGet_keepsClock _ c
  · exact absurd set other
  · exact timeGet_keepsClock _ c

/-! ## Setting the clock -/

section

variable {c : CallContext (World σ)} {m : Method} {t : Timestamp}
  {outcome : Except HandlerError Value}

theorem run_calledMethod (method : c.method? = some m) :
    (calledMethod c).run.run w = (.ok m, w) := by
  rw [calledMethod, method]
  rfl

theorem run_fromSource (code : StateM σ α) (w : World σ) :
    (fromSource code).run.run w =
      (.ok (code.run w.source).1, { w with source := (code.run w.source).2 }) :=
  rfl

theorem run_generate_ok {r : Registry} {name : String} {v : Value} {s : σ}
    (given : (r.generate env.source name).run.run w.source = (.ok v, s)) :
    (generate env r name).run.run w = (.ok v, { w with source := s }) := by
  rw [generate, run_bind_ok (run_fromSource _ w), given]
  rfl

theorem run_generate_error {r : Registry} {name : String} {e : GenerateError} {s : σ}
    (given : (r.generate env.source name).run.run w.source = (.error e, s)) :
    (generate env r name).run.run w = (.error (.failed e.message), { w with source := s }) := by
  rw [generate, run_bind_ok (run_fromSource _ w), given]
  rfl

theorem generate_error {r : Registry} {name : String} {e : HandlerError}
    (failed : (generate env r name).run.run w = (.error e, w')) : ∃ reason, e = .failed reason := by
  rw [generate, run_bind_ok (run_fromSource _ w)] at failed
  split at failed <;> cases failed
  exact ⟨_, rfl⟩

theorem utcTimeSet_keepsClock (method : c.method? = some m)
    (other : isDateTime c.registry m.param = false) : KeepsClock (utcTimeSet env c) := by
  intro w
  rw [utcTimeSet, run_bind_ok (run_calledMethod method), other]
  exact generate_keepsClock _ _ w

/-- A time is set before the result is made, unless it is not in universal time. -/
theorem run_utcTimeSet (method : c.method? = some m)
    (time : isDateTime c.registry m.param = true) (given : c.param? = some (.dateTime t)) :
    (utcTimeSet env c).run.run w =
      if t.offset ≠ 0 then (.error (.invalidParam "DateTime must be in UTC"), w)
      else (generate env c.registry m.result).run.run
        { source := (env.source.now.run w.source).2,
          timeOffset := t.nanosSince (env.source.now.run w.source).1 } := by
  rw [utcTimeSet, run_bind_ok (run_calledMethod method)]
  simp only [time, given, if_true]
  by_cases utc : t.offset = 0
  · simp only [utc, ne_eq, not_true, if_false]
    rfl
  · simp only [utc, ne_eq, not_false_eq_true, if_true]
    rfl

/-- Whether a handler has come to the making of its result. -/
def makesResult : Except HandlerError Value → Bool
  | .ok _ | .error (.failed _) => true
  | .error _ => false

/-- A handler that generates its result has come to it. -/
theorem makesResult_of_generate {r : Registry} {name : String}
    (run : (generate env r name).run.run w = (outcome, w')) : makesResult outcome = true := by
  cases outcome with
  | ok v => rfl
  | error e =>
    obtain ⟨reason, rfl⟩ := generate_error run
    rfl

/-- The handler refuses the time and keeps the clock, or sets it and comes to its result. -/
theorem utcTimeSet_clock (method : c.method? = some m)
    (time : isDateTime c.registry m.param = true) (given : c.param? = some (.dateTime t))
    (run : (utcTimeSet env c).run.run w = (outcome, w')) :
    w'.timeOffset = if makesResult outcome then t.nanosSince (env.source.now.run w.source).1
      else w.timeOffset := by
  rw [run_utcTimeSet method time given] at run
  split at run
  · cases run
    rfl
  · have keeps : KeepsClock (generate env c.registry m.result) := generate_keepsClock _ _
    have kept := keeps { source := (env.source.now.run w.source).2,
                         timeOffset := t.nanosSince (env.source.now.run w.source).1 }
    rw [run] at kept
    rw [makesResult_of_generate run, if_pos rfl]
    exact kept

end

/-! ## Calls of the dummy device -/

section

variable {q : Request} {n : Node} {m : Method} {i : Implementation (World σ)}
  {w₁ w₂ : World σ} {outcome : Except HandlerError Value}

/-- What answers a call of another method keeps the clock. -/
theorem keepsClock_of_implementation (other : ¬ (q.path = "utcTime" ∧ q.method = "set"))
    (answered : (device env tree).implementation q n m = .ok i) :
    KeepsClock ((device env tree).invoke q i) := by
  rw [Device.implementation] at answered
  split at answered
  · contradiction
  · split at answered
    · next h found =>
      cases answered
      exact keepsClock_of_get?_wellKnown (mt handlerName_eq_utcTime_set.1 other) found _
    · split at answered
      · cases answered
        exact .pure _
      · cases answered
        exact anyMethod_keepsClock _

theorem implementation_utcTime_set (path : q.path = "utcTime") (method : q.method = "set")
    (answered : (device env tree).implementation q n m = .ok i) :
    i = .handler (reading [.method, .param] (utcTimeSet env)) := by
  rw [Device.implementation, path, method, show (device env tree).handlers = wellKnown env from rfl,
    get?_wellKnown_utcTime_set] at answered
  split at answered
  · contradiction
  · cases answered
    rfl

/-- A parameter that is a time for the tree is one. -/
theorem exists_time {r : Registry} {name : String} {v : Value} (time : isDateTime r name = true)
    (valid : r.validate name v = .ok ()) : ∃ t, v = .dateTime t := by
  rw [isDateTime] at time
  split at time
  · next resolved =>
    obtain ⟨k, accepts⟩ := Registry.Matches.of_resolve resolved (Registry.validate_eq_ok.1 valid)
    cases accepts
    exact ⟨_, rfl⟩
  · contradiction

theorem requested?_of_time {t : Timestamp} (path : q.path = "utcTime") (method : q.method = "set")
    (resolved : tree.resolveMethod q.path q.method = .ok (n, m))
    (time : isDateTime tree.registry m.param = true) (given : q.param = .dateTime t) :
    requested? env tree q w = some (t.nanosSince (env.source.now.run w.source).1) := by
  rw [requested?, if_pos ⟨path, method⟩, resolved, given]
  exact if_pos time

theorem requested?_of_other (resolved : tree.resolveMethod q.path q.method = .ok (n, m))
    (other : isDateTime tree.registry m.param = false) : requested? env tree q w = none := by
  rw [requested?, resolved]
  split
  · split
    · next found _ =>
      cases found
      rw [other, if_neg (by decide)]
    · rfl
  · rfl

/-- The context of a call that sets the clock. -/
def setContext (tree : Tree) (q : Request) : CallContext (World σ) :=
  .ofRequest tree (.ofList [.method, .param]) q .silent

theorem method?_setContext (resolved : tree.resolveMethod q.path q.method = .ok (n, m)) :
    (setContext (σ := σ) tree q).method? = some m := by
  have declared : (ContextFields.ofList [.method, .param]).contains .method = true := by decide
  exact (if_pos declared).trans (congrArg (Option.map Prod.snd <| Except.toOption ·) resolved)

theorem param?_setContext : (setContext (σ := σ) tree q).param? = some q.param := by
  have declared : (ContextFields.ofList [.method, .param]).contains .param = true := by decide
  simp only [setContext, CallContext.ofRequest, declared, if_true]

/-- The handler of a call that sets the clock, once the time is accepted. -/
theorem run_invoke_set {t : Timestamp} (resolved : tree.resolveMethod q.path q.method = .ok (n, m))
    (time : isDateTime tree.registry m.param = true) (given : q.param = .dateTime t)
    (utc : t.offset = 0) :
    ((device env tree).invoke q
        (.handler (reading [.method, .param] (utcTimeSet env)))).run.run w =
      (generate env tree.registry m.result).run.run
        { source := (env.source.now.run w.source).2,
          timeOffset := t.nanosSince (env.source.now.run w.source).1 } := by
  have param : (setContext (σ := σ) tree q).param? = some (.dateTime t) := by
    rw [param?_setContext, given]
  exact (run_utcTimeSet (method?_setContext resolved) time param).trans
    (if_neg (not_not_intro utc))

/-- What answers a bound call sets the clock as requested when it comes to its result. -/
theorem invoke_clock (binds : (device env tree).Binds q w m i w₁)
    (invoked : ((device env tree).invoke q i).run.run w₁ = (outcome, w₂)) :
    w₂.timeOffset =
      (if makesResult outcome then requested? env tree q w else none).getD w.timeOffset := by
  obtain ⟨n, guarded, answered⟩ := binds.guarded
  obtain rfl : w = w₁ := by
    cases binds.accepted
    rfl
  have resolved : tree.resolveMethod q.path q.method = .ok (n, m) := guarded.resolved
  by_cases here : q.path = "utcTime" ∧ q.method = "set"
  · obtain rfl := implementation_utcTime_set here.1 here.2 answered
    have invoked : (utcTimeSet env (setContext tree q)).run.run w = (outcome, w₂) := invoked
    have method := method?_setContext (σ := σ) resolved
    cases time : isDateTime tree.registry m.param with
    | true =>
      obtain ⟨t, given⟩ := exists_time time guarded.valid
      have param : (setContext (σ := σ) tree q).param? = some (.dateTime t) := by
        rw [param?_setContext, given]
      rw [utcTimeSet_clock method time param invoked,
        requested?_of_time here.1 here.2 resolved time given]
      cases makesResult outcome <;> rfl
    | false =>
      have keeps : KeepsClock (utcTimeSet env (setContext tree q)) :=
        utcTimeSet_keepsClock method time
      have kept := keeps w
      rw [invoked] at kept
      rw [kept, requested?_of_other resolved time, ite_self, Option.getD_none]
  · have kept := keepsClock_of_implementation here answered w
    rw [invoked] at kept
    rw [kept, requested?, if_neg here, ite_self, Option.getD_none]

/-- A guarded call of `set` at `utcTime` comes to its handler. -/
theorem binds_set (path : q.path = "utcTime") (method : q.method = "set")
    (guarded : (device env tree).Guarded q n m) :
    (device env tree).Binds q w m (.handler (reading [.method, .param] (utcTimeSet env))) w := by
  have accessible := Device.accessibleMethod_eq_ok.2 ⟨guarded.resolved, guarded.granted⟩
  refine ⟨⟨n, accessible, ?_⟩, rfl, guarded.valid⟩
  rw [Device.implementation, path, method, guarded.callable,
    show (device env tree).handlers = wellKnown env from rfl, get?_wellKnown_utcTime_set]
  rfl

/-- A call that is not found or not granted has not come to its result. -/
theorem comesToResult_of_accessibleMethod {e : DispatchError} {stages : List CallStage}
    (denied : tree.accessibleMethod q = .error e) :
    CallReport.comesToResult ⟨.error e, stages⟩ = false := by
  rw [Tree.accessibleMethod] at denied
  cases found : tree.resolveMethod q.path q.method with
  | error cause =>
    rw [found] at denied
    cases denied
    rfl
  | ok found' =>
    rw [found] at denied
    simp only [Except.mapError, bind, Except.bind] at denied
    split at denied
    · contradiction
    · cases denied
      rfl

/-- A call that nothing answers has not come to its result. -/
theorem comesToResult_of_implementation {d : Device σ} {e : DispatchError}
    {stages : List CallStage} (unanswered : d.implementation q n m = .error e) :
    CallReport.comesToResult ⟨.error e, stages⟩ = false := by
  rw [Device.implementation] at unanswered
  repeat' split at unanswered
  all_goals cases unanswered
  all_goals rfl

/-- What one call does to the clock. -/
theorem call_clock {report : CallReport}
    (run : ((device env tree).call q).run w = (report, w')) :
    w'.timeOffset = (setting? env tree ⟨q, w, report⟩).getD w.timeOffset := by
  by_cases standard : q.method = "ls" ∨ q.method = "dir"
  · have other : ¬ (q.path = "utcTime" ∧ q.method = "set") := by
      rintro ⟨-, set⟩
      rw [set] at standard
      exact absurd standard (by decide)
    have none : setting? env tree ⟨q, w, report⟩ = none := by
      rw [setting?, requested?, if_neg other, ite_self]
    rw [none]
    rcases standard with ls | dir
    · rw [Device.call_ls ls] at run
      cases run
      rfl
    · rw [Device.call_dir dir] at run
      cases run
      rfl
  · rw [not_or] at standard
    obtain ⟨seen, course⟩ := Device.exists_course_of_call standard run
    cases course with
    | denied denied =>
      rw [setting?, comesToResult_of_accessibleMethod denied]
      rfl
    | unanswered accessible unanswered =>
      rw [setting?, comesToResult_of_implementation unanswered]
      rfl
    | rejected reaches pre => cases pre
    | invalidParam reaches pre invalid =>
      cases pre
      rfl
    | @failed _ _ e _ _ binds invoked =>
      have set := invoke_clock binds invoked
      cases e <;> exact set
    | refused answers post => cases post
    | resultMismatch answers post invalid =>
      cases post
      obtain ⟨w₁, binds, invoked⟩ := answers
      exact invoke_clock binds invoked
    | completed answers post valid =>
      cases post
      obtain ⟨w₁, binds, invoked⟩ := answers
      exact invoke_clock binds invoked

/-- A call of `set` at `utcTime` that has a result was given a time, where its parameter is one. -/
theorem exists_time_of_ok {report : CallReport} {v : Value}
    (run : ((device env tree).call q).run w = (report, w')) (answered : report.answer = .ok v)
    (method : q.method = "set") (resolved : tree.resolveMethod q.path q.method = .ok (n, m))
    (time : isDateTime tree.registry m.param = true) : ∃ t, q.param = .dateTime t := by
  obtain ⟨seen, course⟩ :=
    Device.exists_course_of_call (by rw [method]; decide) run
  cases course with
  | completed answers =>
    obtain ⟨w₁, binds, -⟩ := answers
    obtain ⟨n', guarded, -⟩ := binds.guarded
    cases resolved.symm.trans guarded.resolved
    exact exists_time time guarded.valid
  | _ => contradiction

/-- What a run of calls leaves is what the last call has set that set the clock. -/
theorem callAll_clock (requests : List Request) (w : World σ) :
    (((device env tree).callAll requests).run w).2.timeOffset =
      ((((device env tree).callAll requests).run w).1.filterMap (setting? env tree)).getLast?.getD
        w.timeOffset := by
  induction requests generalizing w with
  | nil => rfl
  | cons q rest ih =>
    rcases called : ((device env tree).call q).run w with ⟨report, w₁⟩
    rw [Device.run_callAll_cons called, ih w₁, call_clock called, List.filterMap_cons]
    cases setting? env tree ⟨q, w, report⟩ with
    | none => rfl
    | some ahead => rw [List.getLast?_cons, Option.getD_some, Option.getD_some]

end

/-- The clock of a dummy device over a run of calls. At the end it is as far ahead as it was last
set, and not ahead when it was not. A call sets the clock when it calls `set` at `utcTime` with a
time where one is expected, and comes to its result: then the clock is ahead by the time given less
the time of the source. Calls of other methods keep the clock, and so do calls that fail, unless
they fail in making their result or for its type. -/
theorem clock_of_calls (env : Environment σ) (tree : Tree) :
    (∀ requests source, (((device env tree).callAll requests).run { source }).2.timeOffset =
      ((((device env tree).callAll requests).run { source }).1.filterMap
        (setting? env tree)).getLast?.getD 0) ∧
      ∀ q w report w', ((device env tree).call q).run w = (report, w') →
        w'.timeOffset = (setting? env tree ⟨q, w, report⟩).getD w.timeOffset ∧
        (¬ (q.path = "utcTime" ∧ q.method = "set") → w'.timeOffset = w.timeOffset) ∧
        (∀ e, report.answer = .error e → (∀ reason, e ≠ .handler (.failed reason)) →
          (∀ cause, e ≠ .resultMismatch cause) → w'.timeOffset = w.timeOffset) ∧
        ∀ v n m, report.answer = .ok v → q.path = "utcTime" → q.method = "set" →
          tree.resolveMethod q.path q.method = .ok (n, m) →
          isDateTime tree.registry m.param = true →
          ∃ t, q.param = .dateTime t ∧
            w'.timeOffset = t.nanosSince (env.source.now.run w.source).1 := by
  refine ⟨fun requests source => callAll_clock requests _, fun q w report w' run => ?_⟩
  have clock := call_clock run
  refine ⟨clock, fun other => ?_, fun e failed early late => ?_,
    fun v n m answered path method resolved time => ?_⟩
  · rw [clock, setting?, requested?, if_neg other, ite_self, Option.getD_none]
  · have before : report.comesToResult = false := by
      rw [CallReport.comesToResult, failed]
      split
      · contradiction
      · next same => exact absurd (Except.error.inj same) (early _)
      · next same => exact absurd (Except.error.inj same) (late _)
      · rfl
    rw [clock, setting?, before]
    rfl
  · obtain ⟨t, given⟩ := exists_time_of_ok run answered method resolved time
    have made : report.comesToResult = true := by rw [CallReport.comesToResult, answered]
    refine ⟨t, given, ?_⟩
    rw [clock, setting?, made, if_pos rfl, requested?_of_time path method resolved time given,
      Option.getD_some]

end Dummy

/-- A document with a clock whose `set` gives values of the named type, and with a type that has no
values. -/
def clockDocument (result : String) : Document :=
  let set : MethodSpec := { param := some "DateTime", result := some result }
  { types := [("never", .arr [])], nodes := [("utcTime", { methods := [("set", set)] })] }

/-- A tree with a clock whose `set` gives values of the named type. -/
def clockTree (r : Registry) (result : String) : Tree :=
  let set : Method := { name := "set", param := "DateTime", result }
  ⟨r, { children := [{ name := "utcTime", path := "utcTime", methods := [set] }] }⟩

open Loading in
theorem clockDocument_loads {r : Registry} {result : String}
    (types : loadTypes (clockDocument result).types = .ok r)
    (time : r.contains "DateTime" = true) (known : r.contains result = true) :
    Tree.ofDocument (clockDocument result) = .ok (clockTree r result) := by
  have declared (l : Location) :
      declaredMethod r l "set" { param := some "DateTime", result := some result } =
        .ok { name := "set", param := "DateTime", result } := by
    refine bind_eq_ok.2 ⟨(), rfl, bind_eq_ok.2 ⟨(), rfl, bind_eq_ok.2 ⟨"DateTime", ?_, ?_⟩⟩⟩
    · exact if_pos time
    · exact bind_eq_ok.2 ⟨result, if_pos known, rfl⟩
  have methods (l : Location) : addDeclaredMethods r l []
      [("set", { param := some "DateTime", result := some result })] =
        .ok [{ name := "set", param := "DateTime", result }] :=
    bind_eq_ok.2 ⟨_, declared _, rfl⟩
  have node (l : Location) : loadNode r l "" "utcTime"
      { methods := [("set", { param := some "DateTime", result := some result })] } =
        .ok { name := "utcTime", path := "utcTime",
              methods := [{ name := "set", param := "DateTime", result }] } := by
    have bare : bareNode r l "" "utcTime"
        { methods := [("set", { param := some "DateTime", result := some result })] } =
          .ok { name := "utcTime", path := "utcTime",
                methods := [{ name := "set", param := "DateTime", result }] } :=
      bind_eq_ok.2 ⟨(), rfl, bind_eq_ok.2 ⟨(), rfl, bind_eq_ok.2 ⟨(none, []), rfl,
        bind_eq_ok.2 ⟨_, methods _, rfl⟩⟩⟩⟩
    exact bind_eq_ok.2 ⟨_, bare, rfl⟩
  exact bind_eq_ok.2 ⟨r, types, bind_eq_ok.2 ⟨(), rfl,
    bind_eq_ok.2 ⟨_, bind_eq_ok.2 ⟨_, node _, rfl⟩, rfl⟩⟩⟩

/-- A source whose time stands still. -/
def stillSource : Dummy.Environment Unit :=
  { source := .least ⟨1700000000, 0, 0⟩ }

/-- A request that sets the clock a minute ahead of the still source. -/
def minuteAhead : Request :=
  { path := "utcTime", method := "set", param := .dateTime ⟨1700000060, 0, 0⟩ }

/-- The types of the clock: null is generated, and what has no values is not. -/
theorem clockTypes_load : ∃ r, Loading.loadTypes (clockDocument "Null").types = .ok r ∧
    (r.contains "DateTime" = true ∧ r.contains "Null" = true ∧ r.contains "never" = true) ∧
    (Dummy.isDateTime r "DateTime" = true ∧
      r.validate "DateTime" minuteAhead.param = .ok () ∧ r.validate "Null" .null = .ok ()) ∧
    (r.generate stillSource.source "Null").run.run () = (.ok .null, ()) ∧
    (r.generate stillSource.source "never").run.run () = (.error (.unsatisfiable "never"), ()) := by
  have run : (fun r => ((r.contains "DateTime", r.contains "Null", r.contains "never"),
      (Dummy.isDateTime r "DateTime", r.validate "DateTime" minuteAhead.param,
        r.validate "Null" .null),
      (r.generate stillSource.source "Null").run.run (),
      (r.generate stillSource.source "never").run.run ())) <$>
      Loading.loadTypes (clockDocument "Null").types =
    .ok ((true, true, true), (true, .ok (), .ok ()), (.ok .null, ()),
      (.error (.unsatisfiable "never"), ())) := by cbv
  obtain ⟨r, types, shown⟩ := map_eq_ok.1 run
  simp only [Prod.mk.injEq] at shown
  exact ⟨r, types, shown⟩

/-- A call that gives null sets the clock a minute ahead. -/
theorem clockDocument_set :
    ∃ t report w', Tree.ofDocument (clockDocument "Null") = .ok t ∧
      ((Dummy.device stillSource t).call minuteAhead).run { source := () } = (report, w') ∧
      report.answer = .ok .null ∧ w'.timeOffset = 60000000000 := by
  obtain ⟨r, types, ⟨time, null, -⟩, ⟨isTime, valid, result⟩, generated, -⟩ := clockTypes_load
  have guarded : (Dummy.device stillSource (clockTree r "Null")).Guarded minuteAhead _ _ :=
    ⟨rfl, by decide, rfl, valid⟩
  have binds := Dummy.binds_set (w := { source := () }) rfl rfl guarded
  have invoked := (Dummy.run_invoke_set (w := { source := () }) guarded.resolved isTime rfl
    rfl).trans (Dummy.run_generate_ok generated)
  have course := Device.Course.completed ⟨_, binds, invoked⟩ rfl result
  rw [Device.asDeclared_null] at course
  have run := course.call_eq (by decide)
  obtain ⟨-, calls⟩ := Dummy.clock_of_calls stillSource (clockTree r "Null")
  obtain ⟨-, -, -, sets⟩ := calls _ _ _ _ run
  obtain ⟨t, ⟨⟩, set⟩ := sets _ _ _ rfl rfl rfl rfl isTime
  exact ⟨_, _, _, clockDocument_loads types time null, run, rfl, set⟩

/-- A call that fails since there is no result sets the clock a minute ahead too. -/
theorem clockDocument_failing_set :
    ∃ t report w', Tree.ofDocument (clockDocument "never") = .ok t ∧
      ((Dummy.device stillSource t).call minuteAhead).run { source := () } = (report, w') ∧
      (∃ e, report.answer = .error e) ∧ w'.timeOffset ≠ 0 := by
  obtain ⟨r, types, ⟨time, -, never⟩, ⟨isTime, valid, -⟩, -, failed⟩ := clockTypes_load
  have guarded : (Dummy.device stillSource (clockTree r "never")).Guarded minuteAhead _ _ :=
    ⟨rfl, by decide, rfl, valid⟩
  have binds := Dummy.binds_set (w := { source := () }) rfl rfl guarded
  have invoked := (Dummy.run_invoke_set (w := { source := () }) guarded.resolved isTime rfl
    rfl).trans (Dummy.run_generate_error failed)
  have run := (Device.Course.failed binds invoked).call_eq (by decide)
  exact ⟨_, _, _, clockDocument_loads types time never, run, ⟨_, rfl⟩, by decide⟩

end DeviceTree
