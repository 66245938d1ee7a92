import DeviceTree.Proofs.Courses
import DeviceTree.Proofs.Validity

/-!
# The results of calls

The result of a call is checked before it is reported, and a signed integer of an unsigned type is
reported as an unsigned one. So what is reported is not always what was checked.

Whether an integer belongs to a type that stands for integers does not depend on its signedness
(`Matches.of_resolve_int`), so the report is valid too (`validate_asDeclared`); and it equals the
same values (`same_asDeclared`). `call_result` puts this together with the courses of a call.
-/

namespace DeviceTree

/-! ## Results as they are reported -/

/-- Equality of values looks at the number of an integer only. -/
theorem Value.same_uint {n : Int64} {u : UInt64} (number : (u.toNat : Int) = n.toInt) (w : Value) :
    (Value.uint u == w) = (Value.int n == w) := by
  show (Value.uint u).same w = (Value.int n).same w
  cases w with
  | int b => simp only [same, number]
  | uint b =>
    simp only [same]
    rw [← number, Bool.eq_iff_iff, beq_iff_eq, beq_iff_eq, Int.natCast_inj]
  | _ => simp only [same]

namespace Registry

variable {r : Registry} {name : String} {v : Value}

/-- A result is reported as it is, or it is a signed integer of an unsigned type and is reported as
the unsigned one of the same number. -/
theorem asDeclared_spec (r : Registry) (name : String) (v : Value) :
    r.asDeclared name v = v ∨
      ∃ (n : Int64) (u : UInt64), v = .int n ∧ r.asDeclared name v = .uint u ∧
        (u.toNat : Int) = n.toInt ∧
        ∃ range, r.resolve name = .ok (.int range) ∧ range.unsigned = true := by
  unfold asDeclared
  split
  · next range n resolved =>
    split
    · next unsigned =>
      rw [Bool.and_eq_true, decide_eq_true_eq] at unsigned
      have small : n.toInt.toNat < 2 ^ 64 := by
        have := n.toInt_lt
        omega
      refine .inr ⟨n, _, rfl, rfl, ?_, range, resolved, unsigned.1⟩
      rw [UInt64.toNat_ofNat_of_lt' small]
      omega
    · exact .inl rfl
  · exact .inl rfl

theorem same_asDeclared (r : Registry) (name : String) (v w : Value) :
    (r.asDeclared name v == w) = (v == w) := by
  rcases r.asDeclared_spec name v with same | ⟨n, u, rfl, reported, number, -⟩
  · rw [same]
  · rw [reported]
    exact Value.same_uint number w

/-- What belongs to a name that stands for integers is an integer of the range, and every value of
the same number belongs to it as well. -/
theorem Matches.of_resolve_int {range : IntRange} {start : String} {chain : List String} {n : Nat}
    (resolved : r.resolveFrom start chain name = .ok (.int range)) (h : r.Matches n name v) :
    ∃ k, v.asInteger? = some k ∧ range.Admits k ∧
      ∀ w : Value, w.asInteger? = some k → r.Matches n name w := by
  obtain ⟨m, accepts, others⟩ := h.through_aliases resolved
  cases accepts with
  | int number admits =>
    exact ⟨_, number, admits, fun w same => others w (.int same admits)⟩

/-- A valid result is valid as it is reported. -/
theorem validate_asDeclared (h : r.validate name v = .ok ()) :
    r.validate name (r.asDeclared name v) = .ok () := by
  rcases r.asDeclared_spec name v with same | ⟨n, u, rfl, reported, number, range, resolved, -⟩
  · rw [same]
    exact h
  · rw [validate_eq_ok] at h ⊢
    obtain ⟨k, signed, -, others⟩ := h.of_resolve_int resolved
    cases signed
    rw [reported]
    exact others (.uint u) (congrArg some number)

/-- Valid results of unsigned types are reported as unsigned integers. -/
theorem asDeclared_unsigned {range : IntRange} (resolved : r.resolve name = .ok (.int range))
    (unsigned : range.unsigned = true) (h : r.validate name v = .ok ()) :
    ∃ u, r.asDeclared name v = .uint u := by
  obtain ⟨k, number, admits, -⟩ := (validate_eq_ok.1 h).of_resolve_int resolved
  have natural : 0 ≤ k := admits.unsigned unsigned
  cases v with
  | uint u => exact ⟨u, by simp [asDeclared]⟩
  | int n =>
    obtain rfl : n.toInt = k := Option.some.inj number
    exact ⟨_, by simp only [asDeclared, resolved]; rw [unsigned, decide_eq_true natural]; rfl⟩
  | _ => contradiction

end Registry

/-! ## Results of calls -/

theorem DispatchError.of_isHandlerDefect {cause : DispatchError}
    (h : cause.isHandlerDefect = true) : ∃ e, cause = .resultMismatch e := by
  cases cause with
  | resultMismatch e => exact ⟨e, rfl⟩
  | _ => contradiction

namespace Device

variable {σ : Type} {d : Device σ} {q : Request} {s s' : σ} {report : CallReport}

/-- What answers the call has succeeded, and the hook after it has given `v` as the result of
method `m`. -/
structure Results (d : Device σ) (q : Request) (s : σ) (m : Method) (v : Value) (s' : σ) :
    Prop where
  given : ∃ i answer s₁, d.Answers q s m i answer s₁ ∧
    (d.hooks.postCall q m answer).run.run s₁ = (.ok v, s')

/-- A result that is not valid fails the call, whatever has come before. -/
theorem Results.call_of_invalid {m : Method} {v : Value} {e : ValidationError}
    (method : q.method ≠ "ls" ∧ q.method ≠ "dir") (h : d.Results q s m v s')
    (invalid : d.tree.registry.validate m.result v = .error e) :
    (d.call q).run s = (⟨.error (.resultMismatch e), CallStage.invoked.through⟩, s') := by
  obtain ⟨i, answer, s₁, answers, post⟩ := h
  exact (Course.resultMismatch answers post invalid).call_eq method

/-- A call that succeeds reports a valid result. -/
theorem Course.of_ok {seen : List UserCode} {v : Value} (h : d.Course q s report s' seen)
    (ok : report.answer = .ok v) :
    ∃ m v', d.Results q s m v' s' ∧ d.tree.registry.validate m.result v' = .ok () ∧
      v = d.tree.registry.asDeclared m.result v' := by
  cases h with
  | completed answers post valid =>
    cases ok
    exact ⟨_, _, ⟨_, _, _, answers, post⟩, valid, rfl⟩
  | _ => contradiction

/-- A call fails by a defect of the handler only for a result that is not valid. -/
theorem Course.of_handlerDefect {seen : List UserCode} {cause : DispatchError}
    (h : d.Course q s report s' seen) (failed : report.answer = .error cause)
    (defect : cause.isHandlerDefect = true) :
    ∃ m v e, d.Results q s m v s' ∧ d.tree.registry.validate m.result v = .error e ∧
      cause = .resultMismatch e := by
  obtain ⟨e, rfl⟩ := DispatchError.of_isHandlerDefect defect
  cases h with
  | denied denied =>
    cases failed
    exact nomatch accessibleMethod_refusal denied
  | unanswered _ unanswered =>
    cases failed
    exact nomatch implementation_refusal unanswered
  | resultMismatch answers post invalid =>
    cases failed
    exact ⟨_, _, e, ⟨_, _, _, answers, post⟩, invalid, rfl⟩
  | rejected | invalidParam | failed | refused =>
    cases failed
  | completed => contradiction

theorem Results.resolved {m : Method} {v : Value} (h : d.Results q s m v s') :
    ∃ n, d.tree.resolveMethod q.path q.method = .ok (n, m) := by
  obtain ⟨i, answer, s₁, ⟨s₂, binds, -⟩, -⟩ := h
  obtain ⟨n, guarded, -⟩ := binds.guarded
  exact ⟨n, guarded.resolved⟩

/-- What a call of a method of the tree reports. When it succeeds, the report is a valid value of
the type of the result. It is the value that the hook after the call has given, or the unsigned
integer of the same number where the type is unsigned; so it equals whatever that value equals, and
itself where that value does. A result that is not valid fails the call, and no other failure is a
defect of the handler. -/
theorem call_result (ls : q.method ≠ "ls") (dir : q.method ≠ "dir")
    (run : (d.call q).run s = (report, s')) :
    (∀ v, report.answer = .ok v → ∃ n m v', d.tree.resolveMethod q.path q.method = .ok (n, m) ∧
      d.Results q s m v' s' ∧
      d.tree.registry.validate m.result v = .ok () ∧
      (∀ w, (v == w) = (v' == w)) ∧
      (v = v' ∨ ∃ (k : Int64) (u : UInt64), v' = .int k ∧ v = .uint u ∧ (u.toNat : Int) = k.toInt ∧
        ∃ range, d.tree.registry.resolve m.result = .ok (.int range) ∧ range.unsigned = true) ∧
      ∀ range, d.tree.registry.resolve m.result = .ok (.int range) → range.unsigned = true →
        ∃ u, v = .uint u) ∧
    (∀ m v' s₁ e, d.Results q s m v' s₁ → d.tree.registry.validate m.result v' = .error e →
      report.answer = .error (.resultMismatch e)) ∧
    ∀ cause, report.answer = .error cause → cause.isHandlerDefect = true →
      ∃ m v' e, d.Results q s m v' s' ∧ d.tree.registry.validate m.result v' = .error e ∧
        cause = .resultMismatch e := by
  obtain ⟨seen, course⟩ := exists_course_of_call ⟨ls, dir⟩ run
  refine ⟨fun v ok => ?_, fun m v' s₁ e results invalid => ?_,
    fun cause failed defect => course.of_handlerDefect failed defect⟩
  · obtain ⟨m, v', results, valid, rfl⟩ := course.of_ok ok
    obtain ⟨n, resolved⟩ := results.resolved
    exact ⟨n, m, v', resolved, results, Registry.validate_asDeclared valid,
      Registry.same_asDeclared _ _ v', Registry.asDeclared_spec _ _ v',
      fun range named unsigned => Registry.asDeclared_unsigned named unsigned valid⟩
  · have fails := results.call_of_invalid ⟨ls, dir⟩ invalid
    rw [run] at fails
    rw [(Prod.mk.inj fails).1]

/-- A device with one method, `read`, at its root, which gives the same value whenever it is
called. -/
def probe (result : String) (v : Value) : Device Unit where
  tree := ⟨.fresh, { methods := [{ name := "read", result }] }⟩
  defaultHandler := some ⟨{}, fun _ => pure v⟩

/-- A call of the method reports the value, when it is valid. -/
theorem probe_results (result : String) (v : Value)
    (valid : (Registry.validate .fresh result v) = .ok ()) :
    (probe result v).Results { path := "", method := "read" } () { name := "read", result } v () ∧
      ((probe result v).call { path := "", method := "read" }).run () =
        (⟨.ok (Registry.asDeclared .fresh result v), CallStage.completed.through⟩, ()) := by
  have reaches : (probe result v).Reaches { path := "", method := "read" }
      { name := "read", result } _ := ⟨_, rfl, rfl⟩
  have answers : (probe result v).Answers _ () _ _ v () := ⟨(), ⟨reaches, rfl, rfl⟩, rfl⟩
  exact ⟨⟨_, v, (), answers, rfl⟩, (Course.completed answers rfl valid).call_eq (by decide)⟩

/-- A signed seven is a valid result of a type of bytes, and is reported as an unsigned one. -/
theorem probe_reports_unsigned :
    ("read" ≠ "ls" ∧ "read" ≠ "dir") ∧
      ∃ stages v, ((probe "UInt8" (.int 7)).call { path := "", method := "read" }).run () =
          (⟨.ok v, stages⟩, ()) ∧
        (probe "UInt8" (.int 7)).tree.registry.validate "UInt8" v = .ok () ∧
        (v == .int 7) = true ∧ ∃ u, v = .uint u := by
  obtain ⟨results, run⟩ := probe_results "UInt8" (.int 7) rfl
  obtain ⟨reported, -, -⟩ := call_result (by decide) (by decide) run
  obtain ⟨n, m, v', resolved, -, valid, -, -, unsigned⟩ := reported _ rfl
  cases resolved
  refine ⟨by decide, _, _, run, valid, ?_, unsigned (.between 0 255) (by cbv) rfl⟩
  rw [Registry.same_asDeclared]
  show (Value.int 7).same (.int 7) = true
  rw [Value.same]
  decide

/-- A double that is not a number is a valid result of the type of doubles. It is reported as it is,
and does not equal itself. -/
theorem probe_reports_nan : ∃ m v v' stages,
    (probe "Double" (.double (0 / 0))).Results { path := "", method := "read" } () m v' () ∧
      ((probe "Double" (.double (0 / 0))).call { path := "", method := "read" }).run () =
        (⟨.ok v, stages⟩, ()) ∧
      (v == v') = false := by
  obtain ⟨results, run⟩ := probe_results "Double" (.double (0 / 0)) rfl
  refine ⟨_, _, _, _, results, run, ?_⟩
  rw [Registry.same_asDeclared]
  show (Value.double (0 / 0)).same (.double (0 / 0)) = false
  rw [Value.same]
  decide

end Device

end DeviceTree
