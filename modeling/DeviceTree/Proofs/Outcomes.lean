import DeviceTree.Validation
import Mathlib

/-!
# Outcomes of computations that may fail

When a computation in `Except` succeeds, and with what: `bind_eq_ok` takes one apart step by step,
so that no proof about a checker or a reader opens the monad. `run_bind_ok` does the same for
computations that also have a state.
-/

namespace DeviceTree

variable {ε α β : Type}

theorem bind_eq_ok {x : Except ε α} {f : α → Except ε β} {b : β} :
    x >>= f = .ok b ↔ ∃ a, x = .ok a ∧ f a = .ok b := by
  cases x <;> simp [bind, Except.bind]

/-- A computation in steps fails at the first step, or after it. -/
theorem bind_eq_error {x : Except ε α} {f : α → Except ε β} {e : ε} :
    x >>= f = .error e ↔ x = .error e ∨ ∃ a, x = .ok a ∧ f a = .error e := by
  cases x <;> simp [bind, Except.bind]

theorem map_eq_ok {x : Except ε α} {f : α → β} {b : β} :
    f <$> x = .ok b ↔ ∃ a, x = .ok a ∧ f a = b := by
  cases x <;> simp [Functor.map, Except.map]

theorem mapError_eq_ok {ε' : Type} {x : Except ε α} {f : ε → ε'} {a : α} :
    x.mapError f = .ok a ↔ x = .ok a := by
  cases x <;> simp [Except.mapError]

theorem isOk_eq_true {x : Except ε Unit} : x.isOk = true ↔ x = .ok () := by
  cases x <;> simp [Except.isOk, Except.toBool]

/-- Settled outcomes in sequence succeed when both do. -/
theorem andThen_eq_ok {x y : Except ε Unit} :
    (do x; y) = .ok () ↔ x = .ok () ∧ y = .ok () := by
  cases x <;> simp [bind, Except.bind]

theorem forM_eq_ok {f : α → Except ε Unit} {items : List α} :
    items.forM f = .ok () ↔ ∀ item ∈ items, f item = .ok () := by
  induction items with
  | nil => simp [pure, Except.pure]
  | cons item rest ih =>
    show (f item >>= fun _ => rest.forM f) = .ok () ↔ _
    rw [andThen_eq_ok, ih, List.forall_mem_cons]

/-- The failure of a sequence is that of one of its steps. -/
theorem exists_of_forM_eq_error {f : α → Except ε Unit} {items : List α} {e : ε}
    (h : items.forM f = .error e) : ∃ item ∈ items, f item = .error e := by
  induction items with
  | nil => contradiction
  | cons item rest ih =>
    rcases bind_eq_error.1 h with failed | ⟨_, -, failed⟩
    · exact ⟨item, List.mem_cons_self .., failed⟩
    · obtain ⟨later, mem, failed⟩ := ih failed
      exact ⟨later, List.mem_cons_of_mem _ mem, failed⟩

/-- A list of computations succeeds with the results of its members. -/
theorem mapM_eq_ok {f : α → Except ε β} {items : List α} {results : List β} :
    items.mapM f = .ok results ↔ List.Forall₂ (fun item b => f item = .ok b) items results := by
  induction items generalizing results with
  | nil => cases results <;> simp [pure, Except.pure]
  | cons item rest ih =>
    rw [List.mapM_cons]
    simp only [bind_eq_ok, ih]
    constructor
    · rintro ⟨b, first, others, more, made⟩
      cases made
      exact .cons first more
    · intro given
      cases given with
      | cons first more => exact ⟨_, first, _, more, rfl⟩

/-- What every step of a loop keeps, the whole loop keeps. -/
theorem foldlM_keeps {f : β → α → Except ε β} {P : β → Prop} {items : List α} {b b' : β}
    (step : ∀ b item b', item ∈ items → P b → f b item = .ok b' → P b')
    (start : P b) (h : items.foldlM f b = .ok b') : P b' := by
  induction items generalizing b with
  | nil =>
    cases h
    exact start
  | cons item rest ih =>
    rw [List.foldlM_cons] at h
    obtain ⟨b₁, first, others⟩ := bind_eq_ok.1 h
    refine ih (fun b i b' mem => step b i b' (List.mem_cons_of_mem _ mem)) ?_ others
    exact step b item b₁ (List.mem_cons_self ..) start first

/-! ## Computations with a state -/

section Runs

variable {σ : Type} {x : ExceptT ε (StateM σ) α} {f : α → ExceptT ε (StateM σ) β} {a : α} {e : ε}
  {w w' : σ}

theorem run_bind_ok (run : x.run.run w = (.ok a, w')) :
    (x >>= f).run.run w = (f a).run.run w' := by
  have run : x w = (.ok a, w') := run
  show ExceptT.bind x f w = _
  simp only [ExceptT.bind, ExceptT.mk, ExceptT.bindCont, bind, StateT.bind, run]
  rfl

theorem run_bind_error (run : x.run.run w = (.error e, w')) :
    (x >>= f).run.run w = (.error e, w') := by
  have run : x w = (.error e, w') := run
  show ExceptT.bind x f w = _
  simp only [ExceptT.bind, ExceptT.mk, ExceptT.bindCont, bind, StateT.bind, run]
  rfl

end Runs

end DeviceTree
