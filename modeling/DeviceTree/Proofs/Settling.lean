import DeviceTree.Proofs.Draws

/-!
# What draws do not change

Whether a value is generated does not depend on what is drawn. `Settles x P E` says so of a
generator: it gives something exactly if `P` holds, for any state of its source, and otherwise fails
as `E` says. It passes from the steps of a generator to the whole. Where one member of a union fails
the next is tried, so the order drawn for the members does not matter (`firstOf_settles`). An
integer is given exactly if there is one to draw (`integer_settles`).
-/

namespace DeviceTree

namespace Generation

variable {σ α β : Type}

/-! ## What settles a generator -/

/-- The generator gives something exactly if `P` holds, whatever is drawn; it fails only as `E`
says. -/
structure Settles (x : GenM σ α) (P : Prop) (E : GenerateError → Prop) : Prop where
  succeeds : P → ∀ w, ∃ a w', x.run.run w = (.ok a, w')
  fails : ¬ P → ∀ w, ∃ e w', x.run.run w = (.error e, w') ∧ E e

namespace Settles

variable {x : GenM σ α} {f : α → GenM σ β} {P Q : Prop} {E E' : GenerateError → Prop}
  {e : GenerateError}

protected theorem pure {a : α} : Settles (pure a : GenM σ α) True E where
  succeeds _ w := ⟨a, w, rfl⟩
  fails not := absurd trivial not

protected theorem throw (h : E e) : Settles (throw e : GenM σ α) False E where
  succeeds := False.elim
  fails _ w := ⟨e, w, rfl, h⟩

theorem lift (draw : StateM σ α) : Settles (liftM draw : GenM σ α) True E where
  succeeds _ w := ⟨(draw.run w).1, (draw.run w).2, rfl⟩
  fails not := absurd trivial not

theorem congr (hx : Settles x P E) (same : P ↔ Q) : Settles x Q E :=
  propext same ▸ hx

theorem mono (hx : Settles x P E) (h : ∀ e, E e → E' e) : Settles x P E' where
  succeeds := hx.succeeds
  fails not w := by
    obtain ⟨e, w', run, given⟩ := hx.fails not w
    exact ⟨e, w', run, h e given⟩

/-- What follows may count on what the first part gives. -/
theorem bind_of_gives {R : α → Prop} (hx : Settles x P E) (gives : Gives x R)
    (hf : ∀ a, R a → Settles (f a) Q E) : Settles (x >>= f) (P ∧ Q) E where
  succeeds both w := by
    obtain ⟨a, w₁, first⟩ := hx.succeeds both.1 w
    rw [run_bind_ok first]
    exact (hf a (gives w a w₁ first)).succeeds both.2 w₁
  fails not w := by
    by_cases p : P
    · obtain ⟨a, w₁, first⟩ := hx.succeeds p w
      rw [run_bind_ok first]
      exact (hf a (gives w a w₁ first)).fails (fun q => not ⟨p, q⟩) w₁
    · obtain ⟨e, w₁, first, given⟩ := hx.fails p w
      exact ⟨e, w₁, run_bind_error first, given⟩

protected theorem bind (hx : Settles x P E) (hf : ∀ a, Settles (f a) Q E) :
    Settles (x >>= f) (P ∧ Q) E :=
  hx.bind_of_gives (.trivial x) fun a _ => hf a

/-- A draw settles nothing. -/
theorem draw {draw : StateM σ α} (hf : ∀ a, Settles (f a) Q E) :
    Settles (liftM draw >>= f) Q E :=
  ((lift draw).bind hf).congr (Iff.of_eq (true_and Q))

theorem throw_bind (h : E e) : Settles ((throw e : GenM σ α) >>= f) False E where
  succeeds := False.elim
  fails _ w := ⟨e, w, run_bind_error rfl, h⟩

protected theorem map {g : α → β} (hx : Settles x P E) : Settles (g <$> x) P E := by
  rw [map_eq_pure_bind]
  exact (hx.bind fun a => .pure).congr (Iff.of_eq (and_true P))

protected theorem tryCatch {g : GenerateError → GenM σ α} (hx : Settles x P E)
    (hg : ∀ e, E e → Settles (g e) Q E') : Settles (tryCatch x g) (P ∨ Q) E' where
  succeeds either w := by
    by_cases p : P
    · obtain ⟨a, w₁, first⟩ := hx.succeeds p w
      exact ⟨a, w₁, run_tryCatch_ok first⟩
    · obtain ⟨e, w₁, first, given⟩ := hx.fails p w
      rw [run_tryCatch_error first]
      exact (hg e given).succeeds (either.resolve_left p) w₁
  fails neither w := by
    rw [not_or] at neither
    obtain ⟨e, w₁, first, given⟩ := hx.fails neither.1 w
    rw [run_tryCatch_error first]
    exact (hg e given).fails neither.2 w₁

theorem ok_iff (hx : Settles x P E) (w : σ) : (∃ a w', x.run.run w = (.ok a, w')) ↔ P := by
  constructor
  · rintro ⟨a, w', run⟩
    by_contra not
    obtain ⟨e, w₁, failed, -⟩ := hx.fails not w
    cases run.symm.trans failed
  · exact fun p => hx.succeeds p w

theorem error (hx : Settles x P E) {w w' : σ} (run : x.run.run w = (.error e, w')) : E e := by
  by_cases p : P
  · obtain ⟨a, w₁, given⟩ := hx.succeeds p w
    cases run.symm.trans given
  · obtain ⟨e', w₁, failed, h⟩ := hx.fails p w
    cases run.symm.trans failed
    exact h

end Settles

/-! ## Values with parts -/

section Parts

variable {P : Prop} {E : GenerateError → Prop} {value : String → GenM σ Value} {ok : String → Prop}

theorem repeated_settles {code : GenM σ α} (h : Settles code P E) (n : Nat) :
    Settles (repeated code n) (0 < n → P) E := by
  induction n with
  | zero => exact Settles.pure.congr (by simp)
  | succ n ih =>
    refine (h.bind fun a => ih.bind fun rest => .pure).congr ?_
    simp only [Nat.zero_lt_succ, true_implies, and_true]
    exact and_iff_left_of_imp fun p _ => p

theorem positions_settle {items : List String}
    (parts : ∀ target ∈ items, Settles (value target) (ok target) E) :
    Settles (items.mapM value) (∀ target ∈ items, ok target) E := by
  induction items with
  | nil => exact Settles.pure.congr (by simp)
  | cons target rest ih =>
    rw [List.forall_mem_cons] at parts
    rw [List.mapM_cons]
    refine (parts.1.bind fun v => (ih parts.2).bind fun values => .pure).congr ?_
    rw [List.forall_mem_cons, and_true]

theorem keyed_settles {κ : Type} {fields : List (κ × String)}
    (parts : ∀ p ∈ fields, Settles (value p.2) (ok p.2) E) :
    Settles (keyed value fields) (∀ p ∈ fields, ok p.2) E := by
  induction fields with
  | nil => exact Settles.pure.congr (by simp)
  | cons field rest ih =>
    rw [List.forall_mem_cons] at parts
    refine (parts.1.bind fun v => (ih parts.2).bind fun entries => .pure).congr ?_
    rw [List.forall_mem_cons, and_true]

theorem packFields_settle {fields : List BitField}
    (parts : ∀ f ∈ fields, Settles (value f.typeName) (ok f.typeName) E) :
    Settles (packFields value fields) (∀ f ∈ fields, ok f.typeName) E := by
  induction fields with
  | nil => exact Settles.pure.congr (by simp)
  | cons f rest ih =>
    rw [List.forall_mem_cons] at parts
    refine (parts.1.bind fun v => (ih parts.2).bind fun bits => .pure).congr ?_
    rw [List.forall_mem_cons, and_true]

/-- The failure is that of the member tried last, if there is one. -/
theorem firstOf_settles {members : List String} {last : GenerateError}
    (parts : ∀ member ∈ members, Settles (value member) (ok member) E)
    (none : members = [] → E last) :
    Settles (firstOf value last members) (∃ member ∈ members, ok member) E := by
  induction members generalizing last with
  | nil => exact (Settles.throw (none rfl)).congr (by simp)
  | cons member rest ih =>
    rw [List.forall_mem_cons] at parts
    refine (parts.1.tryCatch fun e failure => ih parts.2 fun _ => failure).congr ?_
    simp only [List.mem_cons, exists_eq_or_imp]

end Parts

end Generation

/-! ## Integers -/

open Generation

namespace IntRange

variable {range : IntRange} {low high n : Int}

/-- Something can be drawn exactly when the bounds are in order, and so are those of the factor. -/
theorem exists_draws_iff (bounds : integerBounds range = (low, high)) :
    (∃ n, range.Draws n) ↔ low ≤ high ∧ ∀ unit ∈ range.multipleOf, 0 < unit →
      (factorBounds low high unit).1 ≤ (factorBounds low high unit).2 := by
  constructor
  · rintro ⟨n, above, below, multiple⟩
    rw [bounds] at above below
    refine ⟨le_trans above below, fun unit given positive => ?_⟩
    obtain ⟨factor, rfl⟩ := multiple unit given positive
    rw [Int.mul_comm] at above below
    obtain ⟨first, last⟩ := (factorBounds_iff positive).2 ⟨above, below⟩
    exact le_trans first last
  · rintro ⟨order, factors⟩
    by_cases some : ∃ unit ∈ range.multipleOf, 0 < unit
    · obtain ⟨unit, given, positive⟩ := some
      obtain ⟨above, below⟩ :=
        (factorBounds_iff positive).1 ⟨le_refl _, factors unit given positive⟩
      refine ⟨(factorBounds low high unit).1 * unit, by rwa [bounds], by rwa [bounds], ?_⟩
      intro unit' given' _
      cases given.symm.trans given'
      exact Int.dvd_mul_left ..
    · refine ⟨low, by rw [bounds], by rwa [bounds], fun unit given positive => ?_⟩
      exact absurd ⟨unit, given, positive⟩ some

/-- Between two bounds that are given, everything in the range can be drawn. -/
theorem Admits.draws (h : range.Admits n) (minimum : range.minimum = some low)
    (maximum : range.maximum = some high) : range.Draws n where
  low := integerBounds_minimum minimum ▸ h.minimum low minimum
  high := integerBounds_maximum maximum ▸ h.maximum high maximum
  multiple unit given positive := h.multiple unit given positive.ne'

end IntRange

namespace Generation

variable {σ : Type} {source : Source σ} {E : GenerateError → Prop}

theorem integer_settles {name : String} {range : IntRange}
    (none : (¬ ∃ n, range.Draws n) → E (.unsatisfiable name)) :
    Settles (integer source name range) (∃ n, range.Draws n) E := by
  rw [integer]
  rcases bounds : integerBounds range with ⟨low, high⟩
  have drawn := IntRange.exists_draws_iff bounds
  dsimp only
  split
  · next order =>
    have empty : ¬ ∃ n, range.Draws n := fun some => absurd (drawn.1 some).1 (not_le.2 order)
    exact (Settles.throw_bind (none empty)).congr (iff_of_false id empty)
  · next order =>
    split
    · next noUnit =>
      simp only [Option.filter_eq_none_iff, decide_eq_true_eq] at noUnit
      refine (Settles.lift _).congr (iff_of_true trivial (drawn.2 ⟨not_lt.1 order, ?_⟩))
      exact fun unit given positive => absurd positive (noUnit unit given)
    · next unit some =>
      obtain ⟨given, positive⟩ := Option.filter_eq_some_iff.1 some
      rw [decide_eq_true_eq] at positive
      split
      · next beyond =>
        have empty : ¬ ∃ n, range.Draws n := fun some =>
          absurd ((drawn.1 some).2 unit given positive) (not_le.2 beyond)
        exact (Settles.throw_bind (none empty)).congr (iff_of_false id empty)
      · next within =>
        refine (Settles.draw fun factor => .pure).congr
          (iff_of_true trivial (drawn.2 ⟨not_lt.1 order, ?_⟩))
        intro unit' given' _
        cases given.symm.trans given'
        exact not_lt.1 within

theorem length_settles {minimum maximum : Option Nat} :
    Settles (length source minimum maximum) True E :=
  .draw fun _ => .pure

/-- What can always be drawn, can be any number of times. -/
theorem repeated_settles_true {α : Type} {code : GenM σ α} (h : Settles code True E) (n : Nat) :
    Settles (repeated code n) True E :=
  (repeated_settles h n).congr (iff_of_true (fun _ => trivial) trivial)

end Generation

end DeviceTree
