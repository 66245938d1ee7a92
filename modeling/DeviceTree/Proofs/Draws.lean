import DeviceTree.Generation.Values
import DeviceTree.Proofs.Decimals
import DeviceTree.Proofs.Validity

/-!
# What is drawn

`Gives x P` says that whatever a generator gives has the property `P`, for any state of its source.
It passes from the steps of a generator to the whole, so no later proof runs one.

A source that stays in the ranges asked for draws the integers that a range admits
(`integer_gives`, `IntRange.Draws.admits`), all of them if it wants to (`exists_integer`), and
lengths, positions and orders as they are asked for.
-/

namespace DeviceTree

/-- The source draws integers from the ranges asked for. -/
def Source.InRange {σ : Type} (source : Source σ) : Prop :=
  ∀ low high w n w', low ≤ high → (source.integer low high).run w = (n, w') → low ≤ n ∧ n ≤ high

theorem Source.least_inRange {σ : Type} {time : Timestamp} :
    (least time : Source σ).InRange := by
  rintro low high w n w' order ⟨⟩
  exact ⟨Int.le_refl low, order⟩

namespace Generation

variable {σ α β : Type}

/-! ## Runs -/

section Runs

variable {x : GenM σ α} {g : GenerateError → GenM σ α} {a : α} {e : GenerateError} {w w' : σ}

theorem run_tryCatch_ok (run : x.run.run w = (.ok a, w')) :
    (tryCatch x g).run.run w = (.ok a, w') := by
  have run : x w = (.ok a, w') := run
  show ExceptT.tryCatch x g w = _
  simp only [ExceptT.tryCatch, ExceptT.mk, bind, StateT.bind, run]
  rfl

theorem run_tryCatch_error (run : x.run.run w = (.error e, w')) :
    (tryCatch x g).run.run w = (g e).run.run w' := by
  have run : x w = (.error e, w') := run
  show ExceptT.tryCatch x g w = _
  simp only [ExceptT.tryCatch, ExceptT.mk, bind, StateT.bind, run]
  rfl

theorem map_run (f : α → β) (run : x.run.run w = (.ok a, w')) :
    (f <$> x).run.run w = (.ok (f a), w') := by
  rw [map_eq_pure_bind, run_bind_ok run]
  rfl

end Runs

/-! ## What generators give -/

/-- Whatever the generator gives has the property. -/
def Gives (x : GenM σ α) (P : α → Prop) : Prop :=
  ∀ w a w', x.run.run w = (.ok a, w') → P a

namespace Gives

variable {x : GenM σ α} {f : α → GenM σ β} {P : α → Prop} {Q : β → Prop}

protected theorem pure {a : α} (h : P a) : Gives (pure a : GenM σ α) P := by
  rintro w b w' ⟨⟩
  exact h

protected theorem throw {e : GenerateError} : Gives (throw e : GenM σ α) P :=
  nofun

protected theorem bind (hx : Gives x P) (hf : ∀ a, P a → Gives (f a) Q) : Gives (x >>= f) Q := by
  intro w b w' run
  rcases first : x.run.run w with ⟨e | a, w₁⟩
  · rw [run_bind_error first] at run
    cases run
  · rw [run_bind_ok first] at run
    exact hf a (hx w a w₁ first) w₁ b w' run

/-- Nothing is given after a failure. -/
theorem throw_bind {e : GenerateError} : Gives ((throw e : GenM σ α) >>= f) Q :=
  Gives.throw.bind fun _ (impossible : False) => impossible.elim

protected theorem map {g : α → β} (hx : Gives x fun a => Q (g a)) : Gives (g <$> x) Q := by
  rw [map_eq_pure_bind]
  exact hx.bind fun a h => .pure h

theorem mono {P' : α → Prop} (hx : Gives x P) (h : ∀ a, P a → P' a) : Gives x P' :=
  fun w a w' run => h a (hx w a w' run)

protected theorem trivial (x : GenM σ α) : Gives x fun _ => True :=
  fun _ _ _ _ => .intro

/-- What is drawn is given. -/
theorem lift {draw : StateM σ α} (h : ∀ w a w', draw.run w = (a, w') → P a) :
    Gives (liftM draw : GenM σ α) P := by
  intro w a w' run
  have run : ((.ok (draw w).1, (draw w).2) : Except GenerateError α × σ) = (.ok a, w') := run
  cases run
  exact h w _ _ rfl

protected theorem tryCatch {g : GenerateError → GenM σ α} (hx : Gives x P)
    (hg : ∀ e, Gives (g e) P) : Gives (tryCatch x g) P := by
  intro w b w' run
  rcases first : x.run.run w with ⟨e | a, w₁⟩
  · rw [run_tryCatch_error first] at run
    exact hg e w₁ b w' run
  · rw [run_tryCatch_ok first] at run
    cases run
    exact hx w _ _ first

end Gives

theorem repeated_gives {code : GenM σ α} {P : α → Prop} (h : Gives code P) (n : Nat) :
    Gives (repeated code n) fun items => items.length = n ∧ ∀ item ∈ items, P item := by
  induction n with
  | zero => exact .pure ⟨rfl, List.forall_mem_nil _⟩
  | succ n ih =>
    refine h.bind fun a here => ih.bind fun rest later => .pure ⟨?_, ?_⟩
    · rw [List.length_cons, later.1]
    · exact List.forall_mem_cons.2 ⟨here, later.2⟩

end Generation

/-! ## Integers -/

open Generation

namespace IntRange

variable {range : IntRange} {n low high unit factor : Int}

/-- The integers that are drawn for a range. -/
structure Draws (range : IntRange) (n : Int) : Prop where
  low : (integerBounds range).1 ≤ n
  high : n ≤ (integerBounds range).2
  multiple : ∀ unit ∈ range.multipleOf, 0 < unit → unit ∣ n

/-- The bounds do not ask for negative numbers without a sign, and the unit is positive. -/
@[mk_iff]
structure Consistent (range : IntRange) : Prop where
  unsigned : range.unsigned = true → ∀ low ∈ range.minimum, 0 ≤ low
  unit : ∀ unit ∈ range.multipleOf, 0 < unit

theorem integerBounds_minimum (given : range.minimum = some low) :
    (integerBounds range).1 = low := by
  simp [integerBounds, given]

theorem integerBounds_maximum (given : range.maximum = some high) :
    (integerBounds range).2 = high := by
  simp [integerBounds, given]

theorem integerBounds_unsigned (consistent : range.Consistent) (unsigned : range.unsigned = true) :
    0 ≤ (integerBounds range).1 := by
  cases given : range.minimum with
  | none => simp [integerBounds, given, unsigned]
  | some low =>
    rw [integerBounds_minimum given]
    exact consistent.unsigned unsigned low given

/-- What is drawn for a range is in it. -/
theorem Draws.admits (h : range.Draws n) (consistent : range.Consistent) : range.Admits n where
  minimum _ given := integerBounds_minimum given ▸ h.low
  maximum _ given := integerBounds_maximum given ▸ h.high
  unsigned unsigned := (integerBounds_unsigned consistent unsigned).trans h.low
  multiple unit given _ := h.multiple unit given (consistent.unit unit given)

/-- The factors between the bounds are those of the multiples between the bounds. -/
theorem factorBounds_iff (positive : 0 < unit) :
    (factorBounds low high unit).1 ≤ factor ∧ factor ≤ (factorBounds low high unit).2 ↔
      low ≤ factor * unit ∧ factor * unit ≤ high := by
  rw [factorBounds, Int.le_ediv_iff_mul_le positive]
  refine and_congr_left fun _ => ?_
  have whole := Int.mul_ediv_add_emod low unit
  have rest := Int.emod_lt_of_pos low positive
  have rest' := Int.emod_nonneg low positive.ne'
  have scaled (m : Int) : m ≤ factor ↔ m * unit ≤ factor * unit :=
    (Int.mul_le_mul_iff_of_pos_right positive).symm
  have above : low / unit < factor ↔ low / unit * unit < factor * unit :=
    (mul_lt_mul_iff_of_pos_right positive).symm
  rw [Int.mul_comm] at whole
  dsimp only
  split
  · rw [Int.add_zero, scaled]
    omega
  · have next := scaled (low / unit + 1)
    rw [Int.add_mul, Int.one_mul] at next
    omega

end IntRange

namespace Generation

variable {σ : Type} {source : Source σ} {range : IntRange} {n : Int} {name : String}

theorem integer_gives (inRange : source.InRange) :
    Gives (integer source name range) range.Draws := by
  rw [integer]
  rcases bounds : integerBounds range with ⟨low, high⟩
  dsimp only
  split
  · exact Gives.throw_bind
  · next order =>
    rw [Int.not_lt] at order
    split
    · next none =>
      refine .lift fun w n w' drawn => ?_
      obtain ⟨above, below⟩ := inRange low high w n w' order drawn
      refine ⟨by rwa [bounds], by rwa [bounds], fun unit given positive => ?_⟩
      simp only [Option.filter_eq_none_iff, decide_eq_true_eq] at none
      exact absurd positive (none unit given)
    · next unit some =>
      obtain ⟨given, positive⟩ := Option.filter_eq_some_iff.1 some
      rw [decide_eq_true_eq] at positive
      split
      · exact Gives.throw_bind
      · next order =>
        rw [Int.not_lt] at order
        refine .bind (.lift fun w factor w' => inRange _ _ w factor w' order) fun factor drawn => ?_
        obtain ⟨above, below⟩ := (IntRange.factorBounds_iff positive).1 drawn
        refine .pure ⟨by rwa [bounds], by rwa [bounds], fun unit' given' _ => ?_⟩
        cases given.symm.trans given'
        exact Int.dvd_mul_left ..

end Generation

/-- The source that draws one integer from every range that it is in, at the start of 1970. -/
def Source.near (n : Int) : Source Unit where
  bool := pure false
  byte := pure 0
  integer low high := pure (if low ≤ n ∧ n ≤ high then n else low)
  double low _ := pure low
  now := pure ⟨0, 0, 0⟩

theorem Source.near_inRange {n : Int} : (near n).InRange := by
  rintro low high w m w' order ⟨⟩
  split
  · assumption
  · exact ⟨Int.le_refl low, order⟩

namespace Generation

variable {σ : Type} {source : Source σ} {range : IntRange} {n : Int} {name : String}

/-- Each integer that may be drawn for a range is drawn by some source. -/
theorem exists_integer (draws : range.Draws n) (name : String) :
    ∃ source : Source Unit, source.InRange ∧
      (integer source name range).run.run () = (.ok n, ()) := by
  obtain ⟨above, below, multiple⟩ := draws
  rcases bounds : integerBounds range with ⟨low, high⟩
  rw [bounds] at above below
  dsimp only at above below
  have order : ¬ low > high := by omega
  rcases unit? : range.multipleOf.filter (· > 0) with _ | unit
  · refine ⟨.near n, Source.near_inRange, ?_⟩
    rw [integer, bounds]
    dsimp only
    rw [if_neg order, unit?]
    show (Except.ok (if low ≤ n ∧ n ≤ high then n else low), ()) = _
    rw [if_pos ⟨above, below⟩]
  · obtain ⟨given, positive⟩ := Option.filter_eq_some_iff.1 unit?
    rw [decide_eq_true_eq] at positive
    obtain ⟨factor, rfl⟩ := multiple unit given positive
    rw [Int.mul_comm] at above below ⊢
    have between := (IntRange.factorBounds_iff positive).2 ⟨above, below⟩
    refine ⟨.near factor, Source.near_inRange, ?_⟩
    rw [integer, bounds]
    dsimp only
    rw [if_neg order, unit?]
    dsimp only
    rw [if_neg (by omega)]
    show (Except.ok ((if _ ∧ _ then factor else _) * unit), ()) = _
    rw [if_pos between]

end Generation

/-! ## Integers as values -/

/-- What is left of an integer in a value: one below all signed ones becomes zero, one above all
unsigned ones the largest of them. -/
def Generation.cut (n : Int) : Int :=
  if n < -0x8000000000000000 then 0 else min n 0xFFFFFFFFFFFFFFFF

/-- An integer of 64 bits, signed or not, is left as it is. -/
theorem Generation.cut_of_word {n : Int} (low : -0x8000000000000000 ≤ n)
    (high : n ≤ 0xFFFFFFFFFFFFFFFF) : cut n = n := by
  rw [cut, if_neg (by omega)]
  omega

theorem asInteger?_uint_cut {n : Int} (fits : 0 ≤ n ∨ n < -0x8000000000000000) :
    (Value.uint (UInt64.ofNat (min n.toNat 0xFFFFFFFFFFFFFFFF))).asInteger? = some (cut n) := by
  rw [Value.asInteger?, UInt64.toNat_ofNat_of_lt' (by simp), cut]
  split <;> simp only [Option.some.injEq] <;> omega

theorem Value.asInteger?_ofInteger (n : Int) :
    (Value.ofInteger n).asInteger? = some (cut n) := by
  rw [Value.ofInteger]
  split
  · next fits =>
    rw [Value.asInteger?, Int64.toInt_ofInt_of_le fits.1 fits.2, cut_of_word (by omega) (by omega)]
  · exact asInteger?_uint_cut (by omega)

theorem asInteger?_integerValue {range : IntRange} {n : Int}
    (sign : range.unsigned = true → 0 ≤ n) :
    (integerValue range n).asInteger? = some (cut n) := by
  rw [integerValue]
  split
  · next unsigned => exact asInteger?_uint_cut (.inl (sign unsigned))
  · exact Value.asInteger?_ofInteger n

/-! ## Lengths, decimals, positions and orders -/

/-- No decimal is below itself. -/
theorem Decimal.lt_irrefl (d : Decimal) : ¬ d < d := by
  show d.compare d ≠ .lt
  rw [Decimal.compare, Decimal.compare?_eq, cmp_self_eq_eq]
  decide

namespace Generation

variable {σ α : Type} {source : Source σ}

theorem length_gives (inRange : source.InRange) {minimum maximum : Option Nat}
    (order : ∀ low ∈ minimum, ∀ high ∈ maximum, low ≤ high) :
    Gives (length source minimum maximum) (LengthWithin minimum maximum) := by
  rw [length]
  refine .bind (.lift fun w n w' => inRange _ _ w n w' (by omega)) fun n drawn => .pure ?_
  constructor
  · rintro low ⟨⟩
    simp only [Option.getD_some] at drawn
    omega
  · rintro high ⟨⟩
    cases minimum with
    | none =>
      simp only [Option.getD_none, Option.getD_some] at drawn
      omega
    | some low =>
      have := order low rfl high rfl
      simp only [Option.getD_some] at drawn
      omega

theorem decimal_gives {range : DecimalRange}
    (order : ∀ low ∈ range.minimum, ∀ high ∈ range.maximum, ¬ high < low) :
    Gives (decimal source range) range.Admits := by
  rw [decimal]
  refine (Gives.trivial (liftM (source.integer (-10000) 10000))).bind fun n _ => .pure ?_
  split
  · next below =>
    obtain ⟨low, given, -⟩ := (Option.any_eq_true ..).1 below
    rw [given, Option.getD_some]
    refine ⟨fun low' same => ?_, order low given⟩
    cases given.symm.trans same
    exact Decimal.lt_irrefl low
  · next within =>
    split
    · next above =>
      obtain ⟨high, given, -⟩ := (Option.any_eq_true ..).1 above
      rw [given, Option.getD_some]
      refine ⟨fun low same => order low same high given, fun high' same => ?_⟩
      cases given.symm.trans same
      exact Decimal.lt_irrefl high
    · next within' =>
      simp only [Option.any_eq_true, not_exists, not_and, decide_eq_true_eq] at within within'
      exact ⟨within, within'⟩

theorem index_lt (inRange : source.InRange) {count : Nat} (some : 0 < count) {w w' : σ} {i : Nat}
    (drawn : (source.index count).run w = (i, w')) : i < count := by
  rcases integer : (source.integer 0 (count - 1)).run w with ⟨n, w₁⟩
  have drawn : (((source.integer 0 (count - 1)).run w).1.toNat,
      ((source.integer 0 (count - 1)).run w).2) = (i, w') := drawn
  rw [integer] at drawn
  cases drawn
  have := inRange 0 (count - 1) w n _ (by omega) integer
  omega

theorem perm_of_shuffleFrom {items order : Array α} {last : Nat} {w w' : σ}
    (drawn : (source.shuffleFrom items last).run w = (order, w')) : order.Perm items := by
  induction last generalizing items w with
  | zero =>
    cases drawn
    exact .refl _
  | succ last ih =>
    have drawn : (source.shuffleFrom (items.swapIfInBounds (last + 1)
        ((source.index (last + 2)).run w).1) last).run ((source.index (last + 2)).run w).2 =
        (order, w') := drawn
    refine (ih drawn).trans ?_
    rw [Array.swapIfInBounds_def]
    split
    · split
      · exact Array.swap_perm _ _
      · exact .refl _
    · exact .refl _

/-- An order has all elements and no others, whatever is drawn. -/
theorem perm_of_shuffle {items order : List α} {w w' : σ}
    (drawn : (source.shuffle items).run w = (order, w')) : order.Perm items := by
  rcases shuffled : (source.shuffleFrom items.toArray (items.length - 1)).run w with ⟨array, w₁⟩
  have drawn : (((source.shuffleFrom items.toArray (items.length - 1)).run w).1.toList,
      ((source.shuffleFrom items.toArray (items.length - 1)).run w).2) = (order, w') := drawn
  rw [shuffled] at drawn
  cases drawn
  exact (perm_of_shuffleFrom shuffled).toList

end Generation

end DeviceTree
