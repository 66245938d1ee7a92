import DeviceTree.Proofs.Settling
import DeviceTree.Proofs.References
import DeviceTree.Loading.Types

/-!
# Types of which there are values to generate

`TypeDef.Productive` has one rule for each kind of type but doubles, and `Registry.Productive`
enters the type that a name is bound to. `atLevel_settles` says that the generator with so many
levels left decides it, and which types it names when it fails. So generation succeeds for the
productive names, whatever is drawn (`generate_succeeds_iff`).

It need not be right when it says of a type that it has no valid value: where a bound of a range is
missing, multiples are sought no further than a hundred away. `generate_unsatisfiable_iff` says that
this is the only way for it to be wrong.
-/

namespace DeviceTree

open Generation

/-! ## Productive types -/

/-- There is a value of the type to generate, if `part` tells where there are values of its parts.
For a range of integers, one must lie between the bounds for drawing. -/
def TypeDef.Productive (part : String → Prop) : TypeDef → Prop
  | .any | .null | .bool | .decimal _ | .blob _ | .dateTime | .constant _ => True
  | .int range => ∃ n, range.Draws n
  | .double _ => False
  | .string shape => shape.pattern = none
  | .enum e => e.values.values ≠ []
  | .bitfield shape => ∀ f ∈ shape.fields, part f.typeName
  | .list shape => 0 < shape.minLength → ∀ target ∈ shape.allowed, part target
  | .tuple shape => ∀ target ∈ shape.items, part target
  | .map shape => ∀ fields ∈ shape.fields, ∀ p ∈ fields.entries, part p.2
  | .imap shape => ∀ fields ∈ shape.fields, ∀ p ∈ fields.entries, part p.2
  | .alias target => part target
  | .union members => ∃ member ∈ members, part member

/-- There is nothing to draw for the type itself. -/
def TypeDef.Barren : TypeDef → Prop
  | .int range => ¬ ∃ n, range.Draws n
  | .enum e => e.values.values = []
  | .union members => members = []
  | _ => False

namespace Registry

/-- There is a value of the named type to generate with at most `n` types nested, that one
included. -/
def Productive (r : Registry) : Nat → String → Prop
  | 0, _ => False
  | n + 1, name => ∃ type, r.get? name = some type ∧ type.Productive (r.Productive n)

/-- No reference leads from the name to a type of doubles. -/
def DoubleFree (r : Registry) (name : String) : Prop :=
  ∀ target range, Relation.ReflTransGen r.Refers name target → r.get? target ≠ some (.double range)

/-- A type that the failure says to have no valid value is barren, and references lead to it. -/
def NamesBarren (r : Registry) (name : String) (e : GenerateError) : Prop :=
  ∀ t, e = .unsatisfiable t → Relation.ReflTransGen r.Refers name t ∧
    ∃ type, r.get? t = some type ∧ type.Barren

variable {r : Registry} {name target : String}

theorem DoubleFree.of_reached (h : r.DoubleFree name)
    (reached : Relation.ReflTransGen r.Refers name target) : r.DoubleFree target :=
  fun t range further => h t range (reached.trans further)

theorem NamesBarren.of_refers {e : GenerateError} (refers : r.Refers name target)
    (h : r.NamesBarren target e) : r.NamesBarren name e := by
  intro t same
  obtain ⟨reached, barren⟩ := h t same
  exact ⟨.head refers reached, barren⟩

/-- From names that refer only to each other, references lead to no other. -/
theorem mem_of_reached {names : List String} (start : name ∈ names)
    (closed : ∀ n ∈ names, ∀ type, r.get? n = some type → ∀ t ∈ type.references, t ∈ names)
    (reached : Relation.ReflTransGen r.Refers name target) : target ∈ names := by
  induction reached with
  | refl => exact start
  | tail _ refers ih =>
    obtain ⟨type, found, mem⟩ := refers
    exact closed _ ih type found _ mem

end Registry

namespace Generation

variable {σ : Type} {r : Registry} {source : Source σ} {name : String}

/-- For each kind of type but doubles, the generator gives a value exactly if there is one to
generate. -/
theorem ofType_settles {value : String → GenM σ Value} {ok : String → Prop}
    {E : GenerateError → Prop} {type : TypeDef} (noDouble : ∀ range, type ≠ .double range)
    (parts : ∀ target ∈ type.references, Settles (value target) (ok target) E)
    (pattern : E (.pattern name)) (barren : type.Barren → E (.unsatisfiable name)) :
    Settles (ofType source value name type) (type.Productive ok) E := by
  cases type with
  | any | null | constant => exact .pure
  | bool => exact .map (.lift _)
  | int range => exact .map (integer_settles barren)
  | double range => exact absurd rfl (noDouble range)
  | decimal range => exact .map (.draw fun n => .pure)
  | string shape =>
    rw [ofType]
    split
    · next some =>
      refine (Settles.throw_bind pattern).congr (iff_of_false id fun free => ?_)
      rw [show shape.pattern = none from free] at some
      contradiction
    · next free =>
      have text (n : Nat) : Settles (repeated (letter source) n) True E :=
        repeated_settles_true (.draw fun i => .pure) n
      refine (length_settles.bind fun n => (text n).bind fun text => .pure).congr ?_
      exact iff_of_true (by simp) (show shape.pattern = none by simpa using free)
  | blob shape =>
    have bytes (n : Nat) : Settles (repeated (liftM source.byte) n) True E :=
      repeated_settles_true (.lift _) n
    refine (length_settles.bind fun n => (bytes n).bind fun bytes => .pure).congr ?_
    exact iff_of_true (by simp) trivial
  | dateTime => exact .map (.lift _)
  | enum e =>
    rw [ofType]
    split
    · next empty =>
      have empty : e.values.values = [] := List.isEmpty_iff.1 empty
      exact (Settles.throw_bind (barren empty)).congr (iff_of_false id (· empty))
    · next some =>
      refine (Settles.draw fun i => .pure).congr (iff_of_true trivial fun empty => ?_)
      exact some (List.isEmpty_iff.2 empty)
  | bitfield b =>
    have fields := packFields_settle fun f mem =>
      parts f.typeName (List.mem_append_left _ (List.mem_map_of_mem mem))
    exact (fields.bind fun bits => .pure).congr (Iff.of_eq (and_true _))
  | list shape =>
    refine .map (repeated_settles (P := ∀ target ∈ shape.allowed, ok target) ?_ shape.minLength)
    split
    · next target allowed =>
      exact (parts target (Option.mem_toList.2 allowed)).congr (by simp [allowed])
    · next none => exact Settles.pure.congr (by simp [none])
  | tuple shape =>
    exact .map (positions_settle fun target mem => parts target (List.mem_append_left _ mem))
  | map shape =>
    rcases shape with ⟨_ | fields⟩
    · exact Settles.pure.congr (by simp [TypeDef.Productive])
    · have entries := keyed_settles fun p mem => parts p.2 (List.mem_map_of_mem mem)
      exact (entries.bind fun entries => .pure).congr (by simp [TypeDef.Productive])
  | imap shape =>
    rcases shape with ⟨_ | fields, enumName⟩
    · exact Settles.pure.congr (by simp [TypeDef.Productive])
    · have entries := keyed_settles fun p mem =>
        parts p.2 (List.mem_append_left _ (List.mem_map_of_mem mem))
      exact (entries.bind fun entries => .pure).congr (by simp [TypeDef.Productive])
  | «alias» target => exact parts target (List.mem_singleton_self _)
  | union members =>
    have shuffled : Gives (liftM (source.shuffle members)) (·.Perm members) :=
      .lift fun w order w' => perm_of_shuffle
    refine ((Settles.lift _).bind_of_gives shuffled fun order perm => ?_).congr
      (Iff.of_eq (true_and _))
    refine (firstOf_settles (fun member mem => parts member (perm.mem_iff.1 mem)) ?_).congr ?_
    · rintro rfl
      exact barren perm.symm.eq_nil
    · simp only [TypeDef.Productive, perm.mem_iff]

/-- Generation from a name is settled by the types that are nested from it on. -/
theorem atLevel_settles (doubleFree : r.DoubleFree name) (levels : Nat) :
    Settles (atLevel r source levels name) (r.Productive levels name) (r.NamesBarren name) := by
  induction levels generalizing name with
  | zero => exact .throw nofun
  | succ levels ih =>
    rw [atLevel]
    split
    · next type found =>
      have noDouble (range : DoubleRange) : type ≠ .double range := by
        rintro rfl
        exact doubleFree name range .refl found
      have parts (target : String) (mem : target ∈ type.references) :
          Settles (atLevel r source levels target) (r.Productive levels target)
            (r.NamesBarren name) :=
        have refers : r.Refers name target := ⟨type, found, mem⟩
        (ih (doubleFree.of_reached (.single refers))).mono fun e => .of_refers refers
      refine (ofType_settles noDouble parts nofun fun barren => ?_).congr ?_
      · rintro t ⟨⟩
        exact ⟨.refl, type, found, barren⟩
      · simp [Registry.Productive, found]
    · next missing =>
      refine (Settles.throw nofun).congr (iff_of_false id ?_)
      rintro ⟨type, found, -⟩
      cases found.symm.trans missing

end Generation

namespace Registry

variable {r : Registry} {name : String}

/-- Where no doubles are nested, generation succeeds exactly for the names that are productive with
17 types nested, whatever is drawn. -/
theorem generate_succeeds_iff (doubleFree : r.DoubleFree name) {σ : Type} (source : Source σ)
    (w : σ) :
    (∃ v w', (r.generate source name).run.run w = (.ok v, w')) ↔ r.Productive 17 name :=
  (atLevel_settles doubleFree 17).ok_iff w

/-- The multiples of ten from one to nine. -/
def slotRange : IntRange :=
  { minimum := some 1, maximum := some 9, multipleOf := some 10, unsigned := true }

/-- Slots, of which there are none, lists of slots, and places that are either. -/
def placeTypes : List (String × Json) :=
  [("slot", .obj [("type", .str "Int"), ("minimum", .int 1), ("maximum", .int 9),
      ("multipleOf", .int 10)]),
    ("slots", .obj [("type", .str "List"), ("allowed", .str "slot")]),
    ("place", .arr [.str "slot", .str "slots"])]

/-- Places refer to each other, and to nothing else. -/
theorem loadTypes_placeTypes :
    ∃ r, Loading.loadTypes placeTypes = .ok r ∧ r.get? "slot" = some (.int slotRange) ∧
      r.get? "slots" = some (.list { allowed := some "slot" }) ∧
      r.get? "place" = some (.union ["slot", "slots"]) ∧
      ∀ name target type, name ∈ ["slot", "slots", "place"] →
        Relation.ReflTransGen r.Refers name target → r.get? target = some type →
          type = .int slotRange ∨ type = .list { allowed := some "slot" } ∨
            type = .union ["slot", "slots"] := by
  have run : (Loading.loadTypes placeTypes).toOption.map
      (fun r => (r.get? "slot", r.get? "slots", r.get? "place")) =
        some (some (.int slotRange), some (.list { allowed := some "slot" }),
          some (.union ["slot", "slots"])) := by cbv
  rcases loads : Loading.loadTypes placeTypes with e | r
  · rw [loads] at run
    contradiction
  rw [loads] at run
  have run := Option.some.inj run
  simp only [Prod.mk.injEq] at run
  obtain ⟨slot, slots, place⟩ := run
  refine ⟨r, rfl, slot, slots, place, fun name target type start reached found => ?_⟩
  have inside := mem_of_reached start (by simp [slot, slots, place, TypeDef.references]) reached
  simp only [List.mem_cons, List.not_mem_nil, or_false] at inside
  rcases inside with rfl | rfl | rfl
  · exact .inl (Option.some.inj (found.symm.trans slot))
  · exact .inr (.inl (Option.some.inj (found.symm.trans slots)))
  · exact .inr (.inr (Option.some.inj (found.symm.trans place)))

theorem not_draws_slotRange : ¬ ∃ n, slotRange.Draws n := by
  rw [IntRange.exists_draws_iff (show integerBounds slotRange = (1, 9) from rfl)]
  rintro ⟨-, factors⟩
  exact absurd (factors 10 rfl (by decide)) (by decide)

/-- No slot is generated, and always a place, whichever kind of place is tried first: a list needs
no slots. -/
theorem placeTypes_productive :
    ∃ r, Loading.loadTypes placeTypes = .ok r ∧ r.DoubleFree "slot" ∧ r.DoubleFree "place" ∧
      ∀ (σ : Type) (source : Source σ) (w : σ),
        (¬ ∃ v w', (r.generate source "slot").run.run w = (.ok v, w')) ∧
          ∃ v w', (r.generate source "place").run.run w = (.ok v, w') := by
  obtain ⟨r, loads, slot, slots, place, types⟩ := loadTypes_placeTypes
  have doubleFree (name : String) (start : name ∈ ["slot", "slots", "place"]) :
      r.DoubleFree name := by
    intro target range reached found
    simpa using types name target _ start reached found
  refine ⟨r, loads, doubleFree _ (by simp), doubleFree _ (by simp), fun σ source w => ⟨?_, ?_⟩⟩
  · rw [generate_succeeds_iff (doubleFree _ (by simp))]
    rintro ⟨type, found, productive⟩
    cases slot.symm.trans found
    exact not_draws_slotRange productive
  · rw [generate_succeeds_iff (doubleFree _ (by simp))]
    exact ⟨_, place, "slots", by simp, _, slots, by simp [TypeDef.Productive]⟩

end Registry

/-! ## What failures say -/

/-- If there is a value in the range, something can be drawn for the range. -/
def IntRange.Finds (range : IntRange) : Prop :=
  ∀ v n, Value.asInteger? v = some n → range.Admits n → ∃ n, range.Draws n

theorem IntRange.finds_of_bounds {range : IntRange} {low high : Int}
    (minimum : range.minimum = some low) (maximum : range.maximum = some high) : range.Finds :=
  fun _ n _ admits => ⟨n, admits.draws minimum maximum⟩

namespace Registry

variable {r : Registry} {name : String}

/-- A type that has no valid value according to a failure has none, whatever was drawn. -/
def FailsTruly (r : Registry) (name : String) : Prop :=
  ∀ (σ : Type) (source : Source σ) (w w' : σ) (t : String),
    (r.generate source name).run.run w = (.error (.unsatisfiable t), w') →
      ∀ v, r.validate t v ≠ .ok ()

/-- No value belongs to a type that is barren, unless it is a range searched in the wrong place. -/
theorem not_accepts_of_barren {type : TypeDef} (barren : type.Barren)
    (finds : ∀ range, type = .int range → range.Finds) {n : Nat} {v : Value} :
    ¬ r.Accepts n type v := by
  intro accepts
  cases accepts with
  | int integer admits => exact barren (finds _ rfl v _ integer admits)
  | enumValue integer mem =>
    rw [show _ = [] from barren] at mem
    contradiction
  | enumAlias mem =>
    rw [OrderedMap.keys, List.map_eq_nil_iff.1 (show _ = [] from barren)] at mem
    contradiction
  | union mem =>
    rw [show _ = [] from barren] at mem
    contradiction
  | _ => exact barren

/-- An integer is generated exactly if one can be drawn, and else the failure names its type. -/
theorem generate_int_settles {range : IntRange} (found : r.get? name = some (.int range)) {σ : Type}
    (source : Source σ) :
    Settles (r.generate source name) (∃ n, range.Draws n) (· = .unsatisfiable name) := by
  rw [generate, atLevel, found]
  exact .map (integer_settles fun _ => rfl)

/-- Where no doubles are nested, failures are right about types without valid values, for the name
and for those that it leads to, exactly when something can be drawn for each range of integers among
them in which there is a value. -/
theorem generate_unsatisfiable_iff (doubleFree : r.DoubleFree name) :
    (∀ target, Relation.ReflTransGen r.Refers name target → r.FailsTruly target) ↔
      ∀ target range, Relation.ReflTransGen r.Refers name target →
        r.get? target = some (.int range) → range.Finds := by
  constructor
  · intro truly target range reached found v n integer admits
    by_contra empty
    obtain ⟨_, w', failed, rfl⟩ := (generate_int_settles found (.near 0)).fails empty ()
    have valid : r.validate target v = .ok () :=
      validate_eq_ok.2 (.named found (.int integer admits))
    exact truly target reached Unit _ () w' target failed v valid
  · intro finds target reached σ source w w' t failed v valid
    obtain ⟨further, type, found, barren⟩ :=
      (atLevel_settles (doubleFree.of_reached reached) 17).error failed t rfl
    obtain ⟨found', accepts⟩ := validate_eq_ok.1 valid
    cases found.symm.trans found'
    refine not_accepts_of_barren barren (fun range int => ?_) accepts
    exact finds t range (reached.trans further) (int ▸ found)

/-- Both bounds of slots are given, so it is right to say that there are none. -/
theorem placeTypes_failsTruly :
    ∃ r, Loading.loadTypes placeTypes = .ok r ∧ r.DoubleFree "place" ∧ r.FailsTruly "slot" ∧
      ∀ v, r.validate "slot" v ≠ .ok () := by
  obtain ⟨r, loads, slot, slots, place, types⟩ := loadTypes_placeTypes
  have doubleFree : r.DoubleFree "place" := by
    intro target range reached found
    simpa using types "place" target _ (by simp) reached found
  have finds (target : String) (range : IntRange)
      (reached : Relation.ReflTransGen r.Refers "place" target)
      (found : r.get? target = some (.int range)) : range.Finds := by
    obtain rfl : range = slotRange := by
      simpa using types "place" target _ (by simp) reached found
    exact IntRange.finds_of_bounds rfl rfl
  have refers : r.Refers "place" "slot" := ⟨_, place, by simp [TypeDef.references]⟩
  have truly := (generate_unsatisfiable_iff doubleFree).2 finds "slot" (.single refers)
  obtain ⟨_, w', failed, rfl⟩ :=
    (generate_int_settles slot (.near 0)).fails not_draws_slotRange ()
  exact ⟨r, loads, doubleFree, truly, truly Unit _ () w' "slot" failed⟩

/-- The multiples of seven from 99 on. -/
def stepRange : IntRange :=
  { minimum := some 99, multipleOf := some 7, unsigned := true }

def stepTypes : List (String × Json) :=
  [("step", .obj [("type", .str "Int"), ("minimum", .int 99), ("multipleOf", .int 7)])]

/-- Steps are sought up to 100, where there is none, and said to have no valid value. But 105 is a
step. -/
theorem stepTypes_not_failsTruly :
    ∃ r, Loading.loadTypes stepTypes = .ok r ∧ r.DoubleFree "step" ∧
      (∀ (σ : Type) (source : Source σ) (w : σ), ∃ w',
        (r.generate source "step").run.run w = (.error (.unsatisfiable "step"), w')) ∧
      r.validate "step" (.uint 105) = .ok () ∧ ¬ r.FailsTruly "step" := by
  have run : (Loading.loadTypes stepTypes).toOption.map (·.get? "step") =
      some (some (.int stepRange)) := by cbv
  rcases loads : Loading.loadTypes stepTypes with e | r
  · rw [loads] at run
    contradiction
  rw [loads] at run
  have step : r.get? "step" = some (.int stepRange) := Option.some.inj run
  have doubleFree : r.DoubleFree "step" := by
    intro target range reached found
    have inside := mem_of_reached (List.mem_singleton_self _)
      (by simp [step, TypeDef.references]) reached
    rw [List.mem_singleton.1 inside, step] at found
    cases found
  have empty : ¬ ∃ n, stepRange.Draws n := by
    rw [IntRange.exists_draws_iff (show integerBounds stepRange = (99, 100) from rfl)]
    rintro ⟨-, factors⟩
    exact absurd (factors 7 rfl (by decide)) (by decide)
  have fails (σ : Type) (source : Source σ) (w : σ) : ∃ w',
      (r.generate source "step").run.run w = (.error (.unsatisfiable "step"), w') := by
    obtain ⟨_, w', failed, rfl⟩ := (generate_int_settles step source).fails empty w
    exact ⟨w', failed⟩
  have valid : r.validate "step" (.uint 105) = .ok () := by
    rw [validate, step]
    rfl
  refine ⟨r, rfl, doubleFree, fails, valid, fun truly => ?_⟩
  obtain ⟨w', failed⟩ := fails Unit (.near 0) ()
  exact truly Unit _ () w' "step" failed _ valid

end Registry

end DeviceTree
