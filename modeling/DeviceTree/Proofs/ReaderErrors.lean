import DeviceTree.Proofs.Specifications

/-!
# Where readers report errors

A reader takes the location of what it reads. `FailsAt` says where the errors of a computation are,
and those of a reader are at its location or below it: one `*_below` for each reader.

Readers of specifications also leave work for later, which may fail in its turn. `Located` says of
them that what they note stands at their location or below it as well, and that none of the types
that they register is another name of a type. `readInPlace` is the induction over
specifications, `specifiedType_located` the result for one type of a document.
-/

namespace DeviceTree

namespace Location

/-- The second location is the first one, or further down. -/
def Below (l l' : Location) : Prop :=
  l.segments <+: l'.segments

variable {l l' l'' : Location} {k : String}

theorem Below.refl (l : Location) : l.Below l :=
  List.prefix_rfl

theorem Below.trans (h : l.Below l') (h' : l'.Below l'') : l.Below l'' :=
  List.IsPrefix.trans h h'

theorem below_join (l : Location) (k : String) : l.Below (l.join k) :=
  List.prefix_append l.segments [k]

end Location

open Location (Below)

/-- Errors of the computation have locations with the property. -/
def FailsAt {α : Type} (x : Except LoadError α) (P : Location → Prop) : Prop :=
  ∀ e, x = .error e → P e.location

namespace FailsAt

variable {α β : Type} {x : Except LoadError α} {P Q : Location → Prop} {l : Location}

theorem ok {a : α} : FailsAt (.ok a) P := nofun

theorem pure {a : α} : FailsAt (Pure.pure a) P := nofun

theorem error {e : LoadError} (h : P e.location) : FailsAt (.error e : Except LoadError α) P := by
  rintro _ ⟨⟩
  exact h

theorem bind {f : α → Except LoadError β} (first : FailsAt x P)
    (rest : ∀ a, x = .ok a → FailsAt (f a) P) : FailsAt (x >>= f) P := by
  intro e failed
  cases x with
  | ok a => exact rest a rfl e failed
  | error e' =>
    cases failed
    exact first e rfl

theorem map {f : α → β} (h : FailsAt x P) : FailsAt (f <$> x) P := by
  intro e failed
  cases x with
  | ok a => contradiction
  | error e' =>
    cases failed
    exact h e rfl

theorem ite {c : Prop} [Decidable c] {y : Except LoadError α} (first : c → FailsAt x P)
    (second : ¬ c → FailsAt y P) : FailsAt (if c then x else y) P := by
  split
  · exact first ‹_›
  · exact second ‹_›

/-- A test that stops the computation and one that lets it go on. -/
theorem stop {c : Prop} [Decidable c] {e : LoadError} {f : β → Except LoadError α}
    (refused : P e.location) (rest : FailsAt x P) :
    FailsAt (if c then throw e >>= f else x) P :=
  ite (fun _ => error refused) fun _ => rest

theorem mono (h : FailsAt x P) (weaker : ∀ l, P l → Q l) : FailsAt x Q :=
  fun e failed => weaker _ (h e failed)

/-- What is reported further down is reported below. -/
theorem within {k : String} (h : FailsAt x (l.join k).Below) : FailsAt x l.Below :=
  h.mono fun _ below => (l.below_join k).trans below

/-- A fold reports what its steps report, where an invariant holds before each of them. -/
theorem foldlM {f : β → α → Except LoadError β} {Inv : β → Prop} {items : List α}
    (steps : ∀ a ∈ items, ∀ b, Inv b → FailsAt (f b a) P ∧ ∀ b', f b a = .ok b' → Inv b')
    {b : β} (start : Inv b) : FailsAt (items.foldlM f b) P := by
  induction items generalizing b with
  | nil => exact pure
  | cons a rest ih =>
    rw [List.forall_mem_cons] at steps
    rw [List.foldlM_cons]
    exact bind (steps.1 b start).1 fun b' stepped => ih steps.2 ((steps.1 b start).2 b' stepped)

theorem forM {f : α → Except LoadError Unit} {items : List α}
    (steps : ∀ a ∈ items, FailsAt (f a) P) : FailsAt (items.forM f) P := by
  intro e failed
  obtain ⟨a, mem, failed⟩ := exists_of_forM_eq_error failed
  exact steps a mem e failed

end FailsAt

namespace Loading

variable (l : Location)

/-! ## Attributes -/

section Attributes

variable {attrs : Attributes}

theorem Attributes.read_below {α : Type} {key what : String} {f : Json → Option α} :
    FailsAt (attrs.read l key what f) l.Below := by
  unfold read
  split
  · exact .ok
  · split
    · exact .ok
    · exact .error (l.below_join key)

theorem checkOrder_below {α : Type} {above : α → α → Bool} {minimum maximum : Option α} :
    FailsAt (checkOrder above l minimum maximum) l.Below := by
  unfold checkOrder
  split
  · exact .ite (fun _ => .error (.refl l)) fun _ => .ok
  · exact .ok

theorem checkRecognized_below {kind : String} :
    FailsAt (checkRecognized l kind attrs) l.Below :=
  .ite (fun _ => .ok) fun _ => .error (.refl l)

end Attributes

/-! ## Numbered lists -/

section Numbering

theorem nonNegative_below {v : Json} : FailsAt (nonNegative l v) l.Below := by
  unfold nonNegative
  split
  · exact .ok
  · exact .error (.refl l)

theorem explicitAliases_below {next : Int} {fields : List (String × Json)} :
    FailsAt (explicitAliases l next fields) l.Below := by
  induction fields generalizing next with
  | nil => exact .ok
  | cons entry rest ih =>
    rw [explicitAliases]
    split
    · exact .error (l.below_join _)
    · exact .bind ih fun _ _ => .ok

theorem numberAliases_below {next : Int} {items : List Json} :
    FailsAt (numberAliases l next items) l.Below := by
  induction items generalizing next with
  | nil => exact .ok
  | cons item rest ih =>
    cases item with
    | null => exact ih
    | int n => exact .bind (nonNegative_below l) fun _ _ => ih
    | str name => exact .bind ih fun _ _ => .ok
    | obj fields =>
      exact .bind (explicitAliases_below l) fun _ _ => .bind ih fun _ _ => .ok
    | bool | double | arr => exact .error (.refl l)

theorem distinctAliases_below {acc : OrderedMap Int} {pairs : List (String × Int)} :
    FailsAt (distinctAliases l acc pairs) l.Below := by
  induction pairs generalizing acc with
  | nil => exact .ok
  | cons pair rest ih => exact .ite (fun _ => .error (.refl l)) fun _ => ih

theorem enumeration_below {spec : Json} : FailsAt (enumeration l spec) l.Below := by
  cases spec with
  | arr items =>
    exact .bind (numberAliases_below l) fun _ _ => .bind (distinctAliases_below l) fun _ _ => .ok
  | _ => exact .error (.refl l)

theorem explicitFields_below {next : Int} {fields : List (String × Json)} :
    FailsAt (explicitFields l next fields) l.Below := by
  induction fields generalizing next with
  | nil => exact .ok
  | cons entry rest ih =>
    exact .bind (nonNegative_below _).within fun _ _ => .bind ih fun _ _ => .ok

theorem placeFields_below {acc : SortedMap String} {fields : List (Int × String)} :
    FailsAt (placeFields l acc fields) l.Below := by
  induction fields generalizing acc with
  | nil => exact .ok
  | cons field rest ih => exact .ite (fun _ => .error (.refl l)) fun _ => ih

theorem numberFields_below {acc : SortedMap String} {next : Int} {position : Nat}
    {items : List Json} : FailsAt (numberFields l acc next position items) l.Below := by
  induction items generalizing acc next position with
  | nil => exact .ok
  | cons item rest ih =>
    cases item with
    | str typeName => exact .bind (placeFields_below l) fun _ _ => ih
    | obj explicit =>
      exact .bind (explicitFields_below _).within fun _ _ =>
        .bind (placeFields_below l) fun _ _ => ih
    | _ => exact .error (.refl l)

theorem explicitSlots_below {fields : List (String × Json)} :
    FailsAt (explicitSlots l fields) l.Below := by
  induction fields with
  | nil => exact .ok
  | cons entry rest ih =>
    exact .bind (nonNegative_below _).within fun _ _ => .bind ih fun _ _ => .ok

theorem bitSlots_below {items : List Json} : FailsAt (bitSlots l items) l.Below := by
  induction items with
  | nil => exact .ok
  | cons item rest ih =>
    cases item with
    | null | str => exact .bind .ok fun _ _ => .bind ih fun _ _ => .ok
    | int | double =>
      exact .bind (.map (nonNegative_below l)) fun _ _ => .bind ih fun _ _ => .ok
    | obj fields => exact .bind (explicitSlots_below l) fun _ _ => .bind ih fun _ _ => .ok
    | bool | arr => exact .error (.refl l)

theorem slotsAttribute_below {attrs : Attributes} :
    FailsAt (slotsAttribute l attrs) l.Below := by
  unfold slotsAttribute
  split
  · exact .map (bitSlots_below l)
  · exact .error (.refl l)
  · exact .ok

theorem add_below {fields : IMapFields} {key typeName : String} :
    FailsAt (fields.add l key typeName) l.Below := by
  unfold IMapFields.add
  split
  · exact .bind (placeFields_below l) fun _ _ => .ok
  · exact .ok

end Numbering

/-! ## Kinds without parts -/

section Kinds

variable {attrs : Attributes}

theorem intType_below : FailsAt (intType l attrs) l.Below := by
  refine .bind (Attributes.read_below l) fun _ _ => .bind (Attributes.read_below l) fun _ _ =>
    .bind (Attributes.read_below l) fun _ _ => .bind (Attributes.read_below l) fun _ _ => ?_
  refine .stop (.refl l) (.stop (l.below_join _) ?_)
  exact .bind (checkOrder_below l) fun _ _ => .pure

theorem doubleType_below : FailsAt (doubleType l attrs) l.Below := by
  refine .bind (Attributes.read_below l) fun _ _ => .bind (Attributes.read_below l) fun _ _ =>
    .bind (Attributes.read_below l) fun _ _ => .bind (Attributes.read_below l) fun _ _ =>
      .bind (Attributes.read_below l) fun _ _ => ?_
  refine .stop (l.below_join _) ?_
  exact .bind (checkOrder_below l) fun _ _ => .pure

theorem decimalType_below : FailsAt (decimalType l attrs) l.Below :=
  .bind (Attributes.read_below l) fun _ _ => .bind (Attributes.read_below l) fun _ _ =>
    .bind (checkOrder_below l) fun _ _ => .pure

theorem lengthBounds_below : FailsAt (lengthBounds l attrs) l.Below :=
  .bind (Attributes.read_below l) fun _ _ => .bind (Attributes.read_below l) fun _ _ =>
    .bind (Attributes.read_below l) fun _ _ => .bind (checkOrder_below l) fun _ _ => .pure

theorem stringType_below : FailsAt (stringType l attrs) l.Below := by
  refine .bind (lengthBounds_below l) fun _ _ => .bind (Attributes.read_below l) fun source _ => ?_
  cases source with
  | none => exact .pure
  | some source =>
    simp only
    split
    · exact .pure
    · exact .error (l.below_join _)

theorem blobType_below : FailsAt (blobType l attrs) l.Below :=
  .bind (lengthBounds_below l) fun _ _ => .pure

theorem enumType_below : FailsAt (enumType l attrs) l.Below := by
  unfold enumType
  split
  · exact (enumeration_below _).within
  · exact .ok

theorem constantType_below : FailsAt (constantType l attrs) l.Below := by
  unfold constantType
  split
  · exact .ok
  · exact .error (l.below_join _)

theorem plainType_below {kind name : String} : FailsAt (plainType l kind name attrs) l.Below := by
  unfold plainType
  split
  · exact .map (intType_below l)
  · exact .map (doubleType_below l)
  · exact .map (decimalType_below l)
  · exact .map (stringType_below l)
  · exact .map (blobType_below l)
  · exact .map (enumType_below l)
  · exact .map (constantType_below l)
  · exact .error (.refl l)

end Kinds

/-! ## Readers that leave work for later -/

/-- The later state has types and notes of the earlier one. What it notes besides stands at the
location or below it, and the types that it has besides are no other names of types. -/
structure State.Grows (l : Location) (s s' : State) : Prop where
  aliases : ∀ name target, s'.registry.entry? name = some ⟨.alias target, .custom⟩ →
    s.registry.entry? name = some ⟨.alias target, .custom⟩
  enumRefs : ∀ ref ∈ s'.enumRefs, ref ∈ s.enumRefs ∨ l.Below ref.1
  bitfields : ∀ p ∈ s'.bitfields, p ∈ s.bitfields ∨ l.Below p.2.location
  imaps : ∀ p ∈ s'.imaps, p ∈ s.imaps ∨ l.Below p.2.location

namespace State.Grows

variable {l l' : Location} {s s₁ s₂ s₃ : State}

theorem refl (l : Location) (s : State) : s.Grows l s :=
  ⟨fun _ _ found => found, fun _ mem => .inl mem, fun _ mem => .inl mem, fun _ mem => .inl mem⟩

theorem trans (h : s₁.Grows l s₂) (h' : s₂.Grows l s₃) : s₁.Grows l s₃ where
  aliases name target found := h.aliases name target (h'.aliases name target found)
  enumRefs ref mem := (h'.enumRefs ref mem).elim (h.enumRefs ref) .inr
  bitfields p mem := (h'.bitfields p mem).elim (h.bitfields p) .inr
  imaps p mem := (h'.imaps p mem).elim (h.imaps p) .inr

theorem above (below : l.Below l') (h : s₁.Grows l' s₂) : s₁.Grows l s₂ where
  aliases := h.aliases
  enumRefs ref mem := (h.enumRefs ref mem).imp_right below.trans
  bitfields p mem := (h.bitfields p mem).imp_right below.trans
  imaps p mem := (h.imaps p mem).imp_right below.trans

end State.Grows

/-- What the computation reports and what it notes stands at the location or below it. -/
structure Located {α : Type} (l : Location) (x : LoadM α) : Prop where
  fails : ∀ s, FailsAt (x s) l.Below
  grows : ∀ {s s' a}, x s = .ok (a, s') → s.Grows l s'

namespace Located

variable {α β : Type} {l l' : Location} {x : LoadM α}

theorem pure {a : α} : Located l (Pure.pure a) where
  fails _ := .ok
  grows run := by
    obtain ⟨-, rfl⟩ := pure_run.1 run
    exact .refl l _

theorem bind {f : α → LoadM β} (first : Located l x)
    (rest : ∀ a s s', x s = .ok (a, s') → Located l (f a)) : Located l (x >>= f) where
  fails s := .bind (first.fails s) fun p run => (rest p.1 s p.2 run).fails p.2
  grows run := by
    obtain ⟨a, s₁, run₁, run₂⟩ := bind_run.1 run
    exact (first.grows run₁).trans ((rest a _ _ run₁).grows run₂)

theorem map {f : α → β} (h : Located l x) : Located l (f <$> x) where
  fails s := .bind (h.fails s) fun _ _ => .ok
  grows run := by
    obtain ⟨a, run, -⟩ := map_run.1 run
    exact h.grows run

/-- A reader that needs no state leaves no work. -/
theorem lift {x : Except LoadError α} (h : FailsAt x l.Below) : Located l (liftM x : LoadM α) where
  fails _ := .bind h fun _ _ => .ok
  grows run := by
    obtain ⟨-, rfl⟩ := lift_run.1 run
    exact .refl l _

theorem fault {f : FormatFault} (below : l.Below l') : Located l (fault l' f : LoadM α) where
  fails _ := .error below
  grows run := absurd run fault_run

theorem above (below : l.Below l') (h : Located l' x) : Located l x where
  fails s := (h.fails s).mono fun _ => below.trans
  grows run := (h.grows run).above below

theorem within {k : String} (h : Located (l.join k) x) : Located l x :=
  h.above (l.below_join k)

end Located

section Steps

variable {s s' : State} {l : Location} {name owner : String} {type : TypeDef} {u : Unit}

/-- A type is registered for its name alone. -/
theorem grows_of_define (plain : ∀ target, type ≠ .alias target)
    (run : define name type s = .ok (u, s')) : s.Grows l s' := by
  obtain ⟨r, defined, rfl⟩ := define_run.1 run
  refine ⟨fun n target found => ?_, fun _ mem => .inl mem, fun _ mem => .inl mem,
    fun _ mem => .inl mem⟩
  obtain ⟨-, entry⟩ := Registry.define_eq_ok defined
  have found : r.entry? n = some ⟨.alias target, .custom⟩ := found
  rw [entry] at found
  split at found
  · cases found
    exact absurd rfl (plain target)
  · exact found

/-- A companion type is refused where it would be registered, or its name is free. -/
theorem defineCompanion_located (plain : ∀ target, type ≠ .alias target) :
    Located l (defineCompanion l name type) where
  fails s := by
    show FailsAt ((if s.declared.contains name || s.registry.contains name then
      throw ⟨l, .duplicateType name⟩ else define name type : LoadM Unit) s) l.Below
    split
    · exact .error (.refl l)
    · next free =>
      rw [Bool.or_eq_true, not_or, Bool.not_eq_true, Bool.not_eq_true] at free
      have defined : define name type s =
          .ok ((), { s with registry := ⟨s.registry.entries.insert name ⟨type, .custom⟩⟩ }) :=
        define_run.2 ⟨_, by rw [Registry.define, free.2]; rfl, rfl⟩
      rw [defined]
      exact .ok
  grows run := grows_of_define plain (define_of_defineCompanion run)

theorem enumReference_located (spec : Json) : Located l (enumReference l owner spec) := by
  cases spec with
  | str name =>
    refine ⟨fun _ => .ok, fun run => ?_⟩
    obtain ⟨_, s₁, noted, run⟩ := bind_run.1 run
    obtain rfl := modify_run.1 noted
    obtain ⟨-, rfl⟩ := pure_run.1 run
    refine ⟨fun _ _ found => found, fun ref mem => ?_, fun _ mem => .inl mem, fun _ mem => .inl mem⟩
    refine (List.mem_append.1 mem).imp_right fun new => ?_
    rw [List.mem_singleton.1 new]
    exact .refl l
  | arr items =>
    exact .bind (.lift (enumeration_below l)) fun _ _ _ _ =>
      .bind (defineCompanion_located (by simp)) fun _ _ _ _ => .pure
  | _ => exact .fault (.refl l)

theorem enumAttribute_located {attrs : Attributes} : Located l (enumAttribute l owner attrs) := by
  unfold enumAttribute
  split
  · exact .map (enumReference_located _).within
  · exact .pure

theorem bitfieldType_located {attrs : Attributes} : Located l (bitfieldType l name attrs) := by
  refine .bind (.lift (slotsAttribute_below _).within) fun slots _ _ _ =>
    .bind enumAttribute_located fun enumName _ _ _ => ⟨fun _ => .ok, fun run => ?_⟩
  obtain ⟨_, s₁, noted, run⟩ := bind_run.1 run
  obtain rfl := modify_run.1 noted
  obtain ⟨-, rfl⟩ := pure_run.1 run
  refine ⟨fun _ _ found => found, fun _ mem => .inl mem, fun p mem => ?_, fun _ mem => .inl mem⟩
  refine (List.mem_append.1 mem).imp_right fun new => ?_
  rw [List.mem_singleton.1 new]
  exact .refl l

theorem imapShape_located {enumName : Option String} (fields : Option IMapFields) :
    Located l (imapShape l name enumName fields) := by
  cases fields with
  | none => exact .pure
  | some fields =>
    refine ⟨fun _ => .ok, fun run => ?_⟩
    obtain ⟨_, s₁, noted, run⟩ := bind_run.1 run
    obtain rfl := modify_run.1 noted
    obtain ⟨-, rfl⟩ := pure_run.1 run
    refine ⟨fun _ _ found => found, fun _ mem => .inl mem, fun _ mem => .inl mem, fun p mem => ?_⟩
    refine (List.mem_append.1 mem).imp_right fun new => ?_
    split at new
    · contradiction
    · rw [List.mem_singleton.1 new]
      exact l.below_join _

/-! ## Parts of specifications -/

/-- Where the specification stands in place of a name, it is read where it stands. -/
def ReadInPlace (spec : Json) : Prop :=
  ∀ l owner, Located l (reference l owner spec)

theorem references_located {items : List Json} (parts : ∀ item ∈ items, ReadInPlace item)
    {place : Nat → Location} (below : ∀ i, l.Below (place i)) (i : Nat) :
    Located l (references place owner i items) := by
  induction items generalizing i with
  | nil =>
    rw [references]
    exact .pure
  | cons item rest ih =>
    rw [List.forall_mem_cons] at parts
    rw [references]
    exact .bind ((parts.1 _ _).above (below i)) fun _ _ _ _ =>
      .bind (ih parts.2 (i + 1)) fun _ _ _ _ => .pure

theorem fieldReferences_located {specs : List (String × Json)}
    (parts : ∀ p ∈ specs, ReadInPlace p.2) : Located l (fieldReferences l owner specs) := by
  induction specs with
  | nil =>
    rw [fieldReferences]
    exact .pure
  | cons entry rest ih =>
    rw [List.forall_mem_cons] at parts
    rw [fieldReferences]
    exact .bind (parts.1 _ _).within fun _ _ _ _ => .bind (ih parts.2) fun _ _ _ _ => .pure

theorem imapReferences_located {specs : List (String × Json)}
    (parts : ∀ p ∈ specs, ReadInPlace p.2) (acc : IMapFields) :
    Located l (imapReferences l owner acc specs) := by
  induction specs generalizing acc with
  | nil =>
    rw [imapReferences]
    exact .pure
  | cons entry rest ih =>
    rw [List.forall_mem_cons] at parts
    rw [imapReferences]
    exact .bind (parts.1 _ _).within fun _ _ _ _ => .bind (.lift (add_below l)) fun acc _ _ _ =>
      ih parts.2 acc

/-! ## Kinds with parts -/

section Composite

variable {attrs : Attributes} (parts : ∀ spec, sizeOf spec < sizeOf attrs → ReadInPlace spec)

include parts

theorem listType_located : Located l (listType l name attrs) := by
  rw [listType]
  refine .bind (.lift (Attributes.read_below l)) fun _ _ _ _ =>
    .bind (.lift (Attributes.read_below l)) fun _ _ _ _ =>
      .bind (.lift (checkOrder_below l)) fun _ _ _ _ => ?_
  split
  · next spec smaller _ => exact .bind (parts spec smaller _ _).within fun _ _ _ _ => .pure
  · exact .pure

theorem tupleType_located : Located l (tupleType l name attrs) := by
  have rest (items : List String) : Located l (do
      let enumName ← enumAttribute l name attrs
      pure { items, enumName : TupleShape }) :=
    .bind enumAttribute_located fun _ _ _ _ => .pure
  rw [tupleType]
  cases attrs.nested? "items" with
  | none => exact .bind .pure fun items _ _ _ => rest items
  | some spec =>
    obtain ⟨spec, smaller⟩ := spec
    cases spec with
    | arr items =>
      have inside := forall_items_of_smaller parts (Nat.le_of_lt smaller)
      exact .bind (references_located inside (fun _ => l.below_join _) 0) fun items _ _ _ =>
        rest items
    | _ => exact .bind (.fault (l.below_join _)) fun items _ _ _ => rest items

theorem mapType_located : Located l (mapType l name attrs) := by
  rw [mapType]
  cases attrs.nested? "fields" with
  | none => exact .pure
  | some spec =>
    obtain ⟨spec, smaller⟩ := spec
    cases spec with
    | obj specs =>
      have inside := forall_fields_of_smaller parts (Nat.le_of_lt smaller)
      exact .bind (fieldReferences_located inside).within fun _ _ _ _ => .pure
    | _ => exact .fault (l.below_join _)

theorem imapType_located : Located l (imapType l name attrs) := by
  rw [imapType]
  refine .bind enumAttribute_located fun enumName _ _ _ => ?_
  cases attrs.nested? "fields" with
  | none => exact .bind .pure fun fields _ _ _ => imapShape_located fields
  | some spec =>
    obtain ⟨spec, smaller⟩ := spec
    cases spec with
    | obj specs =>
      have inside := forall_fields_of_smaller parts (Nat.le_of_lt smaller)
      exact .bind (.map (imapReferences_located inside {}).within) fun fields _ _ _ =>
        imapShape_located fields
    | arr items =>
      exact .bind (.lift (numberFields_below _).within) fun _ _ _ _ =>
        .bind .pure fun fields _ _ _ => imapShape_located fields
    | _ => exact .bind (.fault (l.below_join _)) fun fields _ _ _ => imapShape_located fields

theorem kindType_located (kind : String) : Located l (kindType l kind name attrs) := by
  rw [kindType.eq_def]
  split
  · exact .map bitfieldType_located
  · exact .map (listType_located parts)
  · exact .map (tupleType_located parts)
  · exact .map (mapType_located parts)
  · exact .map (imapType_located parts)
  · exact .lift (plainType_below l)

theorem mappingType_located : Located l (mappingType l name attrs) := by
  rw [mappingType]
  refine .bind (.lift (Attributes.read_below l)) fun kind? _ _ _ => ?_
  cases kind? with
  | none => exact .fault (.refl l)
  | some kind =>
    exact .bind (kindType_located parts kind) fun _ _ _ _ =>
      .bind (.lift (checkRecognized_below l)) fun _ _ _ _ => .pure

end Composite

theorem plain_of_plainType {kind : String} {attrs : Attributes}
    (h : plainType l kind name attrs = .ok type) (target : String) : type ≠ .alias target := by
  unfold plainType at h
  split at h
  case h_8 => contradiction
  all_goals
    obtain ⟨_, -, rfl⟩ := map_eq_ok.1 h
    nofun

/-- No mapping specifies another name of a type. -/
theorem plain_of_mappingType {attrs : Attributes}
    (run : mappingType l name attrs s = .ok (type, s')) (target : String) :
    type ≠ .alias target := by
  rw [mappingType] at run
  obtain ⟨given, s₁, -, run⟩ := bind_run.1 run
  cases given with
  | none => exact absurd run fault_run
  | some kind =>
    obtain ⟨_, s₂, typed, run⟩ := bind_run.1 run
    obtain ⟨_, s₃, -, run⟩ := bind_run.1 run
    obtain ⟨rfl, -⟩ := pure_run.1 run
    generalize step : kindType l kind name attrs = x at typed
    rw [kindType.eq_def] at step
    split at step <;> subst step
    case h_6 => exact plain_of_plainType (lift_run.1 typed).1 target
    all_goals
      obtain ⟨_, -, rfl⟩ := map_run.1 typed
      nofun

end Steps

/-! ## Specifications -/

theorem readInPlace_of_parts {spec : Json}
    (parts : ∀ part, sizeOf part < sizeOf spec → ReadInPlace part) : ReadInPlace spec := by
  intro l owner
  cases spec with
  | null | str =>
    rw [reference]
    exact .pure
  | arr items =>
    rw [reference]
    have inside := forall_items_of_smaller parts (Nat.le_refl _)
    exact .bind (references_located inside (fun _ => l.below_join _) 0) fun _ _ _ _ =>
      .bind (defineCompanion_located (by simp)) fun _ _ _ _ => .pure
  | obj attrs =>
    rw [reference]
    have inner : ∀ part, sizeOf part < sizeOf attrs → ReadInPlace part := by
      intro part smaller
      exact parts part (by rw [Json.obj.sizeOf_spec]; omega)
    exact .bind (mappingType_located inner) fun _ _ _ run =>
      .bind (defineCompanion_located (plain_of_mappingType run)) fun _ _ _ _ => .pure
  | bool | int | double =>
    simp only [reference]
    exact .fault (.refl l)

/-- By induction on the specification, whose parts are smaller. -/
theorem readInPlace (spec : Json) : ReadInPlace spec :=
  readInPlace_of_parts fun part _ => readInPlace part
termination_by sizeOf spec

theorem specifiedType_located (l : Location) (name : String) (spec : Json) :
    Located l (specifiedType l name spec) := by
  cases spec with
  | null | str => exact .pure
  | arr items =>
    exact .map (references_located (fun item _ => readInPlace item) (fun _ => l.below_join _) 0)
  | obj attrs => exact mappingType_located fun part _ => readInPlace part
  | bool | int | double => exact .fault (.refl l)

end Loading

end DeviceTree
