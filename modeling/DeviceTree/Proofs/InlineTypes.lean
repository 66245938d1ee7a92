import DeviceTree.Proofs.Contributions

/-!
# Types specified in place

Where a specification expects the name of a type, it may hold another specification, and where it
expects the name of an enumeration, a list of aliases. `Place` lists the positions of the first
kind, with the name that the type in place is derived from, and `EnumPlace` those of the second.

What stands in such a position is interpreted once, before and after other things that do not depend
on it (`Around`). So a specification comes to what stands in place and to the rest, and it comes to
the same when something else stands there that has the same name (`Place.around`,
`EnumPlace.around`).
-/

namespace DeviceTree

namespace Loading

open Contribution State

/-! ## Attributes with a hole -/

theorem Attributes.get?_eq_nested? {attrs : Attributes} {key : String} :
    attrs.get? key = (attrs.nested? key).map Subtype.val := by
  induction attrs with
  | nil => rfl
  | cons entry rest ih =>
    obtain ⟨k, v⟩ := entry
    rw [get?, lookup_cons_eq_ite, nested?]
    by_cases same : k = key
    · rw [if_pos same, if_pos same.symm]
      cases null : v.isNull <;> simp [null]
    · rw [if_neg same, if_neg fun e => same e.symm, Option.map_map, ← get?, ih]
      rfl

/-- The attributes of a mapping of some kind around one of them. -/
structure Hole (kind key : String) where
  before : Attributes
  after : Attributes
  first : key ∉ before.map Prod.fst
  typed : (before ++ after).get? "type" = some (.str kind)
  plain : key ≠ "type"

namespace Hole

variable {kind key : String}

/-- The attributes with a value in the hole. -/
def fill (h : Hole kind key) (v : Json) : Attributes :=
  h.before ++ (key, v) :: h.after

variable {h : Hole kind key} {v w : Json}

theorem lookup_fill {k : String} :
    (h.fill v).lookup k = if k = key then some v else (h.before ++ h.after).lookup k := by
  rw [fill, List.lookup_append, List.lookup_append, lookup_cons_eq_ite]
  split
  · next same =>
    subst same
    have absent : h.before.lookup k = none := by
      rw [List.lookup_eq_none_iff]
      rintro ⟨n, t⟩ mem
      have other : k ≠ n := fun here => h.first (List.mem_map.2 ⟨_, mem, here.symm⟩)
      simpa using other
    rw [absent, Option.none_or]
  · rfl

theorem get?_fill (given : v.isNull = false) : (h.fill v).get? key = some v := by
  rw [Attributes.get?, lookup_fill, if_pos rfl, Option.filter_some, given]
  rfl

theorem get?_fill_other {k : String} (other : k ≠ key) :
    (h.fill v).get? k = (h.before ++ h.after).get? k := by
  rw [Attributes.get?, lookup_fill, if_neg other, ← Attributes.get?]

theorem typed_fill : (h.fill v).get? "type" = some (.str kind) := by
  rw [get?_fill_other h.plain.symm, h.typed]

theorem keys_fill : (h.fill v).map Prod.fst = (h.fill w).map Prod.fst := by
  simp [fill]

theorem read_fill {k what : String} {l : Location} {α : Type} {f : Json → Option α}
    (other : k ≠ key) :
    (h.fill v).read l k what f = (h.before ++ h.after).read l k what f := by
  rw [Attributes.read, get?_fill_other other, ← Attributes.read]

end Hole

/-! ## Places -/

/-- The name that a specification in place gets, for what it is derived from. -/
def companionName? (derived : String) : Json → Option String
  | .arr _ => some (derived ++ "OneOf")
  | .obj _ => some (derived ++ "Type")
  | _ => none

/-- The positions in the specification of a type where the name of another type is expected, each
with what the name of a type in place is derived from. -/
inductive Place (name : String) : String → (Json → Json) → Prop
  /-- A member of a union. -/
  | member (before after : List Json) :
    Place name (name ++ toString before.length) fun part => .arr (before ++ part :: after)
  /-- The type of the elements of a list. -/
  | allowed (h : Hole "List" "allowed") : Place name name fun part => .obj (h.fill part)
  /-- An item of a tuple. -/
  | item (h : Hole "Tuple" "items") (before after : List Json) :
    Place name (name ++ toString before.length)
      fun part => .obj (h.fill (.arr (before ++ part :: after)))
  /-- A field of a map. -/
  | field (h : Hole "Map" "fields") (key : String) (before after : Attributes) :
    Place name (name ++ key) fun part => .obj (h.fill (.obj (before ++ (key, part) :: after)))
  /-- A field of an integer map. -/
  | imapField (h : Hole "IMap" "fields") (key : String) (before after : Attributes) :
    Place name (name ++ key) fun part => .obj (h.fill (.obj (before ++ (key, part) :: after)))

/-- The positions in the specification of a type where the name of an enumeration is expected. -/
inductive EnumPlace : (Json → Json) → Prop
  | bitfield (h : Hole "Bitfield" "enum") : EnumPlace fun part => .obj (h.fill part)
  | tuple (h : Hole "Tuple" "enum") : EnumPlace fun part => .obj (h.fill part)
  | imap (h : Hole "IMap" "enum") : EnumPlace fun part => .obj (h.fill part)

/-- What stands in a place does not change what the whole is called. -/
theorem Place.companionName?_eq {name derived owner : String} {whole : Json → Json}
    (h : Place name derived whole) (part part' : Json) :
    companionName? owner (whole part) = companionName? owner (whole part') := by
  cases h <;> rfl

theorem EnumPlace.companionName?_eq {owner : String} {whole : Json → Json}
    (h : EnumPlace whole) (part part' : Json) :
    companionName? owner (whole part) = companionName? owner (whole part') := by
  cases h <;> rfl

/-! ## What stands in place, and what is around it -/

section Yields

variable {α β : Type} {held : List String} {x y : LoadM α} {f : α → LoadM β} {a : α} {b : β}
  {c d : Contribution} {s s' : State}

theorem Yields.bind (hx : Yields [] x a c) (hf : Yields held (f a) b d) :
    Yields held (x >>= f) b (c ++ d) := by
  refine ⟨hx.leaves.append hf.leaves, fun t admits => ?_⟩
  obtain ⟨admits, admits'⟩ := admits_append.1 admits
  exact bind_run.2 ⟨a, _, hx.run t admits, add_append ▸ hf.run _ admits'⟩

theorem Yields.map (hx : Yields held x a c) (g : α → β) : Yields held (g <$> x) (g a) c :=
  ⟨hx.leaves, fun t admits => map_run.2 ⟨a, hx.run t admits, rfl⟩⟩

theorem Yields.hold (hx : Yields [] x a c) : Yields held x a c :=
  ⟨hx.leaves.hold, hx.run⟩

theorem Yields.pure : Yields held (pure a : LoadM α) a {} :=
  ⟨.empty, fun _ _ => pure_run.2 ⟨rfl, add_empty.symm⟩⟩

/-- A computation yields one result and adds one contribution. -/
theorem Yields.unique {held' : List String} {a' : α} {c' : Contribution} (h : Yields held x a c)
    (h' : Yields held' x a' c') (admits : s.Admits c) (admits' : s.Admits c') :
    a = a' ∧ c = c' := by
  obtain ⟨result, state⟩ :=
    Prod.mk.inj (Except.ok.inj ((h.run s admits).symm.trans (h'.run s admits')))
  exact ⟨result, eq_of_add_eq admits admits' state⟩

/-- The like is added elsewhere. -/
theorem Yields.elsewhere (hxy : Uniform held x y) (h : Yields held x a c) (admits : s.Admits c) :
    ∃ d, c.Like d ∧ Yields held y a d := by
  obtain ⟨c', d, leaves, like, admits', same, again⟩ := hxy.run (h.run s admits)
  cases eq_of_add_eq admits admits' same
  refine ⟨d, like, leaves.like like, fun t admits => again t ?_⟩
  exact ⟨like.types ▸ admits.free, like.types ▸ admits.undeclared⟩

end Yields

/-- In a run of `outer`, `inner` runs on the same part, before and after what does not depend on the
part. Where another part gives the same result, `outer` does, and adds the same around it. -/
structure Around {α β : Type} (held : List String) (inner : Json → LoadM α)
    (outer : Json → LoadM β) : Prop where
  split : ∀ {part : Json} {s s' : State} {b : β}, part.isNull = false →
    outer part s = .ok (b, s') →
    ∃ c₁ a s₁ c₂, s.Admits c₁ ∧ inner part (s.add c₁) = .ok (a, s₁) ∧ s₁.Admits c₂ ∧
      s' = s₁.add c₂ ∧ ∀ part' c, part'.isNull = false → Yields [] (inner part') a c →
        Yields held (outer part') b (c₁ ++ (c ++ c₂))

namespace Around

variable {α β γ : Type} {held : List String} {inner : Json → LoadM α} {outer : Json → LoadM β}

protected theorem refl : Around [] inner inner := by
  refine ⟨fun {part s s' a} _ run => ?_⟩
  refine ⟨{}, a, s', {}, Uniform.admits_empty, ?_, Uniform.admits_empty, add_empty.symm, ?_⟩
  · rw [add_empty, run]
  · intro part' c _ yields
    rw [empty_append, append_empty]
    exact yields

theorem congr {outer' : Json → LoadM β} (h : Around held inner outer)
    (same : ∀ part, part.isNull = false → outer' part = outer part) :
    Around held inner outer' := by
  refine ⟨fun given run => ?_⟩
  rw [same _ given] at run
  obtain ⟨c₁, a, s₁, c₂, admits₁, here, admits₂, rest, again⟩ := h.split given run
  refine ⟨c₁, a, s₁, c₂, admits₁, here, admits₂, rest, fun part' c given' yields => ?_⟩
  rw [same _ given']
  exact again part' c given' yields

theorem before {δ : Type} {x : LoadM δ} {outer : δ → Json → LoadM β} (hx : Uniform [] x x)
    (h : ∀ d, Around held inner (outer d)) :
    Around held inner fun part => x >>= fun d => outer d part := by
  refine ⟨fun given run => ?_⟩
  obtain ⟨d, s₀, first, second⟩ := bind_run.1 run
  obtain ⟨c₀, yields₀, admits₀, rfl⟩ := hx.yields first
  obtain ⟨c₁, a, s₁, c₂, admits₁, here, admits₂, rest, again⟩ := (h d).split given second
  refine ⟨c₀ ++ c₁, a, s₁, c₂, admits_append.2 ⟨admits₀, admits₁⟩, ?_, admits₂, rest, ?_⟩
  · rw [add_append, here]
  · intro part' c given' yields
    rw [Contribution.append_assoc]
    exact yields₀.bind (again part' c given' yields)

theorem after {f : β → LoadM γ} (h : Around [] inner outer)
    (hf : ∀ b, Uniform held (f b) (f b)) : Around held inner fun part => outer part >>= f := by
  refine ⟨fun given run => ?_⟩
  obtain ⟨b, s₂, first, second⟩ := bind_run.1 run
  obtain ⟨c₁, a, s₁, c₂, admits₁, here, admits₂, rfl, again⟩ := h.split given first
  obtain ⟨c₃, yields₃, admits₃, rfl⟩ := (hf b).yields second
  refine ⟨c₁, a, s₁, c₂ ++ c₃, admits₁, here, admits_append.2 ⟨admits₂, admits₃⟩,
    add_append.symm, fun part' c given' yields => ?_⟩
  rw [← Contribution.append_assoc c, ← Contribution.append_assoc]
  exact (again part' c given' yields).bind yields₃

theorem hold (h : Around [] inner outer) : Around held inner outer := by
  refine ⟨fun given run => ?_⟩
  obtain ⟨c₁, a, s₁, c₂, admits₁, here, admits₂, rest, again⟩ := h.split given run
  exact ⟨c₁, a, s₁, c₂, admits₁, here, admits₂, rest,
    fun part' c given' yields => (again part' c given' yields).hold⟩

protected theorem map (h : Around held inner outer) (g : β → γ) :
    Around held inner fun part => g <$> outer part := by
  refine ⟨fun given run => ?_⟩
  obtain ⟨b, first, rfl⟩ := map_run.1 run
  obtain ⟨c₁, a, s₁, c₂, admits₁, here, admits₂, rest, again⟩ := h.split given first
  exact ⟨c₁, a, s₁, c₂, admits₁, here, admits₂, rest,
    fun part' c given' yields => (again part' c given' yields).map g⟩

theorem give (h : Around held inner outer) (g : β → γ) :
    Around held inner fun part => (do let b ← outer part; pure (g b)) :=
  (h.map g).congr fun _ _ => bind_pure_comp ..

/-- What follows may be checked before the result is given. -/
theorem check (h : Around held inner outer) {e : Except LoadError Unit} :
    Around held inner fun part => (do let b ← outer part; liftM e; pure b) := by
  refine ⟨fun given run => ?_⟩
  obtain ⟨b, s₂, first, second⟩ := bind_run.1 run
  obtain ⟨_, s₃, checked, second⟩ := bind_run.1 second
  obtain ⟨rfl, rfl⟩ := lift_run.1 checked
  obtain ⟨rfl, rfl⟩ := pure_run.1 second
  obtain ⟨c₁, a, s₁, c₂, admits₁, here, admits₂, rest, again⟩ := h.split given first
  exact ⟨c₁, a, s₁, c₂, admits₁, here, admits₂, rest,
    fun part' c given' yields => (again part' c given' yields).map id⟩

/-- What `outer` yields for a part is what `inner` does, and what is around it. -/
theorem of_yields (h : Around held inner outer) {part : Json} {b : β} {c : Contribution}
    {s : State} (uniform : Uniform [] (inner part) (inner part)) (given : part.isNull = false)
    (yields : Yields held (outer part) b c) (admits : s.Admits c) :
    ∃ c₁ a d c₂, c = c₁ ++ (d ++ c₂) ∧ (s.add c₁).Admits d ∧ Yields [] (inner part) a d ∧
      ∀ part' d', part'.isNull = false → Yields [] (inner part') a d' →
        Yields held (outer part') b (c₁ ++ (d' ++ c₂)) := by
  obtain ⟨c₁, a, s₁, c₂, admits₁, here, admits₂, same, again⟩ :=
    h.split given (yields.run s admits)
  obtain ⟨d, inside, admitsᵢ, rfl⟩ := uniform.yields here
  rw [← add_append, ← add_append] at same
  have admits' : s.Admits (c₁ ++ (d ++ c₂)) :=
    admits_append.2 ⟨admits₁, admits_append.2 ⟨admitsᵢ, admits₂⟩⟩
  exact ⟨c₁, a, d, c₂, eq_of_add_eq admits admits' same, admitsᵢ, inside, again⟩

end Around

/-! ## The readers of composite kinds -/

section Kinds

variable {l : Location} {owner name kind : String} {attrs : Attributes}

/-- The items of a tuple. -/
def itemsOf (l : Location) (name : String) : Option Json → LoadM (List String)
  | some (.arr items) => references (fun i => l.join s!"items[{i}]") name 0 items
  | some _ => fault (l.join "items") .itemsExpected
  | none => pure []

/-- The fields of an integer map. -/
def imapFieldsOf (l : Location) (name : String) : Option Json → LoadM (Option IMapFields)
  | some (.obj fields) => some <$> imapReferences (l.join "fields") name {} fields
  | some (.arr items) => do
    let placed ← numberFields (l.join "fields") .empty 0 0 items
    pure (some { placed })
  | some _ => fault (l.join "fields") .itemsExpected
  | none => pure none

theorem listType_eq : listType l name attrs = (do
    let minLength := (← attrs.size l "minlen").getD 0
    let maxLength ← attrs.size l "maxlen"
    checkOrder (fun a b => decide (a > b)) l (some minLength) maxLength
    match attrs.get? "allowed" with
    | some spec =>
      let allowed ← reference (l.join "allowed") name spec
      pure { allowed := some allowed, minLength, maxLength }
    | none => pure { allowed := none, minLength, maxLength }) := by
  rw [listType, Attributes.get?_eq_nested?]
  cases attrs.nested? "allowed" <;> rfl

theorem tupleType_eq : tupleType l name attrs = (do
    let items ← itemsOf l name (attrs.get? "items")
    let enumName ← enumAttribute l name attrs
    pure { items, enumName }) := by
  rw [tupleType, Attributes.get?_eq_nested?]
  cases attrs.nested? "items" with
  | none => rfl
  | some spec =>
    obtain ⟨spec, smaller⟩ := spec
    cases spec <;> rfl

theorem mapType_eq {fields : Attributes} (given : attrs.get? "fields" = some (.obj fields)) :
    mapType l name attrs = (do
      let named ← fieldReferences (l.join "fields") name fields
      pure { fields := some (.ofList named) }) := by
  rw [Attributes.get?_eq_nested?, Option.map_eq_some_iff] at given
  obtain ⟨⟨spec, smaller⟩, found, rfl⟩ := given
  rw [mapType, found]

theorem imapType_eq : imapType l name attrs = (do
    let enumName ← enumAttribute l name attrs
    let fields ← imapFieldsOf l name (attrs.get? "fields")
    imapShape l name enumName fields) := by
  rw [imapType, Attributes.get?_eq_nested?]
  cases attrs.nested? "fields" with
  | none => rfl
  | some spec =>
    obtain ⟨spec, smaller⟩ := spec
    cases spec with
    | arr items => simp only [imapFieldsOf, Option.map_some, bind_assoc]
    | _ => rfl

theorem enumAttribute_fill {key : String} {h : Hole kind key} {v : Json} (other : "enum" ≠ key) :
    enumAttribute l name (h.fill v) = enumAttribute l name (h.before ++ h.after) := by
  rw [enumAttribute, Hole.get?_fill_other other, ← enumAttribute]

theorem enumAttribute_self {h : Hole kind "enum"} {v : Json} (given : v.isNull = false) :
    enumAttribute l name (h.fill v) = some <$> enumReference (l.join "enum") name v := by
  rw [enumAttribute, Hole.get?_fill given]

theorem slotsAttribute_fill {key : String} {h : Hole kind key} {v : Json} (other : "types" ≠ key) :
    slotsAttribute l (h.fill v) = slotsAttribute l (h.before ++ h.after) := by
  rw [slotsAttribute, Hole.get?_fill_other other, ← slotsAttribute]

theorem kindType_bitfield :
    kindType l "Bitfield" name attrs = TypeDef.bitfield <$> bitfieldType l name attrs := by
  rw [kindType.eq_def]
  rfl

theorem kindType_list : kindType l "List" name attrs = TypeDef.list <$> listType l name attrs := by
  rw [kindType.eq_def]
  rfl

theorem kindType_tuple :
    kindType l "Tuple" name attrs = TypeDef.tuple <$> tupleType l name attrs := by
  rw [kindType.eq_def]
  rfl

theorem kindType_map : kindType l "Map" name attrs = TypeDef.map <$> mapType l name attrs := by
  rw [kindType.eq_def]
  rfl

theorem kindType_imap : kindType l "IMap" name attrs = TypeDef.imap <$> imapType l name attrs := by
  rw [kindType.eq_def]
  rfl

/-- What a mapping of a known kind specifies. -/
theorem mappingType_eq (typed : attrs.get? "type" = some (.str kind)) :
    mappingType l name attrs = (do
      let type ← kindType l kind name attrs
      checkRecognized l kind attrs
      pure type) := by
  rw [mappingType, Attributes.string, Attributes.read, typed]
  rfl

theorem checkRecognized_congr {attrs' : Attributes}
    (same : attrs.map Prod.fst = attrs'.map Prod.fst) :
    checkRecognized l kind attrs = checkRecognized l kind attrs' := by
  rw [checkRecognized, checkRecognized, same]

end Kinds

/-! ## The places -/

section Places

variable {α : Type} {l : Location} {owner name kind key : String} {inner : Json → LoadM α}

theorem references_around {place : Nat → Location} {before after : List Json} {i : Nat} :
    Around [] (fun part => reference (place (i + before.length))
        (owner ++ toString (i + before.length)) part)
      fun part => references place owner i (before ++ part :: after) := by
  induction before generalizing i with
  | nil =>
    simp only [List.nil_append, references]
    exact Around.refl.after fun name => (references_uniform fun item _ => adds item).give _
  | cons item rest ih =>
    simp only [List.cons_append, references, List.length_cons, ← Nat.add_assoc]
    rw [Nat.add_right_comm]
    exact .before ((adds item).reference ..) fun name => ih.give _

theorem references_around_zero (place : Nat → Location) (owner : String)
    (before after : List Json) :
    Around [] (fun part => reference (place before.length) (owner ++ toString before.length) part)
      fun part => references place owner 0 (before ++ part :: after) := by
  have inside : Around [] (fun part => reference (place (0 + before.length))
      (owner ++ toString (0 + before.length)) part)
      fun part => references place owner 0 (before ++ part :: after) := references_around
  rwa [Nat.zero_add] at inside

theorem fieldReferences_around {before after : Attributes} :
    Around [] (fun part => reference (l.join key) (owner ++ key) part)
      fun part => fieldReferences l owner (before ++ (key, part) :: after) := by
  induction before with
  | nil =>
    simp only [List.nil_append, fieldReferences]
    exact Around.refl.after fun name => (fieldReferences_uniform fun p _ => adds p.2).give _
  | cons entry rest ih =>
    obtain ⟨k, spec⟩ := entry
    simp only [List.cons_append, fieldReferences]
    exact .before ((adds spec).reference ..) fun name => ih.give _

theorem imapReferences_around {before after : Attributes} {acc : IMapFields} :
    Around [] (fun part => reference (l.join key) (owner ++ key) part)
      fun part => imapReferences l owner acc (before ++ (key, part) :: after) := by
  induction before generalizing acc with
  | nil =>
    simp only [List.nil_append, imapReferences]
    exact Around.refl.after fun name => .bind (.lift rfl) fun acc =>
      imapReferences_uniform fun p _ => adds p.2
  | cons entry rest ih =>
    obtain ⟨k, spec⟩ := entry
    simp only [List.cons_append, imapReferences]
    exact .before ((adds spec).reference ..) fun name => .before (.lift rfl) fun acc => ih

theorem itemsOf_uniform {items : Option Json} :
    Uniform [] (itemsOf l name items) (itemsOf l name items) := by
  unfold itemsOf
  split
  · exact references_uniform fun item _ => adds item
  · exact .fault
  · exact .pure _

theorem imapFieldsOf_uniform {fields : Option Json} :
    Uniform [] (imapFieldsOf l name fields) (imapFieldsOf l name fields) := by
  unfold imapFieldsOf
  split
  · exact (imapReferences_uniform fun p _ => adds p.2).map _
  · exact .bind (.lift rfl) fun placed => .pure _
  · exact .fault
  · exact .pure _

theorem mapping_around {h : Hole kind key} {put : Json → Json}
    (inside : Around [name] inner fun part => kindType l kind name (h.fill (put part))) :
    Around [name] inner fun part => specifiedType l name (.obj (h.fill (put part))) := by
  refine (inside.check (e := checkRecognized l kind (h.fill .null))).congr fun part _ => ?_
  show mappingType l name _ = _
  rw [mappingType_eq h.typed_fill, checkRecognized_congr h.keys_fill]

theorem listType_around {h : Hole "List" "allowed"} :
    Around [] (reference (l.join "allowed") name) fun part => listType l name (h.fill part) := by
  have same (part : Json) (given : part.isNull = false) : listType l name (h.fill part) = (do
      let minLength := (← (h.before ++ h.after).size l "minlen").getD 0
      let maxLength ← (h.before ++ h.after).size l "maxlen"
      checkOrder (fun a b => decide (a > b)) l (some minLength) maxLength
      let allowed ← reference (l.join "allowed") name part
      pure { allowed := some allowed, minLength, maxLength }) := by
    rw [listType_eq, Hole.get?_fill given, Attributes.size, Attributes.size,
      Hole.read_fill (by decide), Hole.read_fill (by decide)]
    rfl
  exact Around.congr (.before (.lift rfl) fun minLength => .before (.lift rfl) fun maxLength =>
    .before (.lift rfl) fun _ => Around.refl.give _) same

theorem tupleType_around {h : Hole "Tuple" "items"} {before after : List Json} :
    Around [] (fun part => reference (l.join s!"items[{before.length}]")
        (name ++ toString before.length) part)
      fun part => tupleType l name (h.fill (.arr (before ++ part :: after))) := by
  have same (part : Json) : tupleType l name (h.fill (.arr (before ++ part :: after))) = (do
      let items ← references (fun i => l.join s!"items[{i}]") name 0 (before ++ part :: after)
      let enumName ← enumAttribute l name (h.before ++ h.after)
      pure { items, enumName }) := by
    rw [tupleType_eq, Hole.get?_fill rfl, enumAttribute_fill (by decide)]
    rfl
  have inside := references_around_zero (fun i => l.join s!"items[{i}]") name before after
  exact Around.congr (inside.after fun items => enumAttribute_uniform.give _)
    fun part _ => same part

theorem mapType_around {h : Hole "Map" "fields"} {before after : Attributes} :
    Around [] (fun part => reference ((l.join "fields").join key) (name ++ key) part)
      fun part => mapType l name (h.fill (.obj (before ++ (key, part) :: after))) :=
  (fieldReferences_around.give _).congr fun _ _ => mapType_eq (Hole.get?_fill rfl)

theorem imapType_around {h : Hole "IMap" "fields"} {before after : Attributes} :
    Around [name] (fun part => reference ((l.join "fields").join key) (name ++ key) part)
      fun part => imapType l name (h.fill (.obj (before ++ (key, part) :: after))) := by
  have same (part : Json) :
      imapType l name (h.fill (.obj (before ++ (key, part) :: after))) = (do
        let enumName ← enumAttribute l name (h.before ++ h.after)
        let fields ← some <$>
          imapReferences (l.join "fields") name {} (before ++ (key, part) :: after)
        imapShape l name enumName fields) := by
    rw [imapType_eq, Hole.get?_fill rfl, enumAttribute_fill (by decide)]
    rfl
  exact Around.congr (.before enumAttribute_uniform fun enumName =>
    (imapReferences_around.map _).after fun fields => imapShape_uniform) fun part _ => same part

/-- What stands in a place is interpreted there as a reference, and nothing else depends on it. -/
theorem Place.around {derived : String} {whole : Json → Json} (h : Place name derived whole) :
    ∃ l', Around [name] (reference l' derived) fun part => specifiedType l name (whole part) := by
  cases h with
  | member before after =>
    refine ⟨l.join s!"[{before.length}]", ?_⟩
    have inside := references_around_zero (fun i => l.join s!"[{i}]") name before after
    exact (inside.map _).hold
  | allowed h =>
    refine ⟨l.join "allowed", mapping_around ?_⟩
    simp only [kindType_list]
    exact (listType_around.map _).hold
  | item h before after =>
    refine ⟨l.join s!"items[{before.length}]", mapping_around ?_⟩
    simp only [kindType_tuple]
    exact (tupleType_around.map _).hold
  | field h key before after =>
    refine ⟨(l.join "fields").join key, mapping_around ?_⟩
    simp only [kindType_map]
    exact (mapType_around.map _).hold
  | imapField h key before after =>
    refine ⟨(l.join "fields").join key, mapping_around ?_⟩
    simp only [kindType_imap]
    exact imapType_around.map _

theorem bitfieldType_around {h : Hole "Bitfield" "enum"} :
    Around [name] (enumReference (l.join "enum") name)
      fun part => bitfieldType l name (h.fill part) := by
  have same (part : Json) (given : part.isNull = false) :
      bitfieldType l name (h.fill part) = (do
        let slots ← slotsAttribute (l.join "types") (h.before ++ h.after)
        let enumName ← some <$> enumReference (l.join "enum") name part
        modify fun s => { s with bitfields := s.bitfields ++ [(name, ⟨l, slots, enumName⟩)] }
        pure (PendingBitfield.placeholder ⟨l, slots, enumName⟩)) := by
    rw [bitfieldType, slotsAttribute_fill (by decide), enumAttribute_self given]
  exact Around.congr (.before (.lift rfl) fun slots =>
    (Around.refl.map some).after fun enumName => bitfieldShape_uniform) same

theorem tupleType_enum_around {h : Hole "Tuple" "enum"} :
    Around [] (enumReference (l.join "enum") name) fun part => tupleType l name (h.fill part) := by
  have same (part : Json) (given : part.isNull = false) : tupleType l name (h.fill part) = (do
      let items ← itemsOf l name ((h.before ++ h.after).get? "items")
      let enumName ← some <$> enumReference (l.join "enum") name part
      pure { items, enumName }) := by
    rw [tupleType_eq, Hole.get?_fill_other (by decide), enumAttribute_self given]
  exact Around.congr (.before itemsOf_uniform fun items => (Around.refl.map some).give _) same

theorem imapType_enum_around {h : Hole "IMap" "enum"} :
    Around [name] (enumReference (l.join "enum") name)
      fun part => imapType l name (h.fill part) := by
  have same (part : Json) (given : part.isNull = false) : imapType l name (h.fill part) = (do
      let enumName ← some <$> enumReference (l.join "enum") name part
      let fields ← imapFieldsOf l name ((h.before ++ h.after).get? "fields")
      imapShape l name enumName fields) := by
    rw [imapType_eq, Hole.get?_fill_other (by decide), enumAttribute_self given]
  exact Around.congr ((Around.refl.map some).after fun enumName =>
    imapFieldsOf_uniform.bind fun fields => imapShape_uniform) same

/-- What stands in place of an enumeration is interpreted there, and nothing else depends on it. -/
theorem EnumPlace.around {whole : Json → Json} (h : EnumPlace whole) :
    ∃ l', Around [name] (enumReference l' name) fun part => specifiedType l name (whole part) := by
  refine ⟨l.join "enum", ?_⟩
  cases h with
  | bitfield h =>
    refine mapping_around ?_
    simp only [kindType_bitfield]
    exact bitfieldType_around.map _
  | tuple h =>
    refine mapping_around ?_
    simp only [kindType_tuple]
    exact (tupleType_enum_around.map _).hold
  | imap h =>
    refine mapping_around ?_
    simp only [kindType_imap]
    exact imapType_enum_around.map _

end Places

end Loading

end DeviceTree
