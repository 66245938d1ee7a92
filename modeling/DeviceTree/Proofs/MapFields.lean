import DeviceTree.Proofs.Shorthand
import DeviceTree.Proofs.Slots

/-!
# Fields of integer maps

The fields of an integer map are given as a list, with the numbers of its slots, or by keys. A key
that is written as an integer is the index of its field, and other keys are aliases, which wait for
the enumeration of the map.

`Specifies.imap` follows a map from its specification, wherever that stands, to the loaded type:
the fields with an index are there as they were read, and those that waited are at the values of
their aliases. From it come the indexes of all fields of a list (`lists_numbered`) and of a
mapping (`imap_fields_placed`).
-/

namespace DeviceTree

open Loading State

/-! ## Indexes of fields -/

/-- The integer of 64 bits that a key is written as. -/
def keyInteger? (key : String) : Option Int :=
  Text.readIntWithin? (-0x8000000000000000) 0x7FFFFFFFFFFFFFFF key.toList

/-- The value of an alias in the named enumeration. -/
def Registry.aliasValue? (r : Registry) (enumName : Option String) (key : String) : Option Int :=
  match enumName.bind r.resolve? with
  | some (.enum e) => e.value? key
  | _ => none

/-- Where the field with a key is meant to be: at the integer that the key is, or else at the value
of the alias. -/
def Registry.fieldIndex? (r : Registry) (enumName : Option String) (key : String) : Option Int :=
  (keyInteger? key).or (r.aliasValue? enumName key)

namespace Loading

/-- The name that a specification in place of a name stands for. -/
def partName? (derived : String) : Json → Option String
  | .null => some "Null"
  | .str name => some name
  | part => companionName? derived part

/-- The name of the enumeration that the attribute gives. -/
def enumNameOf (owner : String) : Option Json → Option String
  | some (.str name) => some name
  | some (.arr _) => some (owner ++ "Enum")
  | _ => none

section Reading

variable {l : Location} {name owner derived : String} {attrs fields : Attributes} {spec : Json}
  {s s' : State} {value : String → Option Int} {acc res : IMapFields}

theorem reference_partName (run : reference l derived spec s = .ok (name, s')) :
    partName? derived spec = some name := by
  cases named : companionName? derived spec with
  | some companion =>
    rw [reference_eq named] at run
    obtain ⟨type, s₁, -, run⟩ := bind_run.1 run
    obtain ⟨_, s₂, -, run⟩ := bind_run.1 run
    obtain ⟨rfl, -⟩ := pure_run.1 run
    cases spec <;> first | contradiction | exact named
  | none =>
    cases spec with
    | null | str =>
      rw [reference] at run
      obtain ⟨rfl, -⟩ := pure_run.1 run
      rfl
    | arr | obj => contradiction
    | bool | int | double =>
      simp only [reference] at run
      exact absurd run fault_run

theorem enumAttribute_name {enumName : Option String}
    (run : enumAttribute l owner attrs s = .ok (enumName, s')) :
    enumName = enumNameOf owner (attrs.get? "enum") := by
  rw [enumAttribute] at run
  cases given : attrs.get? "enum" with
  | none =>
    rw [given] at run
    obtain ⟨rfl, -⟩ := pure_run.1 run
    rfl
  | some spec =>
    rw [given] at run
    obtain ⟨n, named, rfl⟩ := map_run.1 run
    cases spec with
    | str name =>
      obtain ⟨_, s₁, -, run⟩ := bind_run.1 named
      obtain ⟨rfl, -⟩ := pure_run.1 run
      rfl
    | arr aliases =>
      obtain ⟨e, -, rfl, -⟩ := enumReference_arr_run.1 named
      rfl
    | _ => exact absurd named fault_run

/-- The field is at the value of its alias. -/
def AtAlias (value : String → Option Int) (p : String × String) (q : Int × String) : Prop :=
  value p.1 = some q.1 ∧ p.2 = q.2

/-- The field is where its key says, with the type that is specified for it. -/
def AtKey (value : String → Option Int) (owner : String) (p : String × Json) (q : Int × String) :
    Prop :=
  (keyInteger? p.1).or (value p.1) = some q.1 ∧ partName? (owner ++ p.1) p.2 = some q.2

/-- Each alias has a value, and its field is put there. -/
theorem placeNamed_places {e : Enumeration} {acc placed : SortedMap String}
    {named : List (String × String)} (h : placeNamed l e acc named = .ok placed) :
    ∃ later, List.Forall₂ (AtAlias e.value?) named later ∧
      placed.entries.Perm (acc.entries ++ later) := by
  induction named generalizing acc with
  | nil =>
    cases h
    exact ⟨[], .nil, by rw [List.append_nil]⟩
  | cons p rest ih =>
    obtain ⟨key, typeName⟩ := p
    rw [placeNamed] at h
    split at h
    · contradiction
    · next n given =>
      obtain ⟨acc', one, others⟩ := bind_eq_ok.1 h
      obtain ⟨later, aliases, perm⟩ := ih others
      refine ⟨(n, typeName) :: later, .cons ⟨given, rfl⟩ aliases, perm.trans ?_⟩
      rw [List.append_cons]
      exact (placeFields_perm one).append_right _

/-- A field by its key is placed at once, or left for later with the alias. -/
theorem add_places {key typeName : String} (h : acc.add l key typeName = .ok res) :
    (∃ n, keyInteger? key = some n ∧ res.named = acc.named ∧
      res.placed.entries.Perm (acc.placed.entries ++ [(n, typeName)])) ∨
    keyInteger? key = none ∧ res = { acc with named := acc.named ++ [(key, typeName)] } := by
  rw [IMapFields.add] at h
  split at h
  · next n written =>
    obtain ⟨placed, one, h⟩ := bind_eq_ok.1 h
    cases h
    exact .inl ⟨n, written, rfl, placeFields_perm one⟩
  · next unwritten =>
    cases h
    exact .inr ⟨unwritten, rfl⟩

/-- When the aliases that are left have values, the fields of a mapping are those that were there,
and those where the keys say. The induction moves fields from the mapping to those there. -/
theorem imapReferences_places (run : imapReferences l owner acc fields s = .ok (res, s'))
    {later : List (Int × String)} (aliases : List.Forall₂ (AtAlias value) res.named later) :
    ∃ held pairs, List.Forall₂ (AtAlias value) acc.named held ∧
      List.Forall₂ (AtKey value owner) fields pairs ∧
      (res.placed.entries ++ later).Perm (acc.placed.entries ++ held ++ pairs) := by
  induction fields generalizing acc s with
  | nil =>
    rw [imapReferences] at run
    obtain ⟨rfl, -⟩ := pure_run.1 run
    exact ⟨later, [], aliases, .nil, by rw [List.append_nil]⟩
  | cons p rest ih =>
    obtain ⟨key, spec⟩ := p
    rw [imapReferences] at run
    obtain ⟨typeName, s₁, read, run⟩ := bind_run.1 run
    obtain ⟨acc', s₂, lifted, run⟩ := bind_run.1 run
    obtain ⟨added, rfl⟩ := lift_run.1 lifted
    have named := reference_partName read
    obtain ⟨held, pairs, before, after, perm⟩ := ih run
    rcases add_places added with ⟨n, written, same, placed⟩ | ⟨unwritten, rfl⟩
    · rw [same] at before
      have index : (keyInteger? key).or (value key) = some n := by rw [written, Option.some_or]
      refine ⟨held, (n, typeName) :: pairs, before, .cons ⟨index, named⟩ after, perm.trans ?_⟩
      have moved := (placed.append_right held).append_right pairs
      refine moved.trans ?_
      simp only [List.append_assoc, List.singleton_append]
      exact List.perm_middle.symm.append_left _
    · obtain ⟨held, ⟨n, _⟩, _, rfl, earlier, ⟨given, rfl⟩, none⟩ := forall₂_middle before
      cases none
      have index : (keyInteger? key).or (value key) = some n := by
        rw [unwritten, Option.none_or, given]
      refine ⟨held, (n, typeName) :: pairs, earlier, .cons ⟨index, named⟩ after, perm.trans ?_⟩
      simp only [List.append_assoc, List.singleton_append]
      exact .refl _

end Reading

/-! ## Completed maps -/

section Completed

variable {l : Location} {name : String} {attrs fields : Attributes} {types : List (String × Json)}
  {s s' t : State} {r : Registry} {m : IMapShape}

/-- A map that waits is completed with the fields that its enumeration places, and other maps stay
as they are registered. -/
theorem imap_of_complete (sound : t.Sound none) (distinct : (t.imaps.map Prod.fst).Nodup)
    (found : t.registry.entry? name = some ⟨.imap m, .custom⟩) (completed : complete t = .ok r) :
    (name ∉ t.imaps.map Prod.fst → r.get? name = some (.imap m)) ∧
    ∀ p, (name, p) ∈ t.imaps → ∃ enumName e placed, p.enumName = some enumName ∧
      r.resolve enumName = .ok (.enum e) ∧
      placeNamed p.location e (m.fields.getD .empty) p.named = .ok placed ∧
      r.get? name = some (.imap { m with fields := some placed }) := by
  obtain ⟨r₁, folded, stages⟩ := complete_stages sound completed
  have filled : Filled t.registry t.imaps name ( r₁.entry? name) := by
    have settles := completeImaps_settles (fillable_of_sound sound distinct)
    rw [folded] at settles
    exact settles name
  -- layouts are of bitfields only
  have final {m' : IMapShape} (entry : r₁.entry? name = some ⟨.imap m', .custom⟩) :
      r.get? name = some (.imap m') := by
    have found : r₁.get? name = some (.imap m') := Registry.get?_of_bound entry
    obtain ⟨_, found', rfl | ⟨_, _, ⟨⟩, -⟩⟩ := stages.lays.get?_of_get?' found
    exact found'
  generalize entry : r₁.entry? name = e? at filled
  cases filled with
  | other absent =>
    refine ⟨fun _ => final (entry.trans found), fun p mem => ?_⟩
    exact absurd (List.mem_map_of_mem mem) absent
  | filled mem used resolved found' placed =>
    refine ⟨fun absent => absurd (List.mem_map_of_mem mem) absent, fun p mem' => ?_⟩
    cases List.inj_on_of_nodup_map distinct mem mem' rfl
    rw [Registry.get?, found, Option.map_some] at found'
    cases found'
    exact ⟨_, _, _, used, stages.resolve_enum resolved, placed, final entry⟩

theorem imapFieldsOf_sound {spec : Option Json} {fields : Option IMapFields} (h : s.Sound none)
    (run : imapFieldsOf l name spec s = .ok (fields, s')) : s'.Sound none := by
  unfold imapFieldsOf at run
  split at run
  · obtain ⟨fields, read, rfl⟩ := map_run.1 run
    exact (imapReferences_sound (fun p _ => keeps p.2) h read).1
  · obtain ⟨_, s₁, lifted, run⟩ := bind_run.1 run
    obtain ⟨-, rfl⟩ := lift_run.1 lifted
    obtain ⟨-, rfl⟩ := pure_run.1 run
    exact h
  · exact absurd run fault_run
  · obtain ⟨-, rfl⟩ := pure_run.1 run
    exact h

/-- The map as it is registered, and what waits with it. -/
theorem imapShape_run {enumName : Option String} {fields : Option IMapFields}
    (run : imapShape l name enumName fields s = .ok (m, s')) :
    m = ⟨fields.map (·.placed), enumName⟩ ∧ s'.registry = s.registry ∧ s'.imaps = s.imaps ++
      fields.elim [] fun fields => (waitingFields l name enumName fields).imaps := by
  cases fields with
  | none =>
    obtain ⟨rfl, rfl⟩ := pure_run.1 run
    exact ⟨rfl, rfl, (List.append_nil _).symm⟩
  | some fields =>
    obtain ⟨_, s₁, noted, run⟩ := bind_run.1 run
    obtain rfl := modify_run.1 noted
    obtain ⟨rfl, rfl⟩ := pure_run.1 run
    exact ⟨rfl, rfl, rfl⟩

/-- The specification of a map gives the enumeration, then the fields, and then the map. -/
theorem specifiedType_imap {type : TypeDef} (typed : attrs.get? "type" = some (.str "IMap"))
    (run : specifiedType l name (.obj attrs) s = .ok (type, s')) :
    ∃ enumName s₁ fields s₂ m, enumAttribute l name attrs s = .ok (enumName, s₁) ∧
      imapFieldsOf l name (attrs.get? "fields") s₁ = .ok (fields, s₂) ∧
      imapShape l name enumName fields s₂ = .ok (m, s') ∧ type = .imap m := by
  have run : mappingType l name attrs s = .ok (type, s') := run
  rw [mappingType_eq typed, kindType_imap] at run
  obtain ⟨_, s₃, kind, rest⟩ := bind_run.1 run
  obtain ⟨m, imap, rfl⟩ := map_run.1 kind
  obtain ⟨_, _, checked, last⟩ := bind_run.1 rest
  obtain ⟨-, rfl⟩ := lift_run.1 checked
  obtain ⟨rfl, rfl⟩ := pure_run.1 last
  rw [imapType_eq] at imap
  obtain ⟨enumName, s₁, named, others⟩ := bind_run.1 imap
  obtain ⟨fields, s₂, read, shape⟩ := bind_run.1 others
  exact ⟨enumName, s₁, fields, s₂, m, named, read, shape, rfl⟩

/-- The map has the fields that were placed when it was read, and the others at the values of their
aliases. -/
def HasFields (r : Registry) (m : IMapShape) (fields : IMapFields) : Prop :=
  ∃ placed later, m.fields = some placed ∧
    List.Forall₂ (AtAlias (r.aliasValue? m.enumName)) fields.named later ∧
    placed.entries.Perm (fields.placed.entries ++ later)

theorem aliasValue?_eq {enumName : String} {e : Enumeration}
    (resolved : r.resolve enumName = .ok (.enum e)) :
    r.aliasValue? (some enumName) = e.value? := by
  funext key
  rw [Registry.aliasValue?, Option.bind_some, Registry.resolve?_eq_some.2 resolved]

/-- A name that is new is not one that waits. -/
theorem State.Sound.not_waiting (sound : s.Sound none) (new : s.registry.entry? name = none) :
    name ∉ s.imaps.map Prod.fst := by
  intro mem
  obtain ⟨⟨_, p⟩, waits, rfl⟩ := List.mem_map.1 mem
  obtain ⟨shape, found | none⟩ := sound.imaps _ p waits
  · rw [new] at found
    contradiction
  · contradiction

/-- An integer map, wherever it is specified, has the fields that are read. -/
theorem Specifies.imap (h : Specifies types name (.obj attrs))
    (typed : attrs.get? "type" = some (.str "IMap")) (loads : loadTypes types = .ok r) :
    ∃ s s₁ s₂ fields m, enumAttribute (.ofType name) name attrs s = .ok (m.enumName, s₁) ∧
      imapFieldsOf (.ofType name) name (attrs.get? "fields") s₁ = .ok (fields, s₂) ∧
      r.get? name = some (.imap m) ∧ ∀ given ∈ fields, HasFields r m given := by
  obtain ⟨before, r', loads', same⟩ := h.last loads
  obtain ⟨s, type, s₃, t, sound, specified, defined, sound', distinct, completed⟩ :=
    loadTypes_last loads'
  obtain ⟨enumName, s₁, fields, s₂, m, named, read, shape, rfl⟩ :=
    specifiedType_imap typed specified
  obtain ⟨rfl, registry, waiting⟩ := imapShape_run shape
  obtain ⟨registered, complete⟩ :=
    imap_of_complete sound' distinct (entry_of_define defined) completed
  obtain ⟨r₀, new, rfl⟩ := define_run.1 defined
  have absent : name ∉ s₂.imaps.map Prod.fst :=
    (imapFieldsOf_sound (enumAttribute_sound sound named).1 read).not_waiting
      (registry ▸ (Registry.define_eq_ok new).1)
  have kept (done : s₃.imaps = s₂.imaps) :
      r.get? name = some (.imap ⟨fields.map (·.placed), enumName⟩) := by
    rw [← Registry.get?_congr same]
    exact registered (done ▸ absent)
  refine ⟨s, s₁, s₂, fields, ?_⟩
  cases fields with
  | none =>
    refine ⟨_, named, read, kept ?_, nofun⟩
    rw [waiting, Option.elim_none, List.append_nil]
  | some fields =>
    rw [Option.elim_some, waitingFields] at waiting
    by_cases done : fields.named = []
    · refine ⟨_, named, read, kept ?_, ?_⟩
      · rw [waiting, done]
        exact List.append_nil _
      · rintro _ ⟨⟩
        exact ⟨fields.placed, [], rfl, done ▸ .nil, by rw [List.append_nil]⟩
    · rw [if_neg (by simpa using done)] at waiting
      obtain ⟨enumName, e, placed, rfl, resolved, ok, found⟩ :=
        complete _ (waiting ▸ List.mem_append_right _ (List.mem_singleton_self _))
      obtain ⟨later, aliases, perm⟩ := placeNamed_places ok
      rw [Registry.get?_congr same] at found
      refine ⟨_, named, read, found, ?_⟩
      rintro _ ⟨⟩
      refine ⟨placed, later, rfl, ?_, perm⟩
      rwa [aliasValue?_eq (Registry.resolve_congr (fun n => (same n).symm) resolved)]

/-- The numbers of lists follow the rule of slots. A list of aliases gives the enumeration that has
them in order, unless an entry is none of a list of aliases or an alias comes twice; and a list of
type names gives an integer map that has them as its fields. -/
theorem lists_numbered (items : List Json) :
    (∀ l e, enumeration l (.arr items) = .ok e ↔ (∀ item ∈ items, IsSlot item) ∧
      (items.flatMap namesIn).Nodup ∧ e.values.entries = slotNumbers [] items) ∧
    ((∀ item ∈ items, IsSlot item) → SlotRule items (slotNumbers [] items)) ∧
    ∀ types r name (attrs : Attributes), loadTypes types = .ok r →
      Specifies types name (.obj attrs) →
      attrs.get? "type" = some (.str "IMap") → attrs.get? "fields" = some (.arr items) →
      ∃ m placed, r.get? name = some (.imap m) ∧ m.fields = some placed ∧
        (∀ item ∈ items, IsSlot item) ∧
        placed.entries.Perm ((slotNumbers [] items).map Prod.swap) := by
  refine ⟨fun l e => enumeration_eq_ok, slotNumbers_rule, ?_⟩
  intro types r name attrs loads specified typed given
  obtain ⟨s, s₁, s₂, read, m, named, run, found, has⟩ := specified.imap typed loads
  rw [given, imapFieldsOf] at run
  obtain ⟨numbered, s₃, lifted, rest⟩ := bind_run.1 run
  obtain ⟨read, rfl⟩ := lift_run.1 lifted
  obtain ⟨rfl, rfl⟩ := pure_run.1 rest
  obtain ⟨placed, later, hasFields, none, perm⟩ := has _ rfl
  cases none
  obtain ⟨slots, perm'⟩ := numberFields_slots [] read
  rw [List.append_nil] at perm
  exact ⟨m, placed, found, hasFields, slots, perm.trans perm'⟩

/-- Aliases with a hole, a count and an explicit number among them. -/
def rungs : List Json :=
  [.str "one", .str "two", .null, .str "four", .int 3, .str "seven", .obj [("eleven", .int 11)],
    .str "twelve"]

/-- A map whose fields are a list. -/
def pointTypes : List (String × Json) :=
  [("point", .obj [("type", .str "IMap"),
    ("fields", .arr [.str "Int", .obj [("Bool", .int 4)], .str "String"])])]

/-- The hole and the count shift the aliases after them. -/
theorem rungs_numbered :
    (∃ e, enumeration (.ofType "rung") (.arr rungs) = .ok e ∧ e.values.entries =
      [("one", 0), ("two", 1), ("four", 3), ("seven", 7), ("eleven", 11), ("twelve", 12)]) ∧
    ∃ r m placed, loadTypes pointTypes = .ok r ∧ r.get? "point" = some (.imap m) ∧
      m.fields = some placed ∧
      placed.entries.Perm [(0, "Int"), (4, "Bool"), (5, "String")] := by
  constructor
  · have numbers : slotNumbers [] rungs =
        [("one", 0), ("two", 1), ("four", 3), ("seven", 7), ("eleven", 11), ("twelve", 12)] := by
      cbv
    refine ⟨⟨⟨slotNumbers [] rungs, by rw [numbers]; decide⟩⟩, ?_, numbers⟩
    refine ((lists_numbered rungs).1 _ _).2 ⟨?_, by decide, rfl⟩
    simp [rungs, IsSlot, Json.asInt64?]
  · have run : (fun _ : Registry => ()) <$> loadTypes pointTypes = .ok () := by cbv
    obtain ⟨r, loads, -⟩ := map_eq_ok.1 run
    obtain ⟨m, placed, found, hasFields, -, perm⟩ := (lists_numbered _).2.2 pointTypes r "point" _
      loads (.entry (List.mem_singleton_self _)) rfl rfl
    have numbers : (slotNumbers [] [.str "Int", .obj [("Bool", .int 4)], .str "String"]).map
        Prod.swap = [(0, "Int"), (4, "Bool"), (5, "String")] := by cbv
    exact ⟨r, m, placed, loads, found, hasFields, numbers ▸ perm⟩

/-- A mapping that gives the fields of a map gives each key an index of its own, and the fields of
the loaded type are those, at the indexes of their keys. -/
theorem imap_fields_placed (loads : loadTypes types = .ok r)
    (specified : Specifies types name (.obj attrs))
    (typed : attrs.get? "type" = some (.str "IMap"))
    (given : attrs.get? "fields" = some (.obj fields)) :
    ∃ m placed, r.get? name = some (.imap m) ∧ m.fields = some placed ∧
      m.enumName = enumNameOf name (attrs.get? "enum") ∧
      placed.entries.length = fields.length ∧
      (∀ p ∈ fields, ∃ n typeName, r.fieldIndex? m.enumName p.1 = some n ∧
        partName? (name ++ p.1) p.2 = some typeName ∧ placed.get? n = some typeName) ∧
      (fields.map fun p => r.fieldIndex? m.enumName p.1).Nodup := by
  obtain ⟨s, s₁, s₂, read, m, named, run, found, has⟩ := specified.imap typed loads
  rw [given, imapFieldsOf] at run
  obtain ⟨read, references, rfl⟩ := map_run.1 run
  obtain ⟨placed, later, hasFields, aliases, perm⟩ := has read rfl
  obtain ⟨_, pairs, none, keys, perm'⟩ := imapReferences_places references aliases
  cases none
  have perm : placed.entries.Perm pairs := perm.trans perm'
  refine ⟨m, placed, found, hasFields, enumAttribute_name named, ?_, ?_, ?_⟩
  · rw [perm.length_eq, keys.length_eq]
  · intro p mem
    obtain ⟨first, last, rfl⟩ := List.append_of_mem mem
    obtain ⟨before, ⟨n, typeName⟩, after, rfl, -, ⟨index, part⟩, -⟩ := forall₂_middle keys
    refine ⟨n, typeName, index, part, SortedMap.get?_eq_some.2 (perm.mem_iff.2 ?_)⟩
    exact List.mem_append_right _ (List.mem_cons_self ..)
  · have indexes : (fields.map fun p => r.fieldIndex? m.enumName p.1) =
        (pairs.map Prod.fst).map some := by
      rw [← List.forall₂_eq_eq_eq, List.forall₂_map_left_iff, List.forall₂_map_right_iff,
        List.forall₂_map_right_iff]
      exact keys.imp fun _ _ here => here.1
    have distinct : (placed.entries.map Prod.fst).Nodup := placed.ascending.imp Int.ne_of_lt
    rw [indexes]
    exact ((perm.map _).nodup_iff.1 distinct).map (Option.some_injective _)

/-- A map with a field by an alias and one by an index, whose type is specified in place. -/
def portTypes : List (String × Json) :=
  [("port", .obj [("type", .str "IMap"), ("enum", .arr [.str "label", .str "speed"]),
    ("fields", .obj [("speed", .str "Int"), ("5", .obj [("type", .str "String")])])])]

/-- The alias is the second of its enumeration. -/
theorem portTypes_placed :
    ∃ r m placed, loadTypes portTypes = .ok r ∧ r.get? "port" = some (.imap m) ∧
      m.fields = some placed ∧ placed.entries.length = 2 ∧ placed.get? 1 = some "Int" ∧
      placed.get? 5 = some "port5Type" := by
  have run : (fun r : Registry => r.aliasValue? (some "portEnum") "speed") <$>
      loadTypes portTypes = .ok (some 1) := by cbv
  obtain ⟨r, loads, value⟩ := map_eq_ok.1 run
  obtain ⟨m, placed, found, hasFields, enumName, length, fields, -⟩ :=
    imap_fields_placed loads (.entry (List.mem_singleton_self _)) rfl rfl
  have enumName : m.enumName = some "portEnum" := enumName
  have literal : keyInteger? "5" = some 5 ∧ keyInteger? "speed" = none := ⟨by cbv, by cbv⟩
  obtain ⟨n, _, index, ⟨⟩, atSpeed⟩ := fields _ (List.mem_cons_self ..)
  obtain ⟨n', _, index', ⟨⟩, atFive⟩ := fields _ (List.mem_cons_of_mem _ (List.mem_cons_self ..))
  rw [enumName, Registry.fieldIndex?, literal.2, Option.none_or, value] at index
  rw [Registry.fieldIndex?, literal.1, Option.some_or] at index'
  cases index
  cases index'
  exact ⟨r, m, placed, loads, found, hasFields, length, atSpeed, atFive⟩

/-- A map with an alias that is written as an integer. -/
def rateTypes : List (String × Json) :=
  [("rates", .obj [("type", .str "IMap"), ("enum", .arr [.str "9600"]),
    ("fields", .obj [("9600", .str "Int")])])]

/-- The field is at that integer and not at the value of the alias. -/
theorem rateTypes_not_at_alias :
    ∃ r m placed, loadTypes rateTypes = .ok r ∧ r.get? "rates" = some (.imap m) ∧
      m.fields = some placed ∧ r.aliasValue? m.enumName "9600" = some 0 ∧
      placed.get? 0 = none ∧ placed.get? 9600 = some "Int" := by
  have run : (fun r : Registry => (r.get? "rates", r.aliasValue? (some "ratesEnum") "9600")) <$>
      loadTypes rateTypes =
        .ok (some (.imap ⟨some ⟨[(9600, "Int")], by simp⟩, some "ratesEnum"⟩), some 0) := by cbv
  obtain ⟨r, loads, shown⟩ := map_eq_ok.1 run
  obtain ⟨found, value⟩ := Prod.mk.inj shown
  exact ⟨r, _, _, loads, found, rfl, value, rfl, rfl⟩

end Completed

end Loading

end DeviceTree
