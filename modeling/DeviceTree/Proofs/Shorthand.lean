import DeviceTree.Proofs.InlineTypes
import DeviceTree.Proofs.TypeOrder

/-!
# Types in place as shorthand

A type that is specified in place may as well be an entry of its own. `Inlined` relates a
specification with the one that names it instead, and with the entry that it becomes: a list or a
mapping in place of a type, at any depth, or a list of aliases in place of an enumeration.

`Outlines` says that two computations come to the same, except that the first also adds what the
entry comes to. It holds where the name is read (`reference_outlines`, `enumReference_outlines`),
passes from a part to the whole around it (`Around.outlines`), and so it holds of specifications
(`Inlined.outlines`). Hence the types of a document with the entry come to the same as those
without it, and `loadTypes_inlined` is the result.

So every specification in a document, at whatever depth, may be taken for its last entry
(`Specifies.last`), where what it comes to is seen at the end of loading (`loadTypes_last`).
-/

namespace DeviceTree

namespace Loading

open Contribution State

/-! ## Contributions up to order -/

namespace Contribution

variable {c c' d d' e : Contribution} {s : State}

theorem same_left_comm (c d e : Contribution) : (c ++ (d ++ e)).Same (d ++ (c ++ e)) := by
  rw [← append_assoc, ← append_assoc]
  exact (same_comm c d).append (.refl e)

theorem Like.same (h : c.Like d) : c.Same d where
  types := .of_eq h.types.symm
  bitfields := .of_eq h.bitfields.symm
  imaps := .of_eq h.imaps.symm
  enumerates name := by
    have requests : (∃ l, (l, name) ∈ c.enumRefs) ↔ ∃ l, (l, name) ∈ d.enumRefs := by
      have mem := congrArg (name ∈ ·) h.requests
      simpa only [List.mem_map, Prod.exists, exists_eq_right, eq_iff_iff, iff_comm] using mem
    rw [Enumerates, Enumerates, requests, h.types]

/-- What more is added inside may be added in front. -/
theorem Same.around (h : d.Same (e ++ d')) (c c' : Contribution) :
    (c ++ (d ++ c')).Same (e ++ (c ++ (d' ++ c'))) := by
  have inside : (d ++ c').Same (e ++ (d' ++ c')) := by
    rw [← append_assoc]
    exact h.append (.refl c')
  exact ((Same.refl c).append inside).trans (same_left_comm ..)

theorem Same.admits (h : c.Same d) (admits : s.Admits c) : s.Admits d :=
  ⟨h.free admits.free, fun name mem => admits.undeclared name ((h.types.map _).mem_iff.2 mem)⟩

/-- A name that denotes an enumeration may be requested as one. -/
theorem same_request (l : Location) (name : String) (e : Enumeration) :
    (ofType name (.enum e)).Same (ofType name (.enum e) ++ { enumRefs := [(l, name)] }) where
  types := .of_eq (List.append_nil _).symm
  bitfields := .refl _
  imaps := .refl _
  enumerates n := by
    rw [enumerates_append]
    refine ⟨.inl, ?_⟩
    rintro (denotes | ⟨l', mem⟩ | ⟨e', mem⟩)
    · exact denotes
    · cases List.mem_singleton.1 mem
      exact .inr ⟨e, List.mem_singleton_self _⟩
    · contradiction

end Contribution

/-! ## References in place -/

section References

variable {l l' : Location} {derived name : String} {part : Json} {a : String} {type : TypeDef}
  {c : Contribution} {s : State}

/-- A list or a mapping where a name is expected is specified under the name of the companion, which
is registered then. -/
theorem reference_eq (named : companionName? derived part = some name) :
    reference l derived part = (do
      let type ← specifiedType l name part
      defineCompanion l name type
      pure name) := by
  cases part with
  | arr items =>
    cases named
    rw [reference, specifiedType, bind_map_left]
  | obj attrs =>
    cases named
    rw [reference]
    rfl
  | _ => contradiction

theorem isNull_of_companionName? (named : companionName? derived part = some name) :
    part.isNull = false := by
  cases part <;> first | contradiction | rfl

theorem Yields.reference (h : Yields [name] (specifiedType l name part) type c)
    (named : companionName? derived part = some name) :
    Yields [] (reference l derived part) name (c ++ ofType name type) := by
  rw [reference_eq named]
  refine ⟨h.leaves.release _, fun t admits => ?_⟩
  obtain ⟨admits, admits'⟩ := admits_append.1 admits
  exact bind_run.2 ⟨type, _, h.run t admits,
    bind_run.2 ⟨(), _, defineCompanion_run.2 ⟨admits', rfl⟩, pure_run.2 ⟨rfl, add_append.symm⟩⟩⟩

theorem Yields.of_reference (h : Yields [] (Loading.reference l derived part) a c)
    (named : companionName? derived part = some name) (admits : s.Admits c) :
    a = name ∧ ∃ type d, c = d ++ ofType name type ∧
      Yields [name] (specifiedType l name part) type d := by
  have run := h.run s admits
  rw [reference_eq named] at run
  obtain ⟨type, s₁, specified, run⟩ := bind_run.1 run
  obtain ⟨_, s₂, defined, run⟩ := bind_run.1 run
  obtain ⟨d, yields, admits₁, rfl⟩ := specifiedType_uniform.yields specified
  obtain ⟨admits₂, rfl⟩ := defineCompanion_run.1 defined
  obtain ⟨rfl, same⟩ := pure_run.1 run
  rw [← add_append] at same
  have same := eq_of_add_eq (admits_append.2 ⟨admits₁, admits₂⟩) admits same
  exact ⟨rfl, type, d, same.symm, yields⟩

theorem reference_str_yields {n : String} : Yields [] (reference l derived (.str n)) n {} := by
  rw [reference]
  exact .pure

/-- The list of aliases as an entry of its own. -/
def aliasEntry (name : String) (aliases : List Json) : String × Json :=
  (name ++ "Enum", .obj [("type", .str "Enum"), ("values", .arr aliases)])

theorem enumReference_str_yields {n : String} :
    Yields [] (enumReference l name (.str n)) n { enumRefs := [(l, n)] } := by
  refine ⟨⟨List.nil_sublist _, List.nil_sublist _⟩, fun t _ => ?_⟩
  refine bind_run.2 ⟨(), _, modify_run.2 rfl, pure_run.2 ⟨rfl, ?_⟩⟩
  simp [State.add, Registry.extend]

theorem enumReference_arr_run {aliases : List Json} {s' : State} :
    enumReference l name (.arr aliases) s = .ok (a, s') ↔
      ∃ e, enumeration l (.arr aliases) = .ok e ∧ a = name ++ "Enum" ∧
        s.Admits (ofType (name ++ "Enum") (.enum e)) ∧
        s' = s.add (ofType (name ++ "Enum") (.enum e)) := by
  constructor
  · intro run
    obtain ⟨e, s₁, lifted, run⟩ := bind_run.1 run
    obtain ⟨read, rfl⟩ := lift_run.1 lifted
    obtain ⟨_, s₂, defined, run⟩ := bind_run.1 run
    obtain ⟨rfl, rfl⟩ := pure_run.1 run
    obtain ⟨admits, rfl⟩ := defineCompanion_run.1 defined
    exact ⟨e, read, rfl, admits, rfl⟩
  · rintro ⟨e, read, rfl, admits, rfl⟩
    exact bind_run.2 ⟨e, s, lift_run.2 ⟨read, rfl⟩,
      bind_run.2 ⟨(), _, defineCompanion_run.2 ⟨admits, rfl⟩, pure_run.2 ⟨rfl, rfl⟩⟩⟩

theorem aliasEntry_run {aliases : List Json} {s' : State} :
    specifiedType l name (aliasEntry derived aliases).2 s = .ok (type, s') ↔
      ∃ e, enumeration (l.join "values") (.arr aliases) = .ok e ∧ type = .enum e ∧ s' = s := by
  have specified : specifiedType l name (aliasEntry derived aliases).2 = (do
      let type ← (liftM (TypeDef.enum <$> enumeration (l.join "values") (.arr aliases)) :
        LoadM TypeDef)
      checkRecognized l "Enum" [("type", .str "Enum"), ("values", .arr aliases)]
      pure type) := by
    rw [aliasEntry, specifiedType, mappingType_eq rfl, kindType.eq_def]
    rfl
  rw [specified]
  constructor
  · intro run
    obtain ⟨type, s₁, lifted, run⟩ := bind_run.1 run
    obtain ⟨given, rfl⟩ := lift_run.1 lifted
    obtain ⟨e, read, rfl⟩ := map_eq_ok.1 given
    obtain ⟨_, s₂, checked, run⟩ := bind_run.1 run
    obtain ⟨-, rfl⟩ := lift_run.1 checked
    obtain ⟨rfl, rfl⟩ := pure_run.1 run
    exact ⟨e, read, rfl, rfl⟩
  · rintro ⟨e, read, rfl, rfl⟩
    exact bind_run.2 ⟨_, s', lift_run.2 ⟨map_eq_ok.2 ⟨e, read, rfl⟩, rfl⟩,
      bind_run.2 ⟨(), s', lift_run.2 ⟨rfl, rfl⟩, pure_run.2 ⟨rfl, rfl⟩⟩⟩

end References

/-! ## Outlining -/

/-- The second computation gives the same as the first. The first adds what the second adds and what
the entry comes to, wherever the entry stands. -/
structure Outlines {α : Type} (held : List String) (e : String × Json) (x y : LoadM α) : Prop where
  forward : ∀ {s : State} {a : α} {c : Contribution}, Yields held x a c → s.Admits c →
    ∃ type d c', Yields [e.1] (specifiedType (.ofType e.1) e.1 e.2) type d ∧ Yields held y a c' ∧
      c.Same (d ++ ofType e.1 type ++ c')
  backward : ∀ {s : State} {a : α} {type : TypeDef} {d c' : Contribution},
    Yields [e.1] (specifiedType (.ofType e.1) e.1 e.2) type d → Yields held y a c' →
    s.Admits (d ++ ofType e.1 type ++ c') →
    ∃ c, Yields held x a c ∧ c.Same (d ++ ofType e.1 type ++ c')

section Outlining

variable {α β : Type} {held : List String} {e : String × Json} {l : Location}
  {derived name companion : String} {part part' : Json}

/-- What outlines a part outlines the whole. -/
theorem Around.outlines {inner : Json → LoadM α} {outer : Json → LoadM β}
    (h : Around held inner outer) (uniform : ∀ part, Uniform [] (inner part) (inner part))
    (given : part.isNull = false) (given' : part'.isNull = false)
    (inside : Outlines [] e (inner part) (inner part')) :
    Outlines held e (outer part) (outer part') := by
  constructor
  · intro s b c yields admits
    obtain ⟨c₁, a, c₂, c₃, rfl, admits₂, here, again⟩ :=
      h.of_yields (uniform part) given yields admits
    obtain ⟨type, d, c₂', entry, here', same⟩ := inside.forward here admits₂
    exact ⟨type, d, _, entry, again part' c₂' given' here', same.around c₁ c₃⟩
  · intro s b type d c' entry yields admits
    obtain ⟨c₁, a, c₂, c₃, rfl, -, here, again⟩ :=
      h.of_yields (uniform part') given' yields (admits_append.1 admits).2
    -- what surrounds the part is admitted after the part and the entry
    have admits' : s.Admits ((d ++ ofType e.1 type ++ c₂) ++ (c₁ ++ c₃)) := by
      rw [Contribution.append_assoc]
      exact ((Contribution.Same.refl _).append (same_left_comm ..)).admits admits
    obtain ⟨c₂', here', same⟩ := inside.backward entry here (admits_append.1 admits').1
    exact ⟨_, again part c₂' given here', same.around c₁ c₃⟩

/-- A list or a mapping in place of a type is outlined by its name. -/
theorem reference_outlines (named : companionName? derived part = some companion) :
    Outlines [] (companion, part) (reference l derived part)
      (reference l derived (.str companion)) := by
  constructor
  · intro s a c yields admits
    obtain ⟨rfl, type, d, rfl, inside⟩ := yields.of_reference named admits
    obtain ⟨d', like, entry⟩ := inside.elsewhere specifiedType_uniform (admits_append.1 admits).1
    refine ⟨type, d', {}, entry, reference_str_yields, ?_⟩
    rw [append_empty]
    exact like.same.append (.refl _)
  · intro s a type d c' entry yields admits
    obtain ⟨first, last⟩ := admits_append.1 admits
    obtain ⟨rfl, rfl⟩ := yields.unique reference_str_yields last Uniform.admits_empty
    obtain ⟨d', like, inside⟩ := entry.elsewhere specifiedType_uniform (admits_append.1 first).1
    refine ⟨_, inside.reference named, ?_⟩
    rw [append_empty]
    exact like.same.symm.append (.refl _)

/-- What outlines a specification outlines it as a companion. -/
theorem Outlines.reference (named : companionName? derived part = some companion)
    (named' : companionName? derived part' = some companion)
    (inside : Outlines [companion] e (specifiedType l companion part)
      (specifiedType l companion part')) :
    Outlines [] e (reference l derived part) (reference l derived part') := by
  constructor
  · intro s a c yields admits
    obtain ⟨rfl, type, d, rfl, specified⟩ := yields.of_reference named admits
    obtain ⟨typeₑ, dₑ, d', entry, specified', same⟩ :=
      inside.forward specified (admits_append.1 admits).1
    refine ⟨typeₑ, dₑ, _, entry, specified'.reference named', ?_⟩
    rw [← Contribution.append_assoc]
    exact same.append (.refl _)
  · intro s a typeₑ dₑ c' entry yields admits
    obtain ⟨rfl, type, d', rfl, specified'⟩ := yields.of_reference named' (admits_append.1 admits).2
    rw [← Contribution.append_assoc] at admits
    obtain ⟨d, specified, same⟩ := inside.backward entry specified' (admits_append.1 admits).1
    refine ⟨_, specified.reference named, ?_⟩
    rw [← Contribution.append_assoc]
    exact same.append (.refl _)

/-- A list of aliases in place of an enumeration is outlined by its name. -/
theorem enumReference_outlines {aliases : List Json} :
    Outlines [] (aliasEntry name aliases) (enumReference l name (.arr aliases))
      (enumReference l name (.str (name ++ "Enum"))) := by
  constructor
  · intro s a c yields admits
    obtain ⟨e, read, rfl, admits', same⟩ := enumReference_arr_run.1 (yields.run s admits)
    cases eq_of_add_eq admits admits' same
    refine ⟨.enum e, {}, _, ⟨.empty, fun t _ => ?_⟩, enumReference_str_yields, same_request ..⟩
    exact aliasEntry_run.2 ⟨e, eq_ok_of_toOption (enumeration_anywhere ..) read, rfl, add_empty⟩
  · intro s a type d c' entry yields admits
    obtain ⟨first, last⟩ := admits_append.1 admits
    obtain ⟨e, read, rfl, same⟩ :=
      aliasEntry_run.1 (entry.run s (admits_append.1 first).1)
    cases eq_of_add_eq (admits_append.1 first).1 Uniform.admits_empty (same.trans add_empty.symm)
    obtain ⟨rfl, rfl⟩ := yields.unique enumReference_str_yields last (admits_of_nil rfl)
    refine ⟨ofType (name ++ "Enum") (.enum e), ⟨?_, fun t admits' => ?_⟩, same_request ..⟩
    · exact ⟨List.nil_sublist _, List.nil_sublist _⟩
    · exact enumReference_arr_run.2
        ⟨e, eq_ok_of_toOption (enumeration_anywhere ..) read, rfl, admits', rfl⟩

end Outlining

/-! ## Specifications -/

/-- The second specification names what the first one has in place somewhere, and the entry is what
stands there. -/
inductive Inlined : String → Json → Json → String × Json → Prop
  /-- A list or a mapping in place of the name of a type. -/
  | type {name derived companion : String} {whole : Json → Json} {part : Json} :
    Place name derived whole → companionName? derived part = some companion →
    Inlined name (whole part) (whole (.str companion)) (companion, part)
  /-- A list of aliases in place of the name of an enumeration. -/
  | enum {name : String} {whole : Json → Json} {aliases : List Json} :
    EnumPlace whole →
    Inlined name (whole (.arr aliases)) (whole (.str (name ++ "Enum"))) (aliasEntry name aliases)
  /-- Something in place inside of what is in place. -/
  | inside {name derived companion : String} {whole : Json → Json} {part part' : Json}
    {e : String × Json} :
    Place name derived whole → companionName? derived part = some companion →
    Inlined companion part part' e → Inlined name (whole part) (whole part') e

section Specifications

variable {name : String} {spec spec' : Json} {e : String × Json}

theorem Inlined.companionName?_eq (h : Inlined name spec spec' e) (owner : String) :
    companionName? owner spec = companionName? owner spec' := by
  cases h with
  | type place => exact place.companionName?_eq ..
  | enum place => exact place.companionName?_eq ..
  | inside place => exact place.companionName?_eq ..

/-- By induction on how deep the part is nested. -/
theorem Inlined.outlines (h : Inlined name spec spec' e) (l : Location) :
    Outlines [name] e (specifiedType l name spec) (specifiedType l name spec') := by
  induction h generalizing l with
  | type place named =>
    obtain ⟨l', around⟩ := place.around (l := l)
    exact around.outlines (fun part => (adds part).reference ..) (isNull_of_companionName? named)
      rfl (reference_outlines named)
  | enum place =>
    obtain ⟨l', around⟩ := place.around (l := l)
    exact around.outlines (fun part => enumReference_uniform) rfl rfl enumReference_outlines
  | inside place named inner ih =>
    obtain ⟨l', around⟩ := place.around (l := l)
    have named' := (inner.companionName?_eq _).symm.trans named
    exact around.outlines (fun part => (adds part).reference ..) (isNull_of_companionName? named)
      (isNull_of_companionName? named') ((ih l').reference named named')

end Specifications

/-! ## The types of a document -/

section Types

variable {before after types : List (String × Json)} {name : String} {spec spec' : Json}
  {e : String × Json}

theorem total_middle (is₁ is₂ : List Interpreted) (i : Interpreted) :
    (total (is₁ ++ i :: is₂)).Same (i.whole ++ total (is₁ ++ is₂)) :=
  total_perm List.perm_middle

/-- Some state admits what is free. -/
theorem admits_of_free {c : Contribution} (free : Registry.fresh.Free c.types) :
    State.Admits { registry := .fresh, declared := [] } c :=
  ⟨free, fun _ _ => List.not_mem_nil⟩

theorem forall₂_middle {α β : Type} {R : α → β → Prop} {first last : List α} {x : α} {ys : List β}
    (h : List.Forall₂ R (first ++ x :: last) ys) :
    ∃ ys₁ y ys₂, ys = ys₁ ++ y :: ys₂ ∧ List.Forall₂ R first ys₁ ∧ R x y ∧
      List.Forall₂ R last ys₂ := by
  induction first generalizing ys with
  | nil =>
    obtain ⟨y, ys₂, here, after, rfl⟩ := List.forall₂_cons_left_iff.1 h
    exact ⟨[], y, ys₂, rfl, .nil, here, after⟩
  | cons x' rest ih =>
    obtain ⟨y', others, one, below, rfl⟩ := List.forall₂_cons_left_iff.1 h
    obtain ⟨ys₁, y, ys₂, rfl, before, here, after⟩ := ih below
    exact ⟨y' :: ys₁, y, ys₂, rfl, .cons one before, here, after⟩

/-- What an entry comes to may be outlined among others. -/
theorem total_outlined {is₁ is₂ : List Interpreted} {type typeₑ : TypeDef}
    {c c' d : Contribution} (same : c.Same (d ++ ofType e.1 typeₑ ++ c')) :
    (total (is₁ ++ ⟨name, c, type⟩ :: is₂)).Same
      (total (⟨e.1, d, typeₑ⟩ :: (is₁ ++ ⟨name, c', type⟩ :: is₂))) := by
  have outside : (Interpreted.whole ⟨name, c, type⟩ ++ total (is₁ ++ is₂)).Same
      (Interpreted.whole ⟨e.1, d, typeₑ⟩ ++
        (Interpreted.whole ⟨name, c', type⟩ ++ total (is₁ ++ is₂))) := by
    simp only [Interpreted.whole]
    rw [Contribution.append_assoc c, Contribution.append_assoc c', ← Contribution.append_assoc _ c']
    exact same.append (.refl _)
  exact ((total_middle ..).trans outside).trans
    ((Contribution.Same.refl _).append (total_middle ..).symm)

/-- The types of a document come to the same with the entry as with what is in place. -/
theorem restates_outlined (h : Inlined name spec spec' e) :
    Restates (before ++ (name, spec) :: after) (e :: (before ++ (name, spec') :: after)) := by
  intro is interprets free
  obtain ⟨is₁, ⟨n, c, type⟩, is₂, rfl, first, here, last⟩ := forall₂_middle interprets
  obtain rfl : n = name := here.name
  have free := (total_middle ..).free free
  have admits := admits_of_free (Registry.free_append.1 (Registry.free_append.1 free).1).1
  obtain ⟨typeₑ, d, c', entry, yields, same⟩ := (h.outlines _).forward here.yields admits
  refine ⟨⟨e.1, d, typeₑ⟩ :: (is₁ ++ ⟨n, c', type⟩ :: is₂), ?_, total_outlined same⟩
  exact .cons ⟨rfl, entry⟩ (List.rel_append first (.cons ⟨rfl, yields⟩ last))

/-- The types of a document come to the same with what is in place as with the entry. -/
theorem restates_inlined (h : Inlined name spec spec' e) :
    Restates (e :: (before ++ (name, spec') :: after)) (before ++ (name, spec) :: after) := by
  intro is interprets free
  obtain ⟨⟨nₑ, d, typeₑ⟩, others, entry, rest, rfl⟩ := List.forall₂_cons_left_iff.1 interprets
  obtain ⟨is₁, ⟨n, c', type⟩, is₂, rfl, first, here, last⟩ := forall₂_middle rest
  obtain rfl : n = name := here.name
  obtain rfl : nₑ = e.1 := entry.name
  have admits : State.Admits { registry := .fresh, declared := [] }
      (d ++ ofType e.1 typeₑ ++ c') := by
    have free := ((Contribution.Same.refl _).append (total_middle ..)).free free
    rw [Interpreted.whole, Contribution.append_assoc c', ← Contribution.append_assoc] at free
    exact admits_of_free (Registry.free_append.1 free).1
  obtain ⟨c, yields, same⟩ := (h.outlines _).backward entry.yields here.yields admits
  exact ⟨_, List.rel_append first (.cons ⟨rfl, yields⟩ last), (total_outlined same).symm⟩

/-- A type in place is shorthand for an entry of its own. The types of a document load with what is
in place when they load with its name there and the entry among them, at whatever position, and
all names are bound to the same types. -/
theorem loadTypes_inlined (before after : List (String × Json)) (h : Inlined name spec spec' e)
    (perm : types.Perm (e :: (before ++ (name, spec') :: after))) :
    ((∃ r, loadTypes (before ++ (name, spec) :: after) = .ok r) ↔ ∃ r', loadTypes types = .ok r') ∧
      ∀ r r', loadTypes (before ++ (name, spec) :: after) = .ok r → loadTypes types = .ok r' →
        ∀ n, r'.entry? n = r.entry? n := by
  have outlined {r : Registry} (ok : loadTypes (before ++ (name, spec) :: after) = .ok r) :
      ∃ r', loadTypes types = .ok r' ∧ ∀ n, r'.entry? n = r.entry? n := by
    obtain ⟨r₁, ok₁, same₁⟩ := loadTypes_of_restates (restates_outlined h) ok
    obtain ⟨r', ok', same'⟩ := loadTypes_of_perm perm.symm ok₁
    exact ⟨r', ok', fun n => (same' n).trans (same₁ n)⟩
  refine ⟨⟨?_, ?_⟩, fun r r' ok ok' => ?_⟩
  · rintro ⟨r, ok⟩
    obtain ⟨r', ok', -⟩ := outlined ok
    exact ⟨r', ok'⟩
  · rintro ⟨r', ok'⟩
    obtain ⟨r₁, ok₁, -⟩ := loadTypes_of_perm perm ok'
    obtain ⟨r, ok, -⟩ := loadTypes_of_restates (restates_inlined h) ok₁
    exact ⟨r, ok⟩
  · obtain ⟨r'', ok'', same⟩ := outlined ok
    cases ok'.symm.trans ok''
    exact same

end Types

/-- A list of at most three elements of a type. -/
def shelfSpec (element : Json) : Json :=
  .obj [("type", .str "List"), ("allowed", element), ("maxlen", .int 3)]

/-- The type of the elements may be specified in place. -/
theorem shelfSpec_inlined : Inlined "shelf" (shelfSpec (.arr [.null, .str "Bool"]))
    (shelfSpec (.str "shelfOneOf")) ("shelfOneOf", .arr [.null, .str "Bool"]) := by
  let h : Hole "List" "allowed" :=
    ⟨[("type", .str "List")], [("maxlen", .int 3)], by decide, rfl, by decide⟩
  have inlined : Inlined "shelf" (.obj (h.fill (.arr [.null, .str "Bool"])))
      (.obj (h.fill (.str "shelfOneOf"))) ("shelfOneOf", .arr [.null, .str "Bool"]) :=
    .type (.allowed h) rfl
  exact inlined

/-- The union of the elements in place, and as an entry before its use. -/
theorem shelfTypes_outlined :
    ∃ r r', loadTypes [("shelf", shelfSpec (.arr [.null, .str "Bool"]))] = .ok r ∧
      loadTypes [("shelfOneOf", .arr [.null, .str "Bool"]),
        ("shelf", shelfSpec (.str "shelfOneOf"))] = .ok r' ∧
      (∀ n, r'.entry? n = r.entry? n) ∧
      (r.get? "shelfOneOf").map TypeDef.kind = some "Union" := by
  have run : (fun r : Registry => (r.get? "shelfOneOf").map TypeDef.kind) <$>
      loadTypes [("shelfOneOf", .arr [.null, .str "Bool"]),
        ("shelf", shelfSpec (.str "shelfOneOf"))] = .ok (some "Union") := by cbv
  obtain ⟨r', loads', found⟩ := map_eq_ok.1 run
  obtain ⟨both, same⟩ := loadTypes_inlined [] [] shelfSpec_inlined (.refl _)
  obtain ⟨r, loads⟩ := both.2 ⟨r', loads'⟩
  have entries := same r r' loads loads'
  refine ⟨r, r', loads, loads', entries, ?_⟩
  rw [← Registry.get?_congr entries, found]

/-! ## Every specification as the last entry -/

section Last

variable {types before : List (String × Json)} {name : String} {spec : Json} {r : Registry}

/-- The types of a document have that specification under that name, as an entry or in place of a
name. -/
inductive Specifies (types : List (String × Json)) : String → Json → Prop
  | entry {name : String} {spec : Json} : (name, spec) ∈ types → Specifies types name spec
  | inPlace {name derived companion : String} {whole : Json → Json} {part : Json} :
    Specifies types name (whole part) → Place name derived whole →
    companionName? derived part = some companion → Specifies types companion part

/-- By induction on how deep the specification is nested. -/
theorem Specifies.last (h : Specifies types name spec) (loads : loadTypes types = .ok r) :
    ∃ before r', loadTypes (before ++ [(name, spec)]) = .ok r' ∧
      ∀ n, r'.entry? n = r.entry? n := by
  induction h with
  | @entry name spec mem =>
    obtain ⟨before, after, rfl⟩ := List.append_of_mem mem
    have perm : (before ++ (name, spec) :: after).Perm (before ++ after ++ [(name, spec)]) := by
      rw [List.append_assoc]
      exact (List.perm_append_singleton ..).symm.append_left _
    obtain ⟨r', loads', same⟩ := loadTypes_of_perm perm loads
    exact ⟨_, r', loads', same⟩
  | inPlace _ place named ih =>
    obtain ⟨before, r₁, loads₁, same₁⟩ := ih
    obtain ⟨r₂, loads₂, same₂⟩ :=
      loadTypes_of_restates (restates_outlined (.type place named)) loads₁
    obtain ⟨r', loads', same'⟩ :=
      loadTypes_of_perm (List.perm_append_singleton ..).symm loads₂
    exact ⟨_, r', loads', fun n => (same' n).trans ((same₂ n).trans (same₁ n))⟩

/-- The last entry is interpreted on a sound state and registered, and then loading is completed. -/
theorem loadTypes_last (loads : loadTypes (before ++ [(name, spec)]) = .ok r) :
    ∃ s type s₁ s₂, s.Sound none ∧ specifiedType (.ofType name) name spec s = .ok (type, s₁) ∧
      define name type s₁ = .ok ((), s₂) ∧ s₂.Sound none ∧ (s₂.imaps.map Prod.fst).Nodup ∧
      complete s₂ = .ok r := by
  obtain ⟨declared, names, loaded⟩ := bind_eq_ok.1 loads
  obtain ⟨⟨_, s₂⟩, run, completed⟩ := bind_eq_ok.1 loaded
  obtain ⟨rfl, -, -⟩ := of_declareNames names List.nodup_nil
  rw [List.nil_append] at run
  obtain ⟨-, imaps, -⟩ := loadAll_of_restates (restates_of_perm (.refl _)) run
  have sound₂ := loadAll_sound (initial_sound _) run
  rw [List.forM_eq_forM, List.forM_append] at run
  obtain ⟨_, s, first, last⟩ := bind_run.1 run
  have sound := loadAll_sound (initial_sound _) first
  obtain ⟨_, s₂', one, rest⟩ := bind_run.1 last
  obtain ⟨-, rfl⟩ := pure_run.1 rest
  obtain ⟨type, s₁, specified, defined⟩ := bind_run.1 one
  exact ⟨s, type, s₁, _, sound, specified, defined, sound₂, imaps, completed⟩

end Last

end Loading

end DeviceTree
