import DeviceTree.Proofs.AliasChains
import DeviceTree.Proofs.LoadedTrees
import DeviceTree.Proofs.ReaderErrors

/-!
# Where load errors point

Errors of loading point into the document: to the document as a whole, or into one of its sections
at a key that stands there. Readers and what they leave for later report under the entry that they
read (`loadTypes_error`), names used as enumerations lead along aliases, which only the document
declares (`enumeration_failsAt`), and nodes are reported under their own names.

The checks of the whole registry are the exception. They tell the name of the type they are about,
and a companion type has a name derived from its owner's that the document does not have.
`ofDocument_covered_iff` says that this is the only way for an error to point nowhere.
-/

namespace DeviceTree

open Location (Below)

/-- The location is in the types section, at one of the keys or below it. -/
def Location.UnderTypes (keys : List String) (l : Location) : Prop :=
  ∃ key ∈ keys, (Location.ofType key).Below l

theorem Location.UnderTypes.below {keys : List String} {l l' : Location} (h : l.UnderTypes keys)
    (below : l.Below l') : l'.UnderTypes keys := by
  obtain ⟨key, mem, under⟩ := h
  exact ⟨key, mem, under.trans below⟩

namespace Registry

variable {r : Registry} {name : String}

/-! ## Names along aliases -/

/-- Aliases that are custom have one of the names, and the other ones are those of the fresh
registry. -/
structure NamesAliases (r : Registry) (keys : List String) : Prop where
  core : r.HasCore
  custom : ∀ name target, r.entry? name = some ⟨.alias target, .custom⟩ → name ∈ keys

/-- The predefined alias leads to a type that is none. -/
theorem fresh_alias {target : String} {e : Entry} (found : Registry.fresh.entry? name = some e)
    (named : e.type = .alias target) :
    ∃ e', Registry.fresh.entry? target = some e' ∧ ∀ t, e'.type ≠ .alias t := by
  have only : ∀ p ∈ Registry.fresh.entries.entries,
      p.1 = getParam ∨ p.2.type.kind ≠ "Alias" := by decide
  rcases only _ (OrderedMap.get?_eq_some.1 found) with param | other
  · have param : name = getParam := param
    subst param
    have entry : Registry.fresh.entry? getParam = some ⟨.alias "OptionalString", .builtin⟩ := rfl
    cases entry.symm.trans found
    cases named
    exact ⟨⟨.union ["Null", "String"], .builtin⟩, rfl, nofun⟩
  · rw [named] at other
    exact absurd rfl other

/-- An alias is custom if what it leads to is another alias or missing. -/
theorem custom_of_aliasOf (core : r.HasCore) {target : String} (step : r.AliasOf name target)
    (on : ∀ type, r.get? target = some type → ∃ next, type = .alias next) :
    r.entry? name = some ⟨.alias target, .custom⟩ := by
  obtain ⟨⟨type, origin⟩, entry, named⟩ := Option.map_eq_some_iff.1 step
  have named : type = .alias target := named
  subst named
  by_cases custom : origin = .custom
  · rwa [custom] at entry
  · have fresh := (core name _ custom).1 entry
    obtain ⟨e, found, plain⟩ := fresh_alias fresh rfl
    have entry' : r.entry? target = some e := (core target e (fresh_origin found)).2 found
    obtain ⟨next, same⟩ := on e.type (get?_of_bound entry')
    exact absurd same (plain next)

/-- An error on the way along aliases is told of a custom one. -/
theorem resolve_error (core : r.HasCore) (registered : r.contains name = true) {e : LoadError}
    (failed : r.resolve name = .error e) :
    ∃ n target, r.entry? n = some ⟨.alias target, .custom⟩ ∧ e.location = .ofType n := by
  have ends := r.resolve_ends name
  rw [failed] at ends
  cases ends with
  | @lost missing owner leaves named =>
    have on : ∀ type, r.get? missing = some type → ∃ next, type = .alias next := by
      intro type found
      rw [leaves.2] at found
      contradiction
    rcases named with ⟨-, rfl⟩ | ⟨-, step⟩
    · obtain ⟨type, found⟩ := contains_iff.1 registered
      rw [leaves.2] at found
      contradiction
    · exact ⟨owner, missing, custom_of_aliasOf core step on, rfl⟩
  | circle circles =>
    obtain ⟨next, step⟩ := circles.alias_of_leads .refl
    obtain ⟨after, step'⟩ := circles.alias_of_leads (.single step)
    have on : ∀ type, r.get? next = some type → ∃ next, type = .alias next := by
      intro type found
      exact ⟨after, Option.some.inj (found.symm.trans step')⟩
    exact ⟨name, next, custom_of_aliasOf core step on, rfl⟩

/-- An enumeration that is asked for is missing where it is asked for, or on the way along aliases
that have one of the names. -/
theorem enumeration_failsAt {keys : List String} (aliases : r.NamesAliases keys) (l : Location)
    (name : String) : FailsAt (r.enumeration l name) fun l' => l' = l ∨ l'.UnderTypes keys := by
  unfold enumeration
  refine .ite (fun registered => ?_) fun _ => .error (.inl rfl)
  split
  · next e failed =>
    refine .error (.inr ?_)
    obtain ⟨n, target, found, location⟩ := resolve_error aliases.core registered failed
    exact ⟨n, aliases.custom n target found, location ▸ .refl _⟩
  · exact .ok
  · exact .error (.inl rfl)

theorem NamesAliases.of_rewrites {P : TypeDef → TypeDef → Prop} {r' : Registry} {keys : List String}
    (h : r.NamesAliases keys) (rewrites : r.Rewrites P r')
    (plain : ∀ {old new : TypeDef}, P old new →
      ∀ target, old ≠ .alias target ∧ new ≠ .alias target) :
    r'.NamesAliases keys where
  core name e core := (rewrites.entry_core core).trans (h.core name e core)
  custom name target found := by
    obtain ⟨old, found₀, rfl | fits⟩ := rewrites.entry_custom found
    · exact h.custom name target found₀
    · exact absurd rfl (plain fits target).2

/-! ## Checks of the whole registry -/

/-- The type of the name is at fault: it refers to a name that is not registered, or to itself by a
chain of references. -/
inductive Faults (r : Registry) (name : String) : LoadError.Cause → Prop
  | unknown {missing : String} : r.Refers name missing → r.contains missing = false →
    r.Faults name (.unknownType missing)
  | cyclic {chain : List String} : Relation.TransGen r.Refers name name →
    r.Faults name (.cyclicType name chain)

/-- A reference that is missing is told of the custom type that has it. -/
theorem checkReferences_error {e : LoadError} (failed : r.checkReferences = .error e) :
    ∃ name type, r.entry? name = some ⟨type, .custom⟩ ∧ r.Faults name e.cause ∧
      e.location = .ofType name := by
  obtain ⟨⟨name, type⟩, mem, failed⟩ := exists_of_forM_eq_error failed
  have entry := mem_customTypes.1 mem
  dsimp only at failed
  split at failed
  · next missing absent =>
    cases failed
    have found : r.get? name = some type := get?_of_bound entry
    refine ⟨name, type, entry, .unknown ⟨type, found, List.mem_of_find?_eq_some absent⟩ ?_, rfl⟩
    simpa using List.find?_some absent
  · contradiction

/-- A cycle is told of a custom type on it. -/
theorem checkCycles_error (core : r.HasCore) {e : LoadError} (failed : r.checkCycles = .error e) :
    ∃ name type, r.entry? name = some ⟨type, .custom⟩ ∧ r.Faults name e.cause ∧
      e.location = .ofType name := by
  obtain ⟨name, inner, rfl, cycle, custom⟩ := exists_cycle_of_checkCycles core failed
  obtain ⟨type, entry⟩ := custom name (List.mem_cons_self ..)
  exact ⟨name, type, entry, .cyclic (cycle.reaches_self name (List.mem_cons_self ..)), rfl⟩

end Registry

namespace Loading

/-! ## Interpreting all types -/

section Types

variable {keys : List String} {s s' : State} {name : String}

/-- What is noted stands under the keys, and custom aliases have names among them. -/
structure State.Noted (keys : List String) (s : State) : Prop where
  aliases : ∀ name target, s.registry.entry? name = some ⟨.alias target, .custom⟩ → name ∈ keys
  enumRefs : ∀ ref ∈ s.enumRefs, ref.1.UnderTypes keys
  bitfields : ∀ p ∈ s.bitfields, p.2.location.UnderTypes keys
  imaps : ∀ p ∈ s.imaps, p.2.location.UnderTypes keys

theorem State.Noted.grow (h : s.Noted keys) (mem : name ∈ keys)
    (grown : s.Grows (.ofType name) s') : s'.Noted keys where
  aliases n target found := h.aliases n target (grown.aliases n target found)
  enumRefs ref new := (grown.enumRefs ref new).elim (h.enumRefs ref) fun below => ⟨name, mem, below⟩
  bitfields p new := (grown.bitfields p new).elim (h.bitfields p) fun below => ⟨name, mem, below⟩
  imaps p new := (grown.imaps p new).elim (h.imaps p) fun below => ⟨name, mem, below⟩

theorem define_below {type : TypeDef} :
    FailsAt (define name type s) (Location.ofType name).Below := by
  have taken : FailsAt (s.registry.define name type) (Location.ofType name).Below :=
    .ite (fun _ => .error (.refl _)) fun _ => .ok
  exact .bind (.bind taken fun _ _ => .ok) fun _ _ => .ok

/-- One type of a document is reported under its name. -/
theorem loadType_noted (spec : Json) (mem : name ∈ keys) (h : s.Noted keys) :
    FailsAt (loadType name spec s) (·.UnderTypes keys) ∧
      ∀ s', loadType name spec s = .ok ((), s') → s'.Noted keys := by
  have located := specifiedType_located (.ofType name) name spec
  refine ⟨?_, fun s' run => ?_⟩
  · refine FailsAt.mono (P := (Location.ofType name).Below) ?_ fun _ below => ⟨name, mem, below⟩
    exact .bind (located.fails s) fun _ _ => define_below
  · obtain ⟨type, s₁, specified, defined⟩ := bind_run.1 run
    have noted := h.grow mem (located.grows specified)
    obtain ⟨r, registered, rfl⟩ := define_run.1 defined
    obtain ⟨-, entry⟩ := Registry.define_eq_ok registered
    refine ⟨fun n target found => ?_, noted.enumRefs, noted.bitfields, noted.imaps⟩
    have found : r.entry? n = some ⟨.alias target, .custom⟩ := found
    rw [entry] at found
    split at found
    · next same => exact same ▸ mem
    · exact noted.aliases n target found

theorem loadAll_noted {types : List (String × Json)} (names : ∀ p ∈ types, p.1 ∈ keys)
    (h : s.Noted keys) :
    FailsAt ((types.forM fun (name, spec) => loadType name spec) s) (·.UnderTypes keys) ∧
      ∀ s', (types.forM fun (name, spec) => loadType name spec) s = .ok ((), s') →
        s'.Noted keys := by
  induction types generalizing s with
  | nil =>
    refine ⟨.ok, fun s' run => ?_⟩
    obtain ⟨-, rfl⟩ := pure_run.1 run
    exact h
  | cons entry rest ih =>
    rw [List.forall_mem_cons] at names
    obtain ⟨fails, keeps⟩ := loadType_noted entry.2 names.1 h
    refine ⟨.bind fails fun p run => (ih names.2 (keeps p.2 run)).1, fun s' run => ?_⟩
    obtain ⟨_, s₁, one, others⟩ := bind_run.1 run
    exact (ih names.2 (keeps s₁ one)).2 s' others

end Types

/-! ## What is left for later -/

section Completion

variable {keys : List String} {r r₀ : Registry} {l : Location}

theorem enumeration_underTypes (aliases : r.NamesAliases keys) (under : l.UnderTypes keys)
    (name : String) : FailsAt (r.enumeration l name) (·.UnderTypes keys) := by
  refine (Registry.enumeration_failsAt aliases l name).mono ?_
  rintro l' (rfl | under')
  · exact under
  · exact under'

theorem placeNamed_below {e : Enumeration} {acc : SortedMap String}
    {named : List (String × String)} : FailsAt (placeNamed l e acc named) l.Below := by
  induction named generalizing acc with
  | nil => exact .ok
  | cons field rest ih =>
    rw [placeNamed]
    split
    · exact .error (l.below_join _)
    · exact .bind (placeFields_below l) fun _ _ => ih

theorem completeImap_failsAt (aliases : r.NamesAliases keys) {p : PendingFields} {name : String}
    (under : p.location.UnderTypes keys) :
    FailsAt (completeImap r name p) (·.UnderTypes keys) := by
  unfold completeImap
  split
  · exact .error under
  · refine .bind (enumeration_underTypes aliases under _) fun e _ => ?_
    split
    · exact .bind (placeNamed_below.mono fun _ => under.below) fun _ _ => .ok
    · exact .ok

theorem fieldWidth_below {typeName : String} : FailsAt (fieldWidth r l typeName) l.Below := by
  unfold fieldWidth
  split
  · exact .ok
  · exact .error (.refl l)

theorem placeSlots_below {position : Int} {slots : List BitSlot} :
    FailsAt (placeSlots r l position slots) l.Below := by
  induction slots generalizing position with
  | nil => exact .ok
  | cons slot rest ih =>
    cases slot with
    | skip => exact ih
    | next | «at» => exact .bind fieldWidth_below fun _ _ => .bind ih fun _ _ => .ok

theorem checkPlaces_below {start : Int} {placed : List PlacedField} :
    FailsAt (checkPlaces l start placed) l.Below := by
  induction placed generalizing start with
  | nil => exact .ok
  | cons f rest ih =>
    exact .ite (fun _ => .error (.refl l)) fun _ =>
      .ite (fun _ => .error (.refl l)) fun _ => .bind ih fun _ _ => .ok

theorem fieldLayout_failsAt (aliases : r.NamesAliases keys) {p : PendingBitfield}
    (under : p.location.UnderTypes keys) : FailsAt (fieldLayout r p) (·.UnderTypes keys) := by
  have inside (k : String) : (p.location.join k).UnderTypes keys :=
    under.below (p.location.below_join k)
  refine .bind ?_ fun _ _ => checkPlaces_below.mono fun _ => (inside "types").below
  unfold placedFields
  split
  · exact placeSlots_below.mono fun _ => (inside "types").below
  · exact .map (enumeration_underTypes aliases (inside "enum") _)
  · exact .ok

/-- Where the layouts of bitfields stand: the registry has other layouts, and those that wait are
among those noted. -/
structure Unfinished.Onward (r₀ : Registry) (pending : List (String × PendingBitfield))
    (u : Unfinished) : Prop where
  rewrites : r₀.Rewrites LaysOut u.registry
  rest : ∀ p ∈ u.pending, p ∈ pending

variable {pending : List (String × PendingBitfield)} (aliases : r₀.NamesAliases keys)
  (registered : ∀ name p, (name, p) ∈ pending →
    r₀.entry? name = some ⟨.bitfield p.placeholder, .custom⟩)
  (under : ∀ p ∈ pending, p.2.location.UnderTypes keys)

include aliases registered under

theorem layoutBitfield_failsAt {depth : Nat} {u : Unfinished} (h : u.Onward r₀ pending)
    (name : String) : FailsAt (layoutBitfield depth u name) (·.UnderTypes keys) ∧
      ∀ u', layoutBitfield depth u name = .ok u' → u'.Onward r₀ pending := by
  induction depth generalizing u name with
  | zero =>
    refine ⟨.ok, ?_⟩
    rintro _ ⟨⟩
    exact h
  | succ depth ih =>
    rw [layoutBitfield]
    cases found : u.pending.lookup name with
    | none =>
      refine ⟨.ok, ?_⟩
      rintro _ ⟨⟩
      exact h
    | some p =>
      have mem : (name, p) ∈ pending := by
        obtain ⟨l₁, l₂, same, -⟩ := List.lookup_eq_some_iff.1 found
        exact h.rest _ (same ▸ List.mem_append_right _ (List.mem_cons_self ..))
      have begun : Unfinished.Onward r₀ pending
          { u with pending := u.pending.filter (·.1 != name) } :=
        ⟨h.rewrites, fun q mem => h.rest q (List.mem_of_mem_filter mem)⟩
      constructor
      · refine .bind (.foldlM (fun n _ u h => ih h n) begun) fun u₁ before => ?_
        have h₁ := foldlM_keeps (fun u n u' _ h => (ih h n).2 u') begun before
        have aliases₁ := aliases.of_rewrites h₁.rewrites LaysOut.plain
        exact .bind (fieldLayout_failsAt aliases₁ (under _ mem)) fun _ _ => .ok
      · intro u' ok
        obtain ⟨u₁, before, ok⟩ := bind_eq_ok.1 ok
        obtain ⟨fields, placed, ok⟩ := bind_eq_ok.1 ok
        cases ok
        have h₁ := foldlM_keeps (fun u n u' _ h => (ih h n).2 u') begun before
        have laysOut := laysOut_of_fieldLayout placed
        exact ⟨h₁.rewrites.redefine (registered name p mem) laysOut, h₁.rest⟩

theorem layoutBitfields_failsAt : FailsAt (layoutBitfields r₀ pending) (·.UnderTypes keys) := by
  have start : Unfinished.Onward r₀ pending ⟨r₀, pending⟩ := ⟨.refl _ _, fun _ mem => mem⟩
  exact .bind (.foldlM (fun n _ u h => layoutBitfield_failsAt aliases registered under h n) start)
    fun _ _ => .ok

end Completion

/-! ## All types of a document -/

/-- The registry has all types of a document, and the fields of integer maps are in place. -/
def Assembles (types : List (String × Json)) (r : Registry) : Prop :=
  ∃ declared s, declareNames .fresh [] (types.map Prod.fst) = .ok declared ∧
    (types.forM fun (name, spec) => loadType name spec).run { registry := .fresh, declared } =
      .ok ((), s) ∧
    s.imaps.foldlM (fun r (name, p) => completeImap r name p) s.registry = .ok r

theorem declareNames_failsAt {r : Registry} {declared names keys : List String}
    (inside : ∀ name ∈ names, name ∈ keys) :
    FailsAt (declareNames r declared names) (·.UnderTypes keys) := by
  induction names generalizing declared with
  | nil => exact .ok
  | cons name rest ih =>
    rw [List.forall_mem_cons] at inside
    exact .ite (fun _ => .error ⟨name, inside.1, .refl _⟩) fun _ => ih inside.2

/-- What is left for later is reported where it is noted, or a custom type is at fault. -/
theorem complete_error {keys : List String} {s : State} (sound : s.Sound none)
    (noted : s.Noted keys) {e : LoadError} (failed : complete s = .error e) :
    e.location.UnderTypes keys ∨ ∃ r name type,
      s.imaps.foldlM (fun r (name, p) => completeImap r name p) s.registry = .ok r ∧
        r.entry? name = some ⟨type, .custom⟩ ∧ r.Faults name e.cause ∧
        e.location = .ofType name := by
  have aliases : s.registry.NamesAliases keys := ⟨sound.core, noted.aliases⟩
  rcases bind_eq_error.1 failed with failed | ⟨_, -, failed⟩
  · left
    refine FailsAt.forM (fun ref mem => ?_) e failed
    exact .map (enumeration_underTypes aliases (noted.enumRefs ref mem) ref.2)
  rcases bind_eq_error.1 failed with failed | ⟨r, completed, failed⟩
  · left
    refine FailsAt.foldlM (fun p mem r (h : s.registry.Rewrites Completes r) => ?_) (.refl _ _) e
      failed
    obtain ⟨shape, found | none⟩ := sound.imaps p.1 p.2 mem
    · have aliases := aliases.of_rewrites h Completes.plain
      exact ⟨completeImap_failsAt aliases (noted.imaps p mem),
        fun r' ok => completeImap_rewrites found h ok⟩
    · contradiction
  have completes := completeImaps_rewrites sound completed
  have core := core_of_completes sound completes
  rcases bind_eq_error.1 failed with failed | ⟨_, -, failed⟩
  · obtain ⟨name, type, entry, fault, location⟩ := Registry.checkReferences_error failed
    exact .inr ⟨r, name, type, completed, entry, fault, location⟩
  rcases bind_eq_error.1 failed with failed | ⟨_, -, failed⟩
  · obtain ⟨name, type, entry, fault, location⟩ := Registry.checkCycles_error core failed
    exact .inr ⟨r, name, type, completed, entry, fault, location⟩
  · have aliases := aliases.of_rewrites completes Completes.plain
    exact .inl (layoutBitfields_failsAt aliases
      (fun _ _ => bitfield_of_completes sound completes) noted.bitfields e failed)

/-- Types are reported under their names in the document, or a custom type is at fault. -/
theorem loadTypes_error {types : List (String × Json)} {e : LoadError}
    (failed : loadTypes types = .error e) :
    e.location.UnderTypes (types.map Prod.fst) ∨ ∃ r name type, Assembles types r ∧
      r.entry? name = some ⟨type, .custom⟩ ∧ r.Faults name e.cause ∧
      e.location = .ofType name := by
  rcases bind_eq_error.1 failed with failed | ⟨declared, declares, failed⟩
  · exact .inl (declareNames_failsAt (fun _ mem => mem) e failed)
  have start : State.Noted (types.map Prod.fst) { registry := .fresh, declared } :=
    ⟨fun _ _ found => absurd rfl (Registry.fresh_origin found), nofun, nofun, nofun⟩
  obtain ⟨fails, keeps⟩ := loadAll_noted
    (fun p (mem : p ∈ types) => List.mem_map_of_mem mem) start
  rcases bind_eq_error.1 failed with failed | ⟨⟨_, s⟩, run, failed⟩
  · exact .inl (fails e failed)
  rcases complete_error (loadAll_sound (initial_sound declared) run) (keeps s run) failed with
    under | ⟨r, name, type, completed, fault⟩
  · exact .inl under
  · exact .inr ⟨r, name, type, ⟨declared, s, declares, run, completed⟩, fault⟩

/-! ## Nodes -/

section Nodes

variable (r : Registry) (l : Location)

theorem refuseKeys_below {keys : List String} : FailsAt (refuseKeys l keys) l.Below :=
  .ite (fun _ => .ok) fun _ => .error (.refl l)

theorem checkName_below {name : String} : FailsAt (checkName l name) l.Below :=
  .ite (fun _ => .error (.refl l)) fun _ => .ok

theorem typeName_below {name : String} : FailsAt (typeName r l name) l.Below :=
  .ite (fun _ => .ok) fun _ => .error (.refl l)

theorem typeNameOrNull_below {name? : Option String} :
    FailsAt (typeNameOrNull r l name?) l.Below := by
  cases name? with
  | none => exact .ok
  | some name => exact typeName_below r l

theorem changeSignal_below {readonly : Bool} {setting : Option SignalSetting} :
    FailsAt (changeSignal l readonly setting) l.Below := by
  unfold changeSignal
  split
  · exact .ok
  · exact .ok
  · exact .bind (checkName_below _).within fun _ _ => .ok

theorem addPropertyMethods_below {declared : List String} {acc methods : List Method} :
    FailsAt (addPropertyMethods l declared acc methods) l.Below := by
  induction methods generalizing acc with
  | nil => exact .ok
  | cons m rest ih =>
    refine .ite (fun _ => .error (l.below_join _)) fun _ => .ite (fun _ => .error ?_) fun _ => ih
    exact (l.below_join _).trans (Location.below_join _ _)

theorem nodeProperty_below {spec : NodeSpec} : FailsAt (nodeProperty r l spec) l.Below := by
  unfold nodeProperty
  split
  · refine .bind ?_ fun _ _ => .bind (addPropertyMethods_below l) fun _ _ => .ok
    exact .bind (typeName_below r _).within fun _ _ => .bind (changeSignal_below l) fun _ _ => .ok
  · exact .bind (refuseKeys_below l) fun _ _ => .ok

theorem accessLevel_below {token? : Option String} : FailsAt (accessLevel l token?) l.Below := by
  unfold accessLevel
  split
  · split
    · exact .ok
    · exact .error (.refl l)
  · exact .ok

theorem methodFlags_below {acc : MethodFlags} {names : List String} :
    FailsAt (methodFlags l acc names) l.Below := by
  induction names generalizing acc with
  | nil => exact .ok
  | cons name rest ih =>
    rw [methodFlags]
    split
    · exact ih
    · exact .error (.refl l)

theorem declaredMethod_below {name : String} {spec : MethodSpec} :
    FailsAt (declaredMethod r l name spec) l.Below := by
  refine .bind (checkName_below l) fun _ _ => .stop (.refl l) ?_
  exact .bind (refuseKeys_below l) fun _ _ =>
    .bind (typeNameOrNull_below r _).within fun _ _ =>
      .bind (typeNameOrNull_below r _).within fun _ _ =>
        .bind (accessLevel_below _).within fun _ _ =>
          .bind (methodFlags_below _).within fun _ _ => .ok

theorem addDeclaredMethods_below {acc : List Method} {specs : List (String × MethodSpec)} :
    FailsAt (addDeclaredMethods r l acc specs) l.Below := by
  induction specs generalizing acc with
  | nil => exact .ok
  | cons entry rest ih =>
    exact .stop (l.below_join _) (.bind (declaredMethod_below r _).within fun _ _ => ih)

theorem bareNode_below {parent name : String} {spec : NodeSpec} :
    FailsAt (bareNode r l parent name spec) l.Below :=
  .bind (checkName_below l) fun _ _ => .bind (refuseKeys_below l) fun _ _ =>
    .bind (nodeProperty_below r l) fun _ _ =>
      .bind (addDeclaredMethods_below r _).within fun _ _ => .ok

mutual

theorem loadNode_below (l : Location) {parent name : String} :
    (spec : NodeSpec) → FailsAt (loadNode r l parent name spec) l.Below
  | spec@⟨below, _, _, _, _, _, _⟩ => by
    rw [loadNode]
    refine .bind (bareNode_below r l) fun n _ => .bind ?_ fun _ _ => .ok
    refine (loadNodes_failsAt (l.join "nodes") below).mono ?_
    rintro l' ⟨name, -, under⟩
    exact ((l.below_join _).trans (Location.below_join _ _)).trans under

/-- A node is reported under its name. -/
theorem loadNodes_failsAt (l : Location) {parent : String} {acc : List Node} :
    (specs : List (String × NodeSpec)) →
      FailsAt (loadNodes r l parent acc specs)
        fun l' => ∃ name ∈ specs.map Prod.fst, (l.join name).Below l'
  | [] => by
    rw [loadNodes]
    exact .ok
  | (name, spec) :: rest => by
    rw [loadNodes]
    refine .stop ⟨name, List.mem_cons_self .., .refl _⟩ (.bind ?_ fun n _ => ?_)
    · exact (loadNode_below (l.join name) spec).mono fun _ below =>
        ⟨name, List.mem_cons_self .., below⟩
    · refine (loadNodes_failsAt l rest).mono ?_
      rintro l' ⟨name, mem, below⟩
      exact ⟨name, List.mem_cons_of_mem _ mem, below⟩

end

end Nodes

end Loading

/-! ## Documents -/

/-- The location points into the document: to all of it, or into a section at a key that stands
there. -/
inductive Document.Covers (d : Document) : Location → Prop
  | whole : d.Covers .document
  | type {key : String} {rest : List String} : key ∈ d.types.map Prod.fst →
    d.Covers ⟨"types" :: key :: rest⟩
  | node {key : String} {rest : List String} : key ∈ d.nodes.map Prod.fst →
    d.Covers ⟨"nodes" :: key :: rest⟩

/-- The error is that of a companion type: with all types of the document in place, it is told under
a name that is registered, but that the document does not have. -/
def Document.FaultsCompanion (d : Document) (e : LoadError) : Prop :=
  ∃ r name type, Loading.Assembles d.types r ∧ r.entry? name = some ⟨type, .custom⟩ ∧
    name ∉ d.types.map Prod.fst ∧ r.Faults name e.cause ∧ e.location = .ofType name

theorem Document.Covers.of_underTypes {d : Document} {l : Location}
    (under : l.UnderTypes (d.types.map Prod.fst)) : d.Covers l := by
  obtain ⟨key, mem, rest, same⟩ := under
  obtain ⟨segments⟩ := l
  have same : "types" :: key :: rest = segments := same
  exact same ▸ .type mem

theorem Document.Covers.of_underNodes {d : Document} {l : Location} {key : String}
    (mem : key ∈ d.nodes.map Prod.fst) (under : (Location.join ⟨["nodes"]⟩ key).Below l) :
    d.Covers l := by
  obtain ⟨rest, same⟩ := under
  obtain ⟨segments⟩ := l
  have same : "nodes" :: key :: rest = segments := same
  exact same ▸ .node mem

theorem Document.Covers.mem_types {d : Document} {l : Location} (covered : d.Covers l)
    {key : String} (same : l = .ofType key) : key ∈ d.types.map Prod.fst := by
  cases covered with
  | whole => simp [Location.document, Location.ofType] at same
  | type mem =>
    cases same
    exact mem
  | node => simp [Location.ofType] at same

/-- An error of loading points into the document, unless a companion type is at fault. -/
theorem Tree.ofDocument_covered_iff {d : Document} {e : LoadError}
    (failed : Tree.ofDocument d = .error e) : d.Covers e.location ↔ ¬ d.FaultsCompanion e := by
  constructor
  · rintro covered ⟨r, name, type, -, -, derived, -, location⟩
    exact derived (covered.mem_types location)
  · intro noCompanion
    rcases bind_eq_error.1 failed with failed | ⟨r, -, failed⟩
    · rcases Loading.loadTypes_error failed with
        under | ⟨r, name, type, all, entry, fault, location⟩
      · exact .of_underTypes under
      · refine .of_underTypes ⟨name, ?_, location ▸ .refl _⟩
        by_contra derived
        exact noCompanion ⟨r, name, type, all, entry, derived, fault, location⟩
    rcases bind_eq_error.1 failed with failed | ⟨_, -, failed⟩
    · rw [Loading.refuseKeys] at failed
      split at failed
      · contradiction
      · cases failed
        exact .whole
    · rcases bind_eq_error.1 failed with failed | ⟨_, -, ⟨⟩⟩
      obtain ⟨key, mem, under⟩ := Loading.loadNodes_failsAt r ⟨["nodes"]⟩ d.nodes e failed
      exact .of_underNodes mem under

/-- Baskets that allow something. -/
def basketDocument (allowed : Json) : Document :=
  { types := [("basket", .obj [("type", .str "List"), ("allowed", allowed)])] }

/-- A list of a type that is missing is told of the list, so no companion is at fault. -/
theorem basketDocument_covered :
    ∃ e, Tree.ofDocument (basketDocument (.str "Apple")) = .error e ∧
      (basketDocument (.str "Apple")).Covers e.location ∧
      ¬ (basketDocument (.str "Apple")).FaultsCompanion e := by
  have failed : Tree.ofDocument (basketDocument (.str "Apple")) =
      .error ⟨.ofType "basket", .unknownType "Apple"⟩ := by cbv
  have covered : (basketDocument (.str "Apple")).Covers (.ofType "basket") :=
    .type (List.mem_singleton_self _)
  exact ⟨_, failed, covered, (Tree.ofDocument_covered_iff failed).1 covered⟩

/-- A list of one of the types of a list has a companion. It is told of a type that is missing, and
stands nowhere in the document. -/
theorem basketDocument_not_covered :
    ∃ e, Tree.ofDocument (basketDocument (.arr [.str "Apple"])) = .error e ∧
      e.location = .ofType "basketOneOf" ∧
      "basketOneOf" ∉ (basketDocument (.arr [.str "Apple"])).types.map Prod.fst ∧
      ¬ (basketDocument (.arr [.str "Apple"])).Covers e.location := by
  have failed : Tree.ofDocument (basketDocument (.arr [.str "Apple"])) =
      .error ⟨.ofType "basketOneOf", .unknownType "Apple"⟩ := by cbv
  have derived : "basketOneOf" ∉ (basketDocument (.arr [.str "Apple"])).types.map Prod.fst := by
    decide
  exact ⟨_, failed, rfl, derived, fun covered => derived (covered.mem_types rfl)⟩

end DeviceTree
