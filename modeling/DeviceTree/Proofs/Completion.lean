import DeviceTree.Proofs.Layouts

/-!
# What the completion of types keeps

After all specifications are interpreted, integer maps get their named fields, the references are
checked, and bitfields get their layouts. Both rewritings keep the kind of a type and the name of
its enumeration; a layout adds no reference but `Bool`, so what the checks have found stays true.

`Stages` is what is known of the registry between the checks and the layouts. `Registry.Loaded` is
what is known of the registry of every document (`loadTypes_loaded`).
-/

namespace DeviceTree

open Loading

/-! ## The registry at the start -/

theorem Registry.fresh_origin {name : String} {e : Entry}
    (found : Registry.fresh.entry? name = some e) : e.origin ≠ .custom := by
  have none : ∀ p ∈ Registry.fresh.entries.entries, p.2.origin ≠ .custom := by decide
  exact none _ (OrderedMap.get?_eq_some.1 found)

namespace Loading

/-- At the start, no name has a type of its own. -/
theorem not_gives_initial {declared : List String} {name : String} {type : TypeDef} :
    ¬ State.Gives { registry := .fresh, declared } none name type := by
  rintro (found | none)
  · exact absurd rfl (Registry.fresh_origin found)
  · contradiction

theorem initial_sound (declared : List String) :
    State.Sound { registry := .fresh, declared } none where
  core _ _ _ := .rfl
  specified _ _ gives := absurd gives not_gives_initial
  enums _ _ gives := absurd gives not_gives_initial
  bitfields _ _ := nofun
  waiting _ _ gives := absurd gives not_gives_initial
  imaps _ _ := nofun

theorem loadAll_sound {types : List (String × Json)} {s s' : State} {u : Unit} (h : s.Sound none)
    (run : (types.forM fun (name, spec) => loadType name spec) s = .ok (u, s')) :
    s'.Sound none := by
  induction types generalizing s with
  | nil =>
    obtain ⟨-, rfl⟩ := pure_run.1 run
    exact h
  | cons entry rest ih =>
    obtain ⟨_, s₁, one, others⟩ := bind_run.1 run
    exact ih (loadType_sound h one) others

/-! ## Integer maps -/

/-- An integer map with other fields. -/
def Completes (old new : TypeDef) : Prop :=
  ∃ m m', old = .imap m ∧ new = .imap m' ∧ m'.enumName = m.enumName

theorem Completes.plain {old new : TypeDef} (h : Completes old new) (target : String) :
    old ≠ .alias target ∧ new ≠ .alias target := by
  obtain ⟨m, m', rfl, rfl, -⟩ := h
  exact ⟨by simp, by simp⟩

/-- Completing an integer map that was registered as one rewrites it. -/
theorem completeImap_rewrites {r₀ r r' : Registry} {name : String} {p : PendingFields}
    {shape : IMapShape} (found : r₀.entry? name = some ⟨.imap shape, .custom⟩)
    (h : r₀.Rewrites Completes r) (ok : completeImap r name p = .ok r') :
    r₀.Rewrites Completes r' := by
  rw [completeImap] at ok
  split at ok
  · contradiction
  · obtain ⟨e, -, ok⟩ := bind_eq_ok.1 ok
    split at ok
    · next shape' found' =>
      obtain ⟨fields, -, ok⟩ := bind_eq_ok.1 ok
      cases ok
      obtain ⟨old, found₀, same⟩ := h.get?_of_get? found'
      cases (Registry.get?_of_bound found).symm.trans found₀
      refine h.redefine found ⟨_, _, rfl, rfl, ?_⟩
      rcases same with ⟨⟨⟩⟩ | ⟨m, m', ⟨⟩, ⟨⟩, same⟩
      · rfl
      · exact same
    · cases ok
      exact h

theorem completeImaps_rewrites {s : State} {r : Registry} (h : s.Sound none)
    (ok : s.imaps.foldlM (fun r (name, p) => completeImap r name p) s.registry = .ok r) :
    s.registry.Rewrites Completes r := by
  refine foldlM_keeps (fun r p r' mem rewrites ok => ?_) (.refl _ _) ok
  obtain ⟨shape, found | none⟩ := h.imaps p.1 p.2 mem
  · exact completeImap_rewrites found rewrites ok
  · contradiction

/-! ## Enumerations -/

theorem resolve_of_enumeration {r : Registry} {l : Location} {name : String} {e : Enumeration}
    (h : r.enumeration l name = .ok e) : r.resolve name = .ok (.enum e) := by
  rw [Registry.enumeration] at h
  split at h
  · split at h
    · contradiction
    · next found =>
      cases h
      exact found
    · contradiction
  · contradiction

/-- When all requests have been checked, what is used for an enumeration denotes one. -/
theorem resolve_of_enumerates {s : State} {name : String} (h : s.Enumerates name)
    (checked :
      s.enumRefs.forM (fun (l, name) => discard (s.registry.enumeration l name)) = .ok ()) :
    ∃ e, s.registry.resolve name = .ok (.enum e) := by
  rcases h with ⟨l, mem⟩ | ⟨e, found⟩
  · obtain ⟨e, ok, -⟩ := map_eq_ok.1 (forM_eq_ok.1 checked _ mem)
    exact ⟨e, resolve_of_enumeration ok⟩
  · have found := Registry.get?_of_bound found
    exact ⟨e, Registry.resolveFrom_plain found List.not_mem_nil (by simp)⟩

/-- Completing integer maps changes no enumeration. -/
theorem enumeration_of_completes {r r' : Registry} {name : String} {e : Enumeration}
    (h : r.Rewrites Completes r') :
    r'.resolve name = .ok (.enum e) ↔ r.resolve name = .ok (.enum e) := by
  constructor
  · intro resolved
    obtain ⟨_, resolved, rfl | ⟨_, _, -, ⟨⟩, -⟩⟩ :=
      h.symm.resolve (fun fits target => (fits.plain target).symm) resolved
    exact resolved
  · intro resolved
    obtain ⟨_, resolved, rfl | ⟨_, _, ⟨⟩, -⟩⟩ := h.resolve Completes.plain resolved
    exact resolved

theorem Completes.enumName? {old new : TypeDef} (h : Completes old new) :
    old.enumName? = new.enumName? := by
  obtain ⟨m, m', rfl, rfl, same⟩ := h
  exact same.symm

end Loading

/-! ## Loaded registries -/

/-- What is known of the registry of every document. -/
structure Registry.Loaded (r : Registry) : Prop where
  core : r.HasCore
  closed : r.Closed
  acyclic : r.Acyclic
  /-- What names the parts of a type is an enumeration. -/
  enums : ∀ name type, r.get? name = some type → ∀ n ∈ type.enumName?,
    ∃ e, r.resolve n = .ok (.enum e)
  /-- Custom types are as their readers give them. -/
  specified : ∀ name type, r.entry? name = some ⟨type, .custom⟩ → Specified type
  layouts : ∀ name b, r.get? name = some (.bitfield b) → r.LaidOut b

namespace Registry

variable {r : Registry} {name : String}

/-- From a core or predefined name, all walks end. -/
theorem acc_core (core : r.HasCore)
    {e : Entry} (found : Registry.fresh.entry? name = some e) :
    Acc (fun target name => r.Refers name target) name := by
  have same {n : String} {e : Entry} (h : Registry.fresh.entry? n = some e) {type : TypeDef}
      (h' : r.get? n = some type) : type = e.type := by
    rw [get?, (core n e (fresh_origin h)).2 h] at h'
    exact (Option.some.inj h').symm
  have leaf {n : String} {e : Entry} (h : Registry.fresh.entry? n = some e)
      (none : e.type.references = []) : Acc (fun target name => r.Refers name target) n := by
    refine acc_of_not_refers ?_
    rintro target ⟨type, found, mem⟩
    rw [same h found, none] at mem
    contradiction
  have optional : Acc (fun target name => r.Refers name target) "OptionalString" := by
    constructor
    rintro target ⟨type, found, mem⟩
    rw [same (e := ⟨.union ["Null", "String"], .builtin⟩) rfl found] at mem
    obtain rfl | rfl : target = "Null" ∨ target = "String" := by
      simpa [TypeDef.references] using mem
    · exact leaf (e := ⟨.null, .core⟩) rfl rfl
    · exact leaf (e := ⟨.string {}, .core⟩) rfl rfl
  have param : Acc (fun target name => r.Refers name target) getParam := by
    constructor
    rintro target ⟨type, found, mem⟩
    rw [same (e := ⟨.alias "OptionalString", .builtin⟩) rfl found] at mem
    exact List.mem_singleton.1 mem ▸ optional
  have kinds : ∀ p ∈ Registry.fresh.entries.entries,
      p.2.type.references = [] ∨ p.1 = "OptionalString" ∨ p.1 = getParam := by decide
  rcases kinds _ (OrderedMap.get?_eq_some.1 found) with none | rfl | rfl
  · exact leaf found none
  · exact optional
  · exact param

/-- When all walks from custom types end, all do. -/
theorem acyclic_of_custom (core : r.HasCore)
    (custom : ∀ name type, r.entry? name = some ⟨type, .custom⟩ →
      Acc (fun target name => r.Refers name target) name) : r.Acyclic := by
  intro name
  cases found : r.entry? name with
  | none =>
    refine acc_of_not_refers ?_
    rintro target ⟨type, found', -⟩
    rw [get?, found] at found'
    contradiction
  | some e =>
    obtain ⟨type, origin⟩ := e
    by_cases own : origin = .custom
    · exact custom name type (own ▸ found)
    · exact acc_core core ((core name _ own).1 found)

/-- Where no cycle is found among custom types, there is none. -/
theorem acyclic_of_checkCycles (core : r.HasCore) (ok : r.checkCycles = .ok ()) : r.Acyclic :=
  acyclic_of_custom core fun _ _ found => acc_of_checkCycles ok found

/-- Core and predefined types refer to registered names. -/
theorem contains_of_core (core : r.HasCore)
    {e : Entry} (found : Registry.fresh.entry? name = some e) :
    ∀ target ∈ e.type.references, r.contains target = true := by
  have kinds : ∀ p ∈ Registry.fresh.entries.entries,
      ∀ target ∈ p.2.type.references, Registry.fresh.contains target = true := by decide
  intro target mem
  obtain ⟨e', found'⟩ := Option.isSome_iff_exists.1
    (kinds _ (OrderedMap.get?_eq_some.1 found) target mem)
  rw [contains, (core target e' (fresh_origin found')).2 found', Option.isSome_some]

end Registry

namespace Loading

variable {s : State} {r₁ r₂ : Registry}

/-- The references of a laid out registry: those it had before, and `Bool`. -/
theorem refers_of_laysOut {name target : String} (h : r₁.Rewrites LaysOut r₂)
    (refers : r₂.Refers name target) : r₁.Refers name target ∨ target = "Bool" := by
  obtain ⟨type, found, mem⟩ := refers
  obtain ⟨old, found', rfl | lays⟩ := h.get?_of_get? found
  · exact .inl ⟨old, found', mem⟩
  · rcases lays.references target mem with mem | bool
    · exact .inl ⟨old, found', mem⟩
    · exact .inr bool

theorem acyclic_of_laysOut (core : r₂.HasCore)
    (h : r₁.Rewrites LaysOut r₂) (acyclic : r₁.Acyclic) : r₂.Acyclic := by
  have bool : Acc (fun target name => r₂.Refers name target) "Bool" :=
    Registry.acc_core core (e := ⟨.bool, .core⟩) rfl
  intro name
  induction acyclic name with
  | intro name _ ih =>
    refine ⟨_, fun target refers => ?_⟩
    rcases refers_of_laysOut h refers with old | rfl
    · exact ih target old
    · exact bool

/-- The registry `r₁` lies between what is interpreted and the registry `r` that is complete: its
integer maps are complete and it has passed the checks, but its bitfields are as registered. -/
structure Stages (s : State) (r₁ r : Registry) : Prop where
  completes : s.registry.Rewrites Completes r₁
  core : r₁.HasCore
  requests : s.enumRefs.forM (fun (l, name) => discard (s.registry.enumeration l name)) = .ok ()
  references : r₁.checkReferences = .ok ()
  acyclic : r₁.Acyclic
  lays : r₁.Rewrites LaysOut r
  layouts : ∀ name b, r.get? name = some (.bitfield b) → r.LaidOut b

theorem core_of_completes (sound : s.Sound none) (h : s.registry.Rewrites Completes r₁) :
    r₁.HasCore := fun name e core => (h.entry_core core).trans (sound.core name e core)

/-- The bitfields that wait are registered without layouts still. -/
theorem bitfield_of_completes (sound : s.Sound none) (h : s.registry.Rewrites Completes r₁)
    {name : String} {p : PendingBitfield} (mem : (name, p) ∈ s.bitfields) :
    r₁.entry? name = some ⟨.bitfield p.placeholder, .custom⟩ := by
  rcases sound.bitfields name p mem with found | none
  · obtain ⟨e, found', rfl | ⟨-, -, m, m', imap, -⟩⟩ := h.entry_of_entry' found
    · exact found'
    · contradiction
  · contradiction

theorem complete_stages {r : Registry} (sound : s.Sound none) (ok : complete s = .ok r) :
    ∃ r₁, s.imaps.foldlM (fun r (name, p) => completeImap r name p) s.registry = .ok r₁ ∧
      Stages s r₁ r := by
  obtain ⟨_, requests, ok⟩ := bind_eq_ok.1 ok
  obtain ⟨r₁, completed, ok⟩ := bind_eq_ok.1 ok
  obtain ⟨_, references, ok⟩ := bind_eq_ok.1 ok
  obtain ⟨_, cycles, ok⟩ := bind_eq_ok.1 ok
  have completes := completeImaps_rewrites sound completed
  have core := core_of_completes sound completes
  have acyclic := Registry.acyclic_of_checkCycles core cycles
  have waiting : ∀ name b, r₁.get? name = some (.bitfield b) → ∃ p, (name, p) ∈ s.bitfields := by
    intro name b found
    obtain ⟨⟨type, origin⟩, entry, rfl⟩ := Option.map_eq_some_iff.1 found
    by_cases custom : origin = .custom
    · subst custom
      obtain ⟨type₀, entry₀, rfl | ⟨_, _, -, ⟨⟩, -⟩⟩ := completes.entry_custom entry
      exact sound.waiting name b (.inl entry₀)
    · have none : ∀ p ∈ Registry.fresh.entries.entries, p.2.type.kind ≠ "Bitfield" := by decide
      exact absurd rfl (none _ (OrderedMap.get?_eq_some.1 ((core name _ custom).1 entry)))
  obtain ⟨lays, layouts⟩ := layoutBitfields_laidOut core acyclic
    (fun _ _ => bitfield_of_completes sound completes) waiting ok
  exact ⟨r₁, completed, completes, core, requests, references, acyclic, lays, layouts⟩

namespace Stages

variable {r : Registry}

theorem hasCore (h : Stages s r₁ r) : r.HasCore := fun name e core =>
  (h.lays.entry_core core).trans (h.core name e core)

theorem closed (h : Stages s r₁ r) : r.Closed := by
  intro name target refers
  rcases refers_of_laysOut h.lays refers with ⟨type, found, mem⟩ | rfl
  · obtain ⟨⟨type, origin⟩, entry, rfl⟩ := Option.map_eq_some_iff.1 found
    rw [h.lays.contains_iff]
    by_cases custom : origin = .custom
    · exact Registry.contains_of_checkReferences h.references (custom ▸ entry) target mem
    · exact Registry.contains_of_core h.core ((h.core name _ custom).1 entry) target mem
  · rw [Registry.contains, (h.hasCore "Bool" ⟨.bool, .core⟩ (by decide)).2 rfl,
      Option.isSome_some]

/-- Names that denote enumerations do so in the end. -/
theorem resolve_enum (h : Stages s r₁ r) {n : String} {e : Enumeration}
    (resolved : s.registry.resolve n = .ok (.enum e)) : r.resolve n = .ok (.enum e) := by
  have resolved := (enumeration_of_completes h.completes).2 resolved
  obtain ⟨_, resolved, rfl | ⟨_, _, ⟨⟩, -⟩⟩ := h.lays.resolve LaysOut.plain resolved
  exact resolved

/-- What a type is named by was requested as an enumeration, or registered as one. -/
theorem resolve_enumName (h : Stages s r₁ r) (sound : s.Sound none) {name n : String}
    {type : TypeDef} (found : r.get? name = some type) (mem : n ∈ type.enumName?) :
    ∃ e, r.resolve n = .ok (.enum e) := by
  obtain ⟨⟨type, origin⟩, entry, rfl⟩ := Option.map_eq_some_iff.1 found
  by_cases custom : origin = .custom
  · obtain ⟨type₁, entry₁, same₁⟩ := h.lays.entry_custom (custom ▸ entry)
    obtain ⟨type₀, entry₀, same₀⟩ := h.completes.entry_custom entry₁
    have named : type₀.enumName? = type.enumName? :=
      (same₀.elim (congrArg _) Completes.enumName?).trans
        (same₁.elim (congrArg _) LaysOut.enumName?)
    have enumerates := sound.enums name type₀ (.inl entry₀) n (named ▸ mem)
    obtain ⟨e, resolved⟩ := resolve_of_enumerates enumerates h.requests
    exact ⟨e, h.resolve_enum resolved⟩
  · have none : ∀ p ∈ Registry.fresh.entries.entries, p.2.type.enumName? = none := by decide
    rw [none _ (OrderedMap.get?_eq_some.1 ((h.hasCore name _ custom).1 entry))] at mem
    contradiction

/-- Integer maps and bitfields are as specified with any fields. -/
theorem specified (h : Stages s r₁ r) (sound : s.Sound none) {name : String} {type : TypeDef}
    (found : r.entry? name = some ⟨type, .custom⟩) : Specified type := by
  obtain ⟨type₁, found₁, rfl | ⟨_, _, -, rfl, -⟩⟩ := h.lays.entry_custom found
  · obtain ⟨type₀, found₀, rfl | ⟨_, _, -, rfl, -⟩⟩ := h.completes.entry_custom found₁
    · exact sound.specified name type₀ (.inl found₀)
    · trivial
  · trivial

end Stages

theorem complete_loaded {r : Registry} (sound : s.Sound none) (ok : complete s = .ok r) :
    r.Loaded := by
  obtain ⟨r₁, -, h⟩ := complete_stages sound ok
  exact ⟨h.hasCore, h.closed, acyclic_of_laysOut h.hasCore h.lays h.acyclic,
    fun _ _ found _ mem => h.resolve_enumName sound found mem,
    fun _ _ found => h.specified sound found, h.layouts⟩

/-- What is known of registries holds of those of documents. -/
theorem loadTypes_loaded {types : List (String × Json)} {r : Registry}
    (ok : loadTypes types = .ok r) : r.Loaded := by
  obtain ⟨declared, -, ok⟩ := bind_eq_ok.1 ok
  obtain ⟨⟨_, s⟩, run, ok⟩ := bind_eq_ok.1 ok
  exact complete_loaded (loadAll_sound (initial_sound declared) run) ok

end Loading

end DeviceTree
