import DeviceTree.Loading.Types
import DeviceTree.Proofs.Outcomes

/-!
# What the interpretation of specifications keeps

Interpreting a specification registers companion types and notes what is left to do. `State.Sound`
is what holds at every moment of it: the core and predefined types are those of the fresh registry,
custom types are as their readers give them, every name used for an enumeration denotes one or will
be checked, and every bitfield and integer map left to complete is registered as such.

A mapping is interpreted before its type is registered, so soundness is that of a state together
with a type that is held for a name. `keeps` is the induction over specifications, `loadType_sound`
the result for one type of a document.
-/

namespace DeviceTree

/-- The name of the enumeration that names the parts of a composite type. -/
def TypeDef.enumName? : TypeDef → Option String
  | .bitfield b => b.enumName
  | .tuple t => t.enumName
  | .imap m => m.enumName
  | _ => none

/-- The core and predefined types are those of the fresh registry. -/
def Registry.HasCore (r : Registry) : Prop :=
  ∀ name e, e.origin ≠ .custom →
    (r.entry? name = some e ↔ Registry.fresh.entry? name = some e)

/-- A type with another name leaves the core as it is. -/
theorem Registry.HasCore.define {r r' : Registry} {name : String} {type : TypeDef}
    (core : r.HasCore) (defined : r.define name type = .ok r') : r'.HasCore := by
  obtain ⟨free, entry⟩ := define_eq_ok defined
  intro n e own
  rw [← core n e own, entry]
  split
  · next same =>
    subst same
    rw [free]
    constructor
    · rintro ⟨⟩
      exact absurd rfl own
    · nofun
  · exact .rfl

namespace Loading

/-! ## Runs of loading -/

section Runs

variable {α β : Type} {x : LoadM α} {f : α → LoadM β} {g : α → β} {a : α} {b : β} {s s' : State}
  {l : Location}

theorem bind_run : (x >>= f) s = .ok (b, s') ↔
    ∃ a s₁, x s = .ok (a, s₁) ∧ f a s₁ = .ok (b, s') := by
  show (x s >>= fun p => f p.1 p.2) = .ok (b, s') ↔ _
  rw [bind_eq_ok, Prod.exists]

theorem pure_run {b : α} : (pure a : LoadM α) s = .ok (b, s') ↔ a = b ∧ s = s' := by
  show Except.ok (a, s) = .ok (b, s') ↔ _
  rw [Except.ok.injEq, Prod.mk.injEq]

theorem map_run : (g <$> x) s = .ok (b, s') ↔ ∃ a, x s = .ok (a, s') ∧ g a = b := by
  show (x s >>= fun p => (.ok (g p.1, p.2))) = .ok (b, s') ↔ _
  rw [bind_eq_ok, Prod.exists]
  constructor
  · rintro ⟨a, s₁, run, ⟨⟩⟩
    exact ⟨a, run, rfl⟩
  · rintro ⟨a, run, rfl⟩
    exact ⟨a, s', run, rfl⟩

theorem lift_run {x : Except LoadError α} :
    (liftM x : LoadM α) s = .ok (a, s') ↔ x = .ok a ∧ s = s' := by
  show (x >>= fun a => .ok (a, s)) = .ok (a, s') ↔ _
  rw [bind_eq_ok]
  constructor
  · rintro ⟨a, rfl, ⟨⟩⟩
    exact ⟨rfl, rfl⟩
  · rintro ⟨rfl, rfl⟩
    exact ⟨a, rfl, rfl⟩

theorem modify_run {f : State → State} {u : Unit} :
    (modify f : LoadM Unit) s = .ok (u, s') ↔ f s = s' := by
  show Except.ok ((), f s) = .ok (u, s') ↔ _
  simp

theorem fault_run {e : FormatFault} : ¬ fault l e s = .ok (a, s') := nofun

theorem define_run {name : String} {type : TypeDef} {u : Unit} :
    define name type s = .ok (u, s') ↔
      ∃ r, s.registry.define name type = .ok r ∧ { s with registry := r } = s' := by
  constructor
  · intro run
    obtain ⟨s₁, s₂, got, run⟩ := bind_run.1 run
    cases got
    obtain ⟨r, s₂, lifted, set⟩ := bind_run.1 run
    obtain ⟨defined, rfl⟩ := lift_run.1 lifted
    cases set
    exact ⟨r, defined, rfl⟩
  · rintro ⟨r, defined, rfl⟩
    refine bind_run.2 ⟨s, s, rfl, ?_⟩
    exact bind_run.2 ⟨r, s, lift_run.2 ⟨defined, rfl⟩, rfl⟩

end Runs

/-! ## What is left to do -/

/-- What is left to do for bitfields, wherever their specifications stand. -/
def bitfieldTasks (pending : List (String × PendingBitfield)) :
    List (String × Option (List BitSlot) × Option String) :=
  pending.map fun (name, p) => (name, p.slots, p.enumName)

/-- What is left to do for integer maps, wherever their specifications stand. -/
def imapTasks (pending : List (String × PendingFields)) :
    List (String × Option String × List (String × String)) :=
  pending.map fun (name, p) => (name, p.enumName, p.named)

section Tasks

variable {bitfields bitfields' : List (String × PendingBitfield)}
  {imaps imaps' : List (String × PendingFields)}

theorem bitfieldTasks_append :
    bitfieldTasks (bitfields ++ bitfields') = bitfieldTasks bitfields ++ bitfieldTasks bitfields' :=
  List.map_append

theorem imapTasks_append : imapTasks (imaps ++ imaps') = imapTasks imaps ++ imapTasks imaps' :=
  List.map_append

theorem names_bitfieldTasks : (bitfieldTasks bitfields).map Prod.fst = bitfields.map Prod.fst := by
  rw [bitfieldTasks, List.map_map]
  rfl

theorem names_imapTasks : (imapTasks imaps).map Prod.fst = imaps.map Prod.fst := by
  rw [imapTasks, List.map_map]
  rfl

end Tasks

/-! ## Sound states -/

/-- The type has what the reader of its kind gives. -/
def Specified : TypeDef → Prop
  | .int range => ∃ l attrs, intType l attrs = .ok range
  | .double range => ∃ l attrs, doubleType l attrs = .ok range
  | .decimal range => ∃ l attrs, decimalType l attrs = .ok range
  | .string shape => ∃ l attrs, stringType l attrs = .ok shape
  | .blob shape => ∃ l attrs, blobType l attrs = .ok shape
  | .enum e => e = {} ∨ ∃ l spec, enumeration l spec = .ok e
  | .constant c => ∃ spec, c = .ofJson spec
  | .list shape => ∀ high ∈ shape.maxLength, shape.minLength ≤ high
  | .any | .null | .bool | .dateTime => False
  | _ => True

namespace State

/-- The later state has the types and the requests of the earlier one. -/
structure Extends (s s' : State) : Prop where
  types : ∀ name e, s.registry.entry? name = some e → s'.registry.entry? name = some e
  requests : ∀ ref ∈ s.enumRefs, ref ∈ s'.enumRefs

theorem Extends.refl (s : State) : s.Extends s :=
  ⟨fun _ _ h => h, fun _ h => h⟩

theorem Extends.trans {s₁ s₂ s₃ : State} (h : s₁.Extends s₂) (k : s₂.Extends s₃) :
    s₁.Extends s₃ :=
  ⟨fun name e found => k.types name e (h.types name e found),
    fun ref mem => k.requests ref (h.requests ref mem)⟩

/-- The name denotes an enumeration, or it will be checked that it does. -/
def Enumerates (s : State) (name : String) : Prop :=
  (∃ l, (l, name) ∈ s.enumRefs) ∨ ∃ e, s.registry.entry? name = some ⟨.enum e, .custom⟩

theorem Enumerates.mono {s s' : State} {name : String} (h : s.Enumerates name)
    (grown : s.Extends s') : s'.Enumerates name := by
  rcases h with ⟨l, mem⟩ | ⟨e, found⟩
  · exact .inl ⟨l, grown.requests _ mem⟩
  · exact .inr ⟨e, grown.types _ _ found⟩

/-- The custom type is registered under the name, or held for it. -/
def Gives (s : State) (held : Option (String × TypeDef)) (name : String) (type : TypeDef) : Prop :=
  s.registry.entry? name = some ⟨type, .custom⟩ ∨ held = some (name, type)

/-- What holds of the state at every moment, where a type may be held for a name. -/
structure Sound (s : State) (held : Option (String × TypeDef)) : Prop where
  core : s.registry.HasCore
  specified : ∀ name type, s.Gives held name type → Specified type
  enums : ∀ name type, s.Gives held name type → ∀ n ∈ type.enumName?, s.Enumerates n
  bitfields : ∀ name p, (name, p) ∈ s.bitfields → s.Gives held name (.bitfield p.placeholder)
  /-- Every bitfield waits for its layout. -/
  waiting : ∀ name b, s.Gives held name (.bitfield b) → ∃ p, (name, p) ∈ s.bitfields
  imaps : ∀ name p, (name, p) ∈ s.imaps → ∃ shape, s.Gives held name (.imap shape)

variable {s s' : State} {name : String} {type : TypeDef} {l : Location} {owner : String}

theorem Gives.of_held {held : Option (String × TypeDef)} (h : s.Gives none name type) :
    s.Gives held name type := by
  rcases h with found | none
  · exact .inl found
  · contradiction

/-- A type that nothing is left to do for may be held. -/
theorem Sound.hold (h : s.Sound none) (specified : Specified type)
    (enums : ∀ n ∈ type.enumName?, s.Enumerates n) (done : ∀ b, type ≠ .bitfield b) :
    s.Sound (some (name, type)) where
  core := h.core
  specified n t gives := by
    rcases gives with found | ⟨⟨⟩⟩
    · exact h.specified n t (.inl found)
    · exact specified
  enums n t gives := by
    rcases gives with found | ⟨⟨⟩⟩
    · exact h.enums n t (.inl found)
    · exact enums
  bitfields n p mem := (h.bitfields n p mem).of_held
  waiting n b gives := by
    rcases gives with found | same
    · exact h.waiting n b (.inl found)
    · cases same
      exact absurd rfl (done b)
  imaps n p mem := by
    obtain ⟨shape, gives⟩ := h.imaps n p mem
    exact ⟨shape, gives.of_held⟩

/-- A type without parts that are named may be held. -/
theorem Sound.hold_plain (h : s.Sound none) (specified : Specified type)
    (none : type.enumName? = none) (done : ∀ b, type ≠ .bitfield b) :
    s.Sound (some (name, type)) :=
  h.hold specified (by simp [none]) done

end State

open State

section Steps

variable {s s' : State} {name : String} {type : TypeDef} {l : Location} {owner : String} {u : Unit}

/-- Registering the type that is held keeps the state sound. -/
theorem define_sound (h : s.Sound (some (name, type))) (run : define name type s = .ok (u, s')) :
    s'.Sound none ∧ s.Extends s' := by
  obtain ⟨r, defined, rfl⟩ := define_run.1 run
  obtain ⟨free, entry⟩ := Registry.define_eq_ok defined
  have kept (n : String) (e : Registry.Entry) (found : s.registry.entry? n = some e) :
      r.entry? n = some e := by
    rw [entry, if_neg]
    · exact found
    · rintro rfl
      rw [free] at found
      contradiction
  have grown : s.Extends { s with registry := r } := ⟨kept, fun _ mem => mem⟩
  -- the type is the only one that the new registry has and the old one has not
  have gives (n : String) (t : TypeDef) :
      State.Gives { s with registry := r } none n t ↔ s.Gives (some (name, type)) n t := by
    simp only [Gives, entry, reduceCtorEq, or_false, Option.some.injEq, Prod.mk.injEq]
    by_cases same : n = name
    · subst same
      simp [free]
    · have other : ¬ name = n := fun e => same e.symm
      simp [same, other]
  refine ⟨⟨fun n e custom => ?_, fun n t g => h.specified n t ((gives n t).1 g),
    fun n t g m mem => (h.enums n t ((gives n t).1 g) m mem).mono grown,
    fun n p mem => (gives _ _).2 (h.bitfields n p mem),
    fun n b g => h.waiting n b ((gives _ _).1 g), fun n p mem => ?_⟩, grown⟩
  · exact h.core.define defined n e custom
  · obtain ⟨shape, g⟩ := h.imaps n p mem
    exact ⟨shape, (gives _ _).2 g⟩

theorem entry_of_define (run : define name type s = .ok (u, s')) :
    s'.registry.entry? name = some ⟨type, .custom⟩ := by
  obtain ⟨s₁, s₂, got, run⟩ := bind_run.1 run
  cases got
  obtain ⟨r, s₂, lifted, set⟩ := bind_run.1 run
  obtain ⟨defined, rfl⟩ := lift_run.1 lifted
  cases set
  rw [(Registry.define_eq_ok defined).2, if_pos rfl]

/-- A companion type is registered like any other. -/
theorem define_of_defineCompanion (run : defineCompanion l name type s = .ok (u, s')) :
    define name type s = .ok (u, s') := by
  obtain ⟨s₁, s₂, got, run⟩ := bind_run.1 run
  cases got
  split at run
  · contradiction
  · exact run

theorem defineCompanion_sound (h : s.Sound (some (name, type)))
    (run : defineCompanion l name type s = .ok (u, s')) : s'.Sound none ∧ s.Extends s' :=
  define_sound h (define_of_defineCompanion run)

/-! ## Kinds without parts -/

theorem plainType_spec {kind : String} {attrs : Attributes}
    (h : plainType l kind name attrs = .ok type) :
    Specified type ∧ type.enumName? = none ∧ ∀ b, type ≠ .bitfield b := by
  unfold plainType at h
  split at h
  · obtain ⟨range, read, rfl⟩ := map_eq_ok.1 h
    exact ⟨⟨_, _, read⟩, rfl, nofun⟩
  · obtain ⟨range, read, rfl⟩ := map_eq_ok.1 h
    exact ⟨⟨_, _, read⟩, rfl, nofun⟩
  · obtain ⟨range, read, rfl⟩ := map_eq_ok.1 h
    exact ⟨⟨_, _, read⟩, rfl, nofun⟩
  · obtain ⟨shape, read, rfl⟩ := map_eq_ok.1 h
    exact ⟨⟨_, _, read⟩, rfl, nofun⟩
  · obtain ⟨shape, read, rfl⟩ := map_eq_ok.1 h
    exact ⟨⟨_, _, read⟩, rfl, nofun⟩
  · obtain ⟨e, read, rfl⟩ := map_eq_ok.1 h
    refine ⟨?_, rfl, nofun⟩
    rw [enumType] at read
    split at read
    · exact .inr ⟨_, _, read⟩
    · cases read
      exact .inl rfl
  · obtain ⟨c, read, rfl⟩ := map_eq_ok.1 h
    refine ⟨?_, rfl, nofun⟩
    rw [constantType] at read
    split at read
    · cases read
      exact ⟨_, rfl⟩
    · contradiction
  · contradiction

/-! ## Names of enumerations and what is left to do -/

theorem enumReference_sound {spec : Json} (h : s.Sound none)
    (run : enumReference l owner spec s = .ok (name, s')) :
    s'.Sound none ∧ s.Extends s' ∧ s'.Enumerates name := by
  cases spec with
  | str n =>
    obtain ⟨_, s₁, noted, run⟩ := bind_run.1 run
    obtain rfl := modify_run.1 noted
    obtain ⟨rfl, rfl⟩ := pure_run.1 run
    have grown : s.Extends { s with enumRefs := s.enumRefs ++ [(l, n)] } :=
      ⟨fun _ _ found => found, fun _ mem => List.mem_append_left _ mem⟩
    refine ⟨⟨h.core, h.specified, fun m t g k mem => (h.enums m t g k mem).mono grown,
      h.bitfields, h.waiting, h.imaps⟩, grown, .inl ⟨l, ?_⟩⟩
    exact List.mem_append_right _ (List.mem_singleton.2 rfl)
  | arr items =>
    obtain ⟨e, s₁, lifted, run⟩ := bind_run.1 run
    obtain ⟨read, rfl⟩ := lift_run.1 lifted
    obtain ⟨_, s₂, defined, run⟩ := bind_run.1 run
    obtain ⟨rfl, rfl⟩ := pure_run.1 run
    have held : s.Sound (some (owner ++ "Enum", .enum e)) :=
      h.hold_plain (.inr ⟨_, _, read⟩) rfl nofun
    obtain ⟨sound, grown⟩ := defineCompanion_sound held defined
    exact ⟨sound, grown, .inr ⟨e, entry_of_define (define_of_defineCompanion defined)⟩⟩
  | _ => exact absurd run fault_run

theorem enumAttribute_sound {attrs : Attributes} {enumName : Option String} (h : s.Sound none)
    (run : enumAttribute l owner attrs s = .ok (enumName, s')) :
    s'.Sound none ∧ s.Extends s' ∧ ∀ n ∈ enumName, s'.Enumerates n := by
  rw [enumAttribute] at run
  cases given : attrs.get? "enum" with
  | none =>
    rw [given] at run
    obtain ⟨rfl, rfl⟩ := pure_run.1 run
    exact ⟨h, .refl s, by simp⟩
  | some spec =>
    simp only [given] at run
    obtain ⟨name, named, rfl⟩ := map_run.1 run
    obtain ⟨sound, grown, enumerates⟩ := enumReference_sound h named
    exact ⟨sound, grown, by simpa using enumerates⟩

/-- A bitfield waits for its layout from the moment its type is held. -/
theorem bitfieldType_sound {attrs : Attributes} {b : BitfieldShape} (h : s.Sound none)
    (run : bitfieldType l name attrs s = .ok (b, s')) :
    s'.Sound (some (name, .bitfield b)) ∧ s.Extends s' := by
  obtain ⟨slots, s₁, lifted, run⟩ := bind_run.1 run
  obtain ⟨-, rfl⟩ := lift_run.1 lifted
  obtain ⟨enumName, s₂, named, run⟩ := bind_run.1 run
  obtain ⟨sound, grown, enumerates⟩ := enumAttribute_sound h named
  obtain ⟨_, s₃, noted, run⟩ := bind_run.1 run
  obtain rfl := modify_run.1 noted
  obtain ⟨rfl, rfl⟩ := pure_run.1 run
  refine ⟨⟨sound.core, fun n t gives => ?_, fun n t gives => ?_, fun n p mem => ?_,
    fun n b gives => ?_, fun n p mem => ?_⟩, grown.trans ⟨fun _ _ found => found, fun _ mem => mem⟩⟩
  · rcases gives with found | ⟨⟨⟩⟩
    · exact sound.specified n t (.inl found)
    · trivial
  · rcases gives with found | ⟨⟨⟩⟩
    · exact sound.enums n t (.inl found)
    · exact enumerates
  · rcases List.mem_append.1 mem with before | new
    · exact (sound.bitfields n p before).of_held
    · cases List.mem_singleton.1 new
      exact .inr rfl
  · rcases gives with found | ⟨⟨⟩⟩
    · obtain ⟨p, mem⟩ := sound.waiting n b (.inl found)
      exact ⟨p, List.mem_append_left _ mem⟩
    · exact ⟨_, List.mem_append_right _ (List.mem_singleton_self _)⟩
  · obtain ⟨shape, gives⟩ := sound.imaps n p mem
    exact ⟨shape, gives.of_held⟩

/-- An integer map with named fields waits for them from the moment its type is held. -/
theorem imapShape_sound {enumName : Option String} {fields : Option IMapFields} {m : IMapShape}
    (h : s.Sound none) (enumerates : ∀ n ∈ enumName, s.Enumerates n)
    (run : imapShape l name enumName fields s = .ok (m, s')) :
    s'.Sound (some (name, .imap m)) ∧ s.Extends s' := by
  cases fields with
  | none =>
    obtain ⟨rfl, rfl⟩ := pure_run.1 run
    exact ⟨h.hold trivial enumerates nofun, .refl s⟩
  | some fields =>
    obtain ⟨_, s₁, noted, run⟩ := bind_run.1 run
    obtain rfl := modify_run.1 noted
    obtain ⟨rfl, rfl⟩ := pure_run.1 run
    have held : s.Sound (some (name, .imap { fields := some fields.placed, enumName })) :=
      h.hold trivial enumerates nofun
    refine ⟨⟨held.core, held.specified, held.enums, held.bitfields, held.waiting,
      fun n p mem => ?_⟩, ⟨fun _ _ found => found, fun _ mem => mem⟩⟩
    rcases List.mem_append.1 mem with before | new
    · exact held.imaps n p before
    · split at new
      · contradiction
      · cases List.mem_singleton.1 new
        exact ⟨_, .inr rfl⟩

/-! ## Parts of specifications -/

/-- Interpreting the specification where a name is expected keeps states sound. -/
structure Keeps (spec : Json) : Prop where
  sound : ∀ {s s' : State} {l : Location} {owner name : String}, s.Sound none →
    reference l owner spec s = .ok (name, s') → s'.Sound none ∧ s.Extends s'

/-- What holds of all smaller specifications holds of the items of a list. -/
theorem forall_items_of_smaller {P : Json → Prop} {n : Nat}
    (parts : ∀ spec, sizeOf spec < n → P spec) {items : List Json}
    (smaller : sizeOf (Json.arr items) ≤ n) : ∀ item ∈ items, P item := by
  intro item mem
  have := List.sizeOf_lt_of_mem mem
  rw [Json.arr.sizeOf_spec] at smaller
  exact parts item (by omega)

/-- What holds of all smaller specifications holds of the fields of a mapping. -/
theorem forall_fields_of_smaller {P : Json → Prop} {n : Nat}
    (parts : ∀ spec, sizeOf spec < n → P spec) {specs : List (String × Json)}
    (smaller : sizeOf (Json.obj specs) ≤ n) : ∀ p ∈ specs, P p.2 := by
  rintro ⟨key, spec⟩ mem
  have := List.sizeOf_lt_of_mem mem
  rw [Prod.mk.sizeOf_spec] at this
  rw [Json.obj.sizeOf_spec] at smaller
  exact parts spec (by omega)

theorem references_sound {items : List Json} (parts : ∀ item ∈ items, Keeps item)
    {place : Nat → Location} {i : Nat} {names : List String} (h : s.Sound none)
    (run : references place owner i items s = .ok (names, s')) : s'.Sound none ∧ s.Extends s' := by
  induction items generalizing s i names with
  | nil =>
    rw [references] at run
    obtain ⟨-, rfl⟩ := pure_run.1 run
    exact ⟨h, .refl s⟩
  | cons item rest ih =>
    rw [references] at run
    obtain ⟨_, s₁, one, run⟩ := bind_run.1 run
    obtain ⟨_, s₂, others, run⟩ := bind_run.1 run
    obtain ⟨-, rfl⟩ := pure_run.1 run
    rw [List.forall_mem_cons] at parts
    obtain ⟨sound, grown⟩ := parts.1.sound h one
    obtain ⟨sound, grown'⟩ := ih parts.2 sound others
    exact ⟨sound, grown.trans grown'⟩

theorem fieldReferences_sound {specs : List (String × Json)} (parts : ∀ p ∈ specs, Keeps p.2)
    {fields : List (String × String)} (h : s.Sound none)
    (run : fieldReferences l owner specs s = .ok (fields, s')) :
    s'.Sound none ∧ s.Extends s' := by
  induction specs generalizing s fields with
  | nil =>
    rw [fieldReferences] at run
    obtain ⟨-, rfl⟩ := pure_run.1 run
    exact ⟨h, .refl s⟩
  | cons entry rest ih =>
    rw [fieldReferences] at run
    obtain ⟨_, s₁, one, run⟩ := bind_run.1 run
    obtain ⟨_, s₂, others, run⟩ := bind_run.1 run
    obtain ⟨-, rfl⟩ := pure_run.1 run
    rw [List.forall_mem_cons] at parts
    obtain ⟨sound, grown⟩ := parts.1.sound h one
    obtain ⟨sound, grown'⟩ := ih parts.2 sound others
    exact ⟨sound, grown.trans grown'⟩

theorem imapReferences_sound {specs : List (String × Json)} (parts : ∀ p ∈ specs, Keeps p.2)
    {acc fields : IMapFields} (h : s.Sound none)
    (run : imapReferences l owner acc specs s = .ok (fields, s')) :
    s'.Sound none ∧ s.Extends s' := by
  induction specs generalizing s acc with
  | nil =>
    rw [imapReferences] at run
    obtain ⟨-, rfl⟩ := pure_run.1 run
    exact ⟨h, .refl s⟩
  | cons entry rest ih =>
    rw [imapReferences] at run
    obtain ⟨_, s₁, one, run⟩ := bind_run.1 run
    obtain ⟨_, s₂, added, run⟩ := bind_run.1 run
    obtain ⟨-, rfl⟩ := lift_run.1 added
    rw [List.forall_mem_cons] at parts
    obtain ⟨sound, grown⟩ := parts.1.sound h one
    obtain ⟨sound, grown'⟩ := ih parts.2 sound run
    exact ⟨sound, grown.trans grown'⟩

/-! ## Kinds with parts -/

section Kinds

variable {attrs : Attributes} (parts : ∀ spec, sizeOf spec < sizeOf attrs → Keeps spec)

include parts

theorem listType_sound {shape : ListShape} (h : s.Sound none)
    (run : listType l name attrs s = .ok (shape, s')) :
    s'.Sound none ∧ s.Extends s' ∧ Specified (.list shape) := by
  rw [listType] at run
  obtain ⟨minLength, s₁, lifted, run⟩ := bind_run.1 run
  obtain ⟨-, rfl⟩ := lift_run.1 lifted
  obtain ⟨maxLength, s₁, lifted, run⟩ := bind_run.1 run
  obtain ⟨-, rfl⟩ := lift_run.1 lifted
  obtain ⟨_, s₁, lifted, run⟩ := bind_run.1 run
  obtain ⟨ordered, rfl⟩ := lift_run.1 lifted
  have bounds : ∀ high ∈ maxLength, minLength.getD 0 ≤ high := by
    rintro high ⟨⟩
    rw [checkOrder] at ordered
    split at ordered
    · contradiction
    · next below => simpa using below
  cases given : attrs.nested? "allowed" with
  | none =>
    simp only [given] at run
    obtain ⟨rfl, rfl⟩ := pure_run.1 run
    exact ⟨h, .refl s, bounds⟩
  | some spec =>
    simp only [given] at run
    obtain ⟨allowed, s₂, one, run⟩ := bind_run.1 run
    obtain ⟨rfl, rfl⟩ := pure_run.1 run
    obtain ⟨sound, grown⟩ := (parts spec.1 spec.2).sound h one
    exact ⟨sound, grown, bounds⟩

theorem tupleType_sound {shape : TupleShape} (h : s.Sound none)
    (run : tupleType l name attrs s = .ok (shape, s')) :
    s'.Sound none ∧ s.Extends s' ∧ ∀ n ∈ shape.enumName, s'.Enumerates n := by
  rw [tupleType] at run
  cases given : attrs.nested? "items" with
  | none =>
    simp only [given, pure_bind] at run
    obtain ⟨_, s₁, named, run⟩ := bind_run.1 run
    obtain ⟨rfl, rfl⟩ := pure_run.1 run
    exact enumAttribute_sound h named
  | some spec =>
    obtain ⟨spec, smaller⟩ := spec
    cases spec with
    | arr items =>
      simp only [given] at run
      obtain ⟨_, s₁, read, run⟩ := bind_run.1 run
      obtain ⟨_, s₂, named, run⟩ := bind_run.1 run
      obtain ⟨rfl, rfl⟩ := pure_run.1 run
      have inside := forall_items_of_smaller parts (Nat.le_of_lt smaller)
      obtain ⟨sound, grown⟩ := references_sound inside h read
      obtain ⟨sound, grown', enumerates⟩ := enumAttribute_sound sound named
      exact ⟨sound, grown.trans grown', enumerates⟩
    | _ =>
      simp only [given] at run
      obtain ⟨_, s₁, failed, -⟩ := bind_run.1 run
      exact absurd failed fault_run

theorem mapType_sound {shape : MapShape} (h : s.Sound none)
    (run : mapType l name attrs s = .ok (shape, s')) : s'.Sound none ∧ s.Extends s' := by
  rw [mapType] at run
  cases given : attrs.nested? "fields" with
  | none =>
    simp only [given] at run
    obtain ⟨-, rfl⟩ := pure_run.1 run
    exact ⟨h, .refl s⟩
  | some spec =>
    obtain ⟨spec, smaller⟩ := spec
    cases spec with
    | obj specs =>
      simp only [given] at run
      obtain ⟨_, s₁, read, run⟩ := bind_run.1 run
      obtain ⟨-, rfl⟩ := pure_run.1 run
      exact fieldReferences_sound (forall_fields_of_smaller parts (Nat.le_of_lt smaller)) h read
    | _ =>
      simp only [given] at run
      exact absurd run fault_run

theorem imapType_sound {shape : IMapShape} (h : s.Sound none)
    (run : imapType l name attrs s = .ok (shape, s')) :
    s'.Sound (some (name, .imap shape)) ∧ s.Extends s' := by
  rw [imapType] at run
  obtain ⟨enumName, s₁, named, run⟩ := bind_run.1 run
  obtain ⟨sound, grown, enumerates⟩ := enumAttribute_sound h named
  cases given : attrs.nested? "fields" with
  | none =>
    simp only [given, pure_bind] at run
    obtain ⟨sound, grown'⟩ := imapShape_sound sound enumerates run
    exact ⟨sound, grown.trans grown'⟩
  | some spec =>
    obtain ⟨spec, smaller⟩ := spec
    cases spec with
    | obj specs =>
      simp only [given] at run
      obtain ⟨_, s₂, read, run⟩ := bind_run.1 run
      obtain ⟨fields, named', rfl⟩ := map_run.1 read
      obtain ⟨sound, grown₂⟩ :=
        imapReferences_sound (forall_fields_of_smaller parts (Nat.le_of_lt smaller)) sound named'
      have enumerates : ∀ n ∈ enumName, s₂.Enumerates n :=
        fun n mem => (enumerates n mem).mono grown₂
      obtain ⟨sound, grown₃⟩ := imapShape_sound sound enumerates run
      exact ⟨sound, grown.trans (grown₂.trans grown₃)⟩
    | arr items =>
      simp only [given, pure_bind] at run
      obtain ⟨_, s₂, lifted, run⟩ := bind_run.1 run
      obtain ⟨-, rfl⟩ := lift_run.1 lifted
      obtain ⟨sound, grown'⟩ := imapShape_sound sound enumerates run
      exact ⟨sound, grown.trans grown'⟩
    | _ =>
      simp only [given] at run
      obtain ⟨_, s₂, failed, -⟩ := bind_run.1 run
      exact absurd failed fault_run

theorem kindType_sound {kind : String} (h : s.Sound none)
    (run : kindType l kind name attrs s = .ok (type, s')) :
    s'.Sound (some (name, type)) ∧ s.Extends s' := by
  generalize step : kindType l kind name attrs = x at run
  rw [kindType.eq_def] at step
  split at step <;> subst step
  · obtain ⟨_, bitfield, rfl⟩ := map_run.1 run
    exact bitfieldType_sound h bitfield
  · obtain ⟨_, list, rfl⟩ := map_run.1 run
    obtain ⟨sound, grown, specified⟩ := listType_sound parts h list
    exact ⟨sound.hold_plain specified rfl (by simp), grown⟩
  · obtain ⟨_, tuple, rfl⟩ := map_run.1 run
    obtain ⟨sound, grown, enumerates⟩ := tupleType_sound parts h tuple
    exact ⟨sound.hold trivial enumerates (by simp), grown⟩
  · obtain ⟨_, map, rfl⟩ := map_run.1 run
    obtain ⟨sound, grown⟩ := mapType_sound parts h map
    exact ⟨sound.hold_plain trivial rfl (by simp), grown⟩
  · obtain ⟨_, imap, rfl⟩ := map_run.1 run
    exact imapType_sound parts h imap
  · obtain ⟨read, rfl⟩ := lift_run.1 run
    obtain ⟨specified, none, done⟩ := plainType_spec read
    exact ⟨h.hold_plain specified none done, .refl s⟩

theorem mappingType_sound (h : s.Sound none)
    (run : mappingType l name attrs s = .ok (type, s')) :
    s'.Sound (some (name, type)) ∧ s.Extends s' := by
  rw [mappingType] at run
  obtain ⟨given, s₁, lifted, run⟩ := bind_run.1 run
  obtain ⟨-, rfl⟩ := lift_run.1 lifted
  cases given with
  | none => exact absurd run fault_run
  | some kind =>
    obtain ⟨_, s₁, typed, run⟩ := bind_run.1 run
    obtain ⟨_, s₂, lifted, run⟩ := bind_run.1 run
    obtain ⟨-, rfl⟩ := lift_run.1 lifted
    obtain ⟨rfl, rfl⟩ := pure_run.1 run
    exact kindType_sound parts h typed

end Kinds

end Steps

/-! ## Specifications -/

theorem keeps_of_parts {spec : Json} (parts : ∀ part, sizeOf part < sizeOf spec → Keeps part) :
    Keeps spec := by
  refine ⟨fun {s s' l owner name} h run => ?_⟩
  cases spec with
  | null | str =>
    rw [reference] at run
    obtain ⟨-, rfl⟩ := pure_run.1 run
    exact ⟨h, .refl s⟩
  | arr items =>
    rw [reference] at run
    obtain ⟨members, s₁, read, run⟩ := bind_run.1 run
    obtain ⟨_, s₂, defined, run⟩ := bind_run.1 run
    obtain ⟨-, rfl⟩ := pure_run.1 run
    obtain ⟨sound, grown⟩ := references_sound (forall_items_of_smaller parts (Nat.le_refl _)) h read
    have held : s₁.Sound (some (owner ++ "OneOf", .union members)) :=
      sound.hold_plain trivial rfl (by simp)
    obtain ⟨sound, grown'⟩ := defineCompanion_sound held defined
    exact ⟨sound, grown.trans grown'⟩
  | obj attrs =>
    rw [reference] at run
    obtain ⟨type, s₁, specified, run⟩ := bind_run.1 run
    obtain ⟨_, s₂, defined, run⟩ := bind_run.1 run
    obtain ⟨-, rfl⟩ := pure_run.1 run
    have inner : ∀ part, sizeOf part < sizeOf attrs → Keeps part := by
      intro part smaller
      exact parts part (by rw [Json.obj.sizeOf_spec]; omega)
    obtain ⟨sound, grown⟩ := mappingType_sound inner h specified
    obtain ⟨sound, grown'⟩ := defineCompanion_sound sound defined
    exact ⟨sound, grown.trans grown'⟩
  | bool | int | double =>
    simp only [reference] at run
    exact absurd run fault_run

/-- By induction on the specification, whose parts are smaller. -/
theorem keeps (spec : Json) : Keeps spec :=
  keeps_of_parts fun part _ => keeps part
termination_by sizeOf spec

/-- Registering the type of a top-level specification keeps the state sound. -/
theorem loadType_sound {s s' : State} {name : String} {spec : Json} {u : Unit} (h : s.Sound none)
    (run : loadType name spec s = .ok (u, s')) : s'.Sound none := by
  obtain ⟨type, s₁, specified, defined⟩ := bind_run.1 run
  suffices s₁.Sound (some (name, type)) from (define_sound this defined).1
  cases spec with
  | null | str =>
    obtain ⟨rfl, rfl⟩ := pure_run.1 specified
    exact h.hold_plain trivial rfl nofun
  | arr items =>
    obtain ⟨members, read, rfl⟩ := map_run.1 specified
    exact (references_sound (fun item _ => keeps item) h read).1.hold_plain trivial rfl nofun
  | obj attrs => exact (mappingType_sound (fun part _ => keeps part) h specified).1
  | bool | int | double => exact absurd specified fault_run

end Loading

end DeviceTree
