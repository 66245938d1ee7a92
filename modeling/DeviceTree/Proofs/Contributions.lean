import DeviceTree.Proofs.Locations
import DeviceTree.Proofs.Specifications

/-!
# What specifications add

The interpretation of a specification looks at the state only to see which names are taken. So what
it adds does not depend on the state: a `Contribution` of types and of what is left to do. Where it
has succeeded once, it succeeds on every state in which the names of the contribution are free, with
the same result (`Uniform`).

`adds` is the induction over specifications. `loadAll_eq_ok` takes the loading of all types apart
into what the entries come to, and `loadAll_of_free` puts it together again. What contributions make
of the fresh registry does not depend on their order, nor on where the specifications stand
(`Contribution.Same`).
-/

namespace DeviceTree

namespace Registry

variable {r : Registry} {types types' : List (String × TypeDef)} {name : String}

/-- The registry with more custom types. -/
def extend (r : Registry) (types : List (String × TypeDef)) : Registry :=
  types.foldl (fun r (name, type) => ⟨r.entries.insert name ⟨type, .custom⟩⟩) r

theorem extend_append : r.extend (types ++ types') = (r.extend types).extend types' :=
  List.foldl_append

theorem entry?_extend_singleton {type : TypeDef} (n : String) :
    entry? (r.extend [(name, type)]) n =
      if n = name then some ⟨type, .custom⟩ else r.entry? n :=
  OrderedMap.get?_insert ..

theorem extend_cons (e : String × TypeDef) :
    r.extend (e :: types) = (r.extend [e]).extend types :=
  rfl

theorem contains_extend : (r.extend types).contains name = true ↔
    name ∈ types.map Prod.fst ∨ r.contains name = true := by
  induction types generalizing r with
  | nil => simp [extend]
  | cons e rest ih =>
    obtain ⟨n, type⟩ := e
    rw [extend_cons, ih, List.map_cons, List.mem_cons]
    by_cases same : name = n
    · simp [contains, entry?_extend_singleton, same]
    · simp [contains, entry?_extend_singleton, same]

/-- Types of different names are found in the extended registry, and other names are as before. -/
theorem entry?_extend (distinct : (types.map Prod.fst).Nodup) :
    entry? (r.extend types) name =
      ((types.lookup name).map (⟨·, .custom⟩)).or (r.entry? name) := by
  induction types generalizing r with
  | nil => rfl
  | cons e rest ih =>
    obtain ⟨n, type⟩ := e
    rw [List.map_cons, List.nodup_cons] at distinct
    rw [extend_cons, ih distinct.2, entry?_extend_singleton, lookup_cons_eq_ite]
    by_cases same : name = n
    · subst same
      have absent : rest.lookup name = none := by
        rw [List.lookup_eq_none_iff]
        rintro ⟨n, t⟩ mem
        have other : name ≠ n := fun same => distinct.1 (same ▸ List.mem_map.2 ⟨_, mem, rfl⟩)
        simpa using other
      rw [absent, if_pos rfl, if_pos rfl]
      rfl
    · rw [if_neg same, if_neg same]

/-- The types have different names, and none is taken. -/
structure Free (r : Registry) (types : List (String × TypeDef)) : Prop where
  distinct : (types.map Prod.fst).Nodup
  new : ∀ name ∈ types.map Prod.fst, r.contains name = false

theorem free_append :
    r.Free (types ++ types') ↔ r.Free types ∧ (r.extend types).Free types' := by
  have new (name : String) : (r.extend types).contains name = false ↔
      name ∉ types.map Prod.fst ∧ r.contains name = false := by
    rw [← Bool.not_eq_true, contains_extend, not_or, Bool.not_eq_true]
  constructor
  · rintro ⟨distinct, free⟩
    rw [List.map_append] at distinct free
    obtain ⟨left, right, apart⟩ := List.nodup_append.1 distinct
    refine ⟨⟨left, fun name mem => free name (List.mem_append_left _ mem)⟩, right, ?_⟩
    intro name mem
    exact (new name).2 ⟨fun before => apart name before name mem rfl,
      free name (List.mem_append_right _ mem)⟩
  · rintro ⟨⟨left, free⟩, right, free'⟩
    constructor
    · rw [List.map_append, List.nodup_append]
      refine ⟨left, right, fun name mem name' mem' same => ?_⟩
      exact ((new name').1 (free' name' mem')).1 (same ▸ mem)
    · intro name mem
      rw [List.map_append, List.mem_append] at mem
      exact mem.elim (free name) fun mem => ((new name).1 (free' name mem)).2

/-- Free types are registered after those that are there. -/
theorem customTypes_extend (free : r.Free types) :
    (r.extend types).customTypes = r.customTypes ++ types := by
  induction types generalizing r with
  | nil => exact (List.append_nil _).symm
  | cons e rest ih =>
    obtain ⟨n, type⟩ := e
    obtain ⟨first, others⟩ : r.Free [(n, type)] ∧ (r.extend [(n, type)]).Free rest :=
      free_append.1 free
    have absent : n ∉ r.entries.entries.map Prod.fst := by
      rw [← OrderedMap.keys, ← OrderedMap.isSome_get?, Bool.not_eq_true]
      exact first.new n (List.mem_singleton_self n)
    have one : (r.extend [(n, type)]).customTypes = r.customTypes ++ [(n, type)] := by
      show ((putEntry n ⟨type, .custom⟩ r.entries.entries).filter _).map _ = _
      rw [putEntry_of_not_mem absent, List.filter_append, List.map_append]
      rfl
    rw [extend_cons, ih others, one, List.append_assoc, List.singleton_append]

end Registry

namespace Loading

/-! ## Contributions -/

/-- What is added to a state, each in order. -/
structure Contribution where
  types : List (String × TypeDef) := []
  bitfields : List (String × PendingBitfield) := []
  imaps : List (String × PendingFields) := []
  enumRefs : List (Location × String) := []

namespace Contribution

/-- What two computations one after another add. -/
instance : Append Contribution :=
  ⟨fun c c' => ⟨c.types ++ c'.types, c.bitfields ++ c'.bitfields, c.imaps ++ c'.imaps,
    c.enumRefs ++ c'.enumRefs⟩⟩

/-- What computations one after another add. -/
def join (cs : List Contribution) : Contribution :=
  cs.foldr (· ++ ·) {}

/-- A single type. -/
def ofType (name : String) (type : TypeDef) : Contribution :=
  { types := [(name, type)] }

/-- What waits are types of the contribution, in order, but for the last one, which may be held. -/
structure Leaves (held : List String) (c : Contribution) : Prop where
  bitfields : (c.bitfields.map Prod.fst).Sublist (c.types.map Prod.fst ++ held)
  imaps : (c.imaps.map Prod.fst).Sublist (c.types.map Prod.fst ++ held)

variable {held : List String} {c c' : Contribution}

theorem Leaves.empty : Leaves held {} :=
  ⟨List.nil_sublist _, List.nil_sublist _⟩

theorem Leaves.hold (h : Leaves [] c) : Leaves held c :=
  ⟨(by simpa using h.bitfields : List.Sublist _ _).trans (List.sublist_append_left ..),
    (by simpa using h.imaps : List.Sublist _ _).trans (List.sublist_append_left ..)⟩

theorem Leaves.append (h : Leaves [] c) (h' : Leaves held c') : Leaves held (c ++ c') := by
  constructor
  · show ((c.bitfields ++ c'.bitfields).map Prod.fst).Sublist
      ((c.types ++ c'.types).map Prod.fst ++ held)
    rw [List.map_append, List.map_append, List.append_assoc]
    exact (by simpa using h.bitfields : List.Sublist _ _).append h'.bitfields
  · show ((c.imaps ++ c'.imaps).map Prod.fst).Sublist
      ((c.types ++ c'.types).map Prod.fst ++ held)
    rw [List.map_append, List.map_append, List.append_assoc]
    exact (by simpa using h.imaps : List.Sublist _ _).append h'.imaps

/-- The type that is held is added last. -/
theorem Leaves.release {name : String} (h : Leaves [name] c) (type : TypeDef) :
    Leaves [] (c ++ ofType name type) := by
  constructor
  · show ((c.bitfields ++ []).map Prod.fst).Sublist ((c.types ++ [(name, type)]).map Prod.fst ++ [])
    simpa using h.bitfields
  · show ((c.imaps ++ []).map Prod.fst).Sublist ((c.types ++ [(name, type)]).map Prod.fst ++ [])
    simpa using h.imaps

theorem append_assoc (c d e : Contribution) : c ++ d ++ e = c ++ (d ++ e) := by
  show Contribution.mk (c.types ++ d.types ++ e.types) (c.bitfields ++ d.bitfields ++ e.bitfields)
    (c.imaps ++ d.imaps ++ e.imaps) (c.enumRefs ++ d.enumRefs ++ e.enumRefs) = _
  simp only [List.append_assoc]
  rfl

theorem empty_append (c : Contribution) : {} ++ c = c :=
  rfl

theorem append_empty (c : Contribution) : c ++ {} = c := by
  show Contribution.mk (c.types ++ []) (c.bitfields ++ []) (c.imaps ++ []) (c.enumRefs ++ []) = c
  simp only [List.append_nil]

/-- The contributions differ only in where specifications stand. -/
structure Like (c c' : Contribution) : Prop where
  types : c'.types = c.types
  bitfields : bitfieldTasks c'.bitfields = bitfieldTasks c.bitfields
  imaps : imapTasks c'.imaps = imapTasks c.imaps
  requests : c'.enumRefs.map Prod.snd = c.enumRefs.map Prod.snd

theorem Like.refl (c : Contribution) : c.Like c :=
  ⟨rfl, rfl, rfl, rfl⟩

theorem Like.append {d d' : Contribution} (h : c.Like c') (h' : d.Like d') :
    (c ++ d).Like (c' ++ d') := by
  constructor
  · exact congrArg₂ _ h.types h'.types
  · show bitfieldTasks (c'.bitfields ++ d'.bitfields) = bitfieldTasks (c.bitfields ++ d.bitfields)
    rw [bitfieldTasks_append, bitfieldTasks_append, h.bitfields, h'.bitfields]
  · show imapTasks (c'.imaps ++ d'.imaps) = imapTasks (c.imaps ++ d.imaps)
    rw [imapTasks_append, imapTasks_append, h.imaps, h'.imaps]
  · show (c'.enumRefs ++ d'.enumRefs).map Prod.snd = (c.enumRefs ++ d.enumRefs).map Prod.snd
    rw [List.map_append, List.map_append, h.requests, h'.requests]

theorem Leaves.like (h : Leaves held c) (like : c.Like c') : Leaves held c' := by
  constructor
  · rw [← names_bitfieldTasks, like.bitfields, names_bitfieldTasks, like.types]
    exact h.bitfields
  · rw [← names_imapTasks, like.imaps, names_imapTasks, like.types]
    exact h.imaps

end Contribution

open Contribution

namespace State

variable {s : State} {c c' : Contribution}

/-- The state with a contribution. -/
def add (s : State) (c : Contribution) : State :=
  { registry := s.registry.extend c.types
    declared := s.declared
    bitfields := s.bitfields ++ c.bitfields
    imaps := s.imaps ++ c.imaps
    enumRefs := s.enumRefs ++ c.enumRefs }

theorem add_empty : s.add {} = s := by
  simp [add, Registry.extend]

theorem add_append : s.add (c ++ c') = (s.add c).add c' := by
  show State.mk (s.registry.extend (c.types ++ c'.types)) _ (_ ++ (_ ++ _)) (_ ++ (_ ++ _))
    (_ ++ (_ ++ _)) = _
  rw [Registry.extend_append, ← List.append_assoc, ← List.append_assoc, ← List.append_assoc]
  rfl

/-- The names of the contribution are new to the state and to the document. -/
structure Admits (s : State) (c : Contribution) : Prop where
  free : s.registry.Free c.types
  undeclared : ∀ name ∈ c.types.map Prod.fst, name ∉ s.declared

theorem admits_of_nil (none : c.types = []) : s.Admits c := by
  constructor
  · rw [none]
    exact ⟨List.nodup_nil, by simp⟩
  · simp [none]

theorem admits_append : s.Admits (c ++ c') ↔ s.Admits c ∧ (s.add c).Admits c' := by
  have types : (c ++ c').types = c.types ++ c'.types := rfl
  constructor
  · rintro ⟨free, undeclared⟩
    rw [types, Registry.free_append] at free
    rw [types, List.map_append, List.forall_mem_append] at undeclared
    exact ⟨⟨free.1, undeclared.1⟩, free.2, undeclared.2⟩
  · rintro ⟨⟨free, undeclared⟩, free', undeclared'⟩
    constructor
    · rw [types, Registry.free_append]
      exact ⟨free, free'⟩
    · rw [types, List.map_append, List.forall_mem_append]
      exact ⟨undeclared, undeclared'⟩

theorem admits_like {d : Contribution} (like : c.Like c') :
    (s.add c').Admits d ↔ (s.add c).Admits d := by
  have registry : (s.add c').registry = (s.add c).registry := by
    show s.registry.extend c'.types = s.registry.extend c.types
    rw [like.types]
  constructor
  · rintro ⟨free, undeclared⟩
    exact ⟨registry ▸ free, undeclared⟩
  · rintro ⟨free, undeclared⟩
    exact ⟨registry ▸ free, undeclared⟩

/-- What has been added can be told from the state. -/
theorem eq_of_add_eq (h : s.Admits c) (h' : s.Admits c') (same : s.add c = s.add c') : c = c' := by
  obtain ⟨types, bitfields, imaps, enumRefs⟩ := c
  obtain ⟨types', bitfields', imaps', enumRefs'⟩ := c'
  simp only [add, State.mk.injEq, true_and, List.append_cancel_left_eq] at same
  obtain ⟨registry, rfl, rfl, rfl⟩ := same
  have customs := congrArg Registry.customTypes registry
  rw [Registry.customTypes_extend h.free, Registry.customTypes_extend h'.free,
    List.append_cancel_left_eq] at customs
  obtain rfl : types = types' := customs
  rfl

end State

open State

/-! ## Computations that add the same to all states -/

/-- Where the first computation has succeeded once, the second gives the same result and adds the
like to every state that admits it. A type may be held, which is not added yet. -/
structure Uniform {α : Type} (held : List String) (x y : LoadM α) : Prop where
  run : ∀ {s s' : State} {a : α}, x s = .ok (a, s') →
    ∃ c c', Leaves held c ∧ c.Like c' ∧ s.Admits c ∧ s' = s.add c ∧
      ∀ t : State, t.Admits c → y t = .ok (a, t.add c')

namespace Uniform

variable {α β : Type} {held : List String} {x y : LoadM α} {f g : α → LoadM β} {s : State}

theorem admits_empty : s.Admits {} :=
  admits_of_nil rfl

protected theorem pure (a : α) : Uniform held (pure a) (pure a) := by
  constructor
  intro s s' b run
  obtain ⟨rfl, rfl⟩ := pure_run.1 run
  exact ⟨{}, {}, .empty, .refl _, admits_empty, add_empty.symm,
    fun t _ => pure_run.2 ⟨rfl, add_empty.symm⟩⟩

theorem lift {e e' : Except LoadError α} (same : e.toOption = e'.toOption) :
    Uniform held (liftM e : LoadM α) (liftM e') := by
  constructor
  intro s s' a run
  obtain ⟨ok, rfl⟩ := lift_run.1 run
  exact ⟨{}, {}, .empty, .refl _, admits_empty, add_empty.symm,
    fun t _ => lift_run.2 ⟨eq_ok_of_toOption same ok, add_empty.symm⟩⟩

theorem fault {l : Location} {e : FormatFault} : Uniform held (fault l e : LoadM α) y :=
  ⟨fun run => absurd run fault_run⟩

protected theorem bind (hx : Uniform [] x y) (hf : ∀ a, Uniform held (f a) (g a)) :
    Uniform held (x >>= f) (y >>= g) := by
  constructor
  intro s s' b run
  obtain ⟨a, s₁, first, second⟩ := bind_run.1 run
  obtain ⟨c, c', leaves, like, admits, rfl, again⟩ := hx.run first
  obtain ⟨d, d', leaves', like', admits', rfl, again'⟩ := (hf a).run second
  refine ⟨c ++ d, c' ++ d', leaves.append leaves', like.append like',
    admits_append.2 ⟨admits, admits'⟩, add_append.symm, fun t admits => ?_⟩
  obtain ⟨admits, admits'⟩ := admits_append.1 admits
  exact bind_run.2 ⟨a, t.add c', again t admits,
    add_append ▸ again' _ ((admits_like like).2 admits')⟩

theorem hold (hx : Uniform [] x y) : Uniform held x y := by
  constructor
  intro s s' a run
  obtain ⟨c, c', leaves, rest⟩ := hx.run run
  exact ⟨c, c', leaves.hold, rest⟩

/-- What follows may be checked before the result is given. -/
theorem check (hx : Uniform held x y) {f g : α → Except LoadError Unit}
    (same : ∀ a, (f a).toOption = (g a).toOption) :
    Uniform held (x >>= fun a => do liftM (f a); pure a)
      (y >>= fun a => do liftM (g a); pure a) := by
  constructor
  intro s s' b run
  obtain ⟨a, s₁, first, second⟩ := bind_run.1 run
  obtain ⟨u, s₂, checked, second⟩ := bind_run.1 second
  obtain ⟨ok, rfl⟩ := lift_run.1 checked
  obtain ⟨rfl, rfl⟩ := pure_run.1 second
  obtain ⟨c, c', leaves, like, admits, rfl, again⟩ := hx.run first
  refine ⟨c, c', leaves, like, admits, rfl, fun t admits => ?_⟩
  refine bind_run.2 ⟨a, _, again t admits, bind_run.2 ⟨u, _, ?_, pure_run.2 ⟨rfl, rfl⟩⟩⟩
  exact lift_run.2 ⟨eq_ok_of_toOption (same a) ok, rfl⟩

protected theorem map (hx : Uniform held x y) (g : α → β) : Uniform held (g <$> x) (g <$> y) := by
  constructor
  intro s s' b run
  obtain ⟨a, first, rfl⟩ := map_run.1 run
  obtain ⟨c, c', leaves, like, admits, rfl, again⟩ := hx.run first
  exact ⟨c, c', leaves, like, admits, rfl, fun t admits => map_run.2 ⟨a, again t admits, rfl⟩⟩

theorem give (hx : Uniform held x y) (g : α → β) :
    Uniform held (do let a ← x; pure (g a)) (do let a ← y; pure (g a)) := by
  rw [bind_pure_comp, bind_pure_comp]
  exact hx.map g

/-- Notes of what is left to do take no name. -/
theorem modify {f g : State → State} {c d : Contribution} (adds : ∀ s : State, f s = s.add c)
    (adds' : ∀ s : State, g s = s.add d) (like : c.Like d) (types : c.types = [])
    (leaves : Leaves held c) : Uniform held (modify f : LoadM Unit) (modify g) := by
  constructor
  intro s s' u run
  obtain rfl := modify_run.1 run
  exact ⟨c, d, leaves, like, admits_of_nil types, adds s, fun t _ => modify_run.2 (adds' t)⟩

end Uniform

section Define

variable {s s' : State} {name : String} {type : TypeDef} {l l' : Location} {u : Unit}

theorem define_eq_ok (free : s.registry.contains name = false) :
    define name type s = .ok ((), s.add (ofType name type)) := by
  refine define_run.2 ⟨s.registry.extend [(name, type)], ?_, ?_⟩
  · rw [Registry.define, free]
    rfl
  · simp [add, ofType]

theorem define_adds (run : define name type s = .ok (u, s')) :
    s.registry.contains name = false ∧ s' = s.add (ofType name type) := by
  obtain ⟨r, defined, -⟩ := define_run.1 run
  have free : s.registry.contains name = false := by
    rw [Registry.contains, (Registry.define_eq_ok defined).1, Option.isSome_none]
  cases run.symm.trans (define_eq_ok free)
  exact ⟨free, rfl⟩

theorem admits_ofType :
    s.Admits (ofType name type) ↔ s.registry.contains name = false ∧ name ∉ s.declared := by
  constructor
  · rintro ⟨⟨-, free⟩, undeclared⟩
    exact ⟨free name (List.mem_singleton_self _), undeclared name (List.mem_singleton_self _)⟩
  · rintro ⟨free, undeclared⟩
    constructor
    · exact ⟨List.nodup_singleton _, by simpa [ofType] using free⟩
    · simpa [ofType] using undeclared

theorem defineCompanion_run : defineCompanion l name type s = .ok (u, s') ↔
    s.Admits (ofType name type) ∧ s' = s.add (ofType name type) := by
  rw [admits_ofType]
  constructor
  · intro run
    obtain ⟨free, added⟩ := define_adds (define_of_defineCompanion run)
    obtain ⟨s₁, s₂, got, run⟩ := bind_run.1 run
    cases got
    split at run
    · contradiction
    · next taken =>
      rw [Bool.or_eq_true, not_or] at taken
      exact ⟨⟨free, by simpa using taken.1⟩, added⟩
  · rintro ⟨⟨free, undeclared⟩, rfl⟩
    refine bind_run.2 ⟨s, s, rfl, ?_⟩
    rw [free, Bool.or_false, if_neg (by simpa using undeclared)]
    exact define_eq_ok free

/-- The companion type that is held is registered under its name. -/
theorem Uniform.companion {α : Type} {x y : LoadM α} {g : α → TypeDef}
    (hx : Uniform [name] x y) :
    Uniform [] (do let a ← x; defineCompanion l name (g a); pure name)
      (do let a ← y; defineCompanion l' name (g a); pure name) := by
  constructor
  intro s s' n run
  obtain ⟨a, s₁, first, run⟩ := bind_run.1 run
  obtain ⟨_, s₂, defined, run⟩ := bind_run.1 run
  obtain ⟨rfl, rfl⟩ := pure_run.1 run
  obtain ⟨c, c', leaves, like, admits, rfl, again⟩ := hx.run first
  obtain ⟨admits', rfl⟩ := defineCompanion_run.1 defined
  refine ⟨c ++ ofType name (g a), c' ++ ofType name (g a), leaves.release _, like.append (.refl _),
    admits_append.2 ⟨admits, admits'⟩, add_append.symm, fun t admits => ?_⟩
  obtain ⟨admits, admits'⟩ := admits_append.1 admits
  refine bind_run.2 ⟨a, _, again t admits, bind_run.2 ⟨(), _, ?_, pure_run.2 ⟨rfl, rfl⟩⟩⟩
  exact defineCompanion_run.2 ⟨(admits_like like).2 admits', add_append⟩

end Define

/-! ## Specifications -/

section Parts

variable {l l' : Location} {owner name : String} {attrs : Attributes} {spec : Json}

theorem enumReference_uniform :
    Uniform [] (enumReference l owner spec) (enumReference l' owner spec) := by
  cases spec with
  | str n =>
    refine .bind (.modify (c := { enumRefs := [(l, n)] }) (d := { enumRefs := [(l', n)] })
      (fun s => ?_) (fun s => ?_) ⟨rfl, rfl, rfl, rfl⟩ rfl ?_) fun _ => .pure n
    · simp [State.add, Registry.extend]
    · simp [State.add, Registry.extend]
    · exact ⟨List.nil_sublist _, List.nil_sublist _⟩
  | arr items => exact .companion (g := .enum) (.lift (enumeration_anywhere l l'))
  | _ => exact .fault

theorem enumAttribute_uniform :
    Uniform [] (enumAttribute l owner attrs) (enumAttribute l' owner attrs) := by
  rw [enumAttribute, enumAttribute]
  cases attrs.get? "enum" with
  | some spec => exact enumReference_uniform.map _
  | none => exact .pure _

/-- A bitfield waits for its layout under the name that it is held for. -/
theorem bitfieldShape_uniform {slots : Option (List BitSlot)} {enumName : Option String}
    {b : BitfieldShape} :
    Uniform [name]
      (do modify fun s => { s with bitfields := s.bitfields ++ [(name, ⟨l, slots, enumName⟩)] }
          pure b)
      (do modify fun s => { s with bitfields := s.bitfields ++ [(name, ⟨l', slots, enumName⟩)] }
          pure b) := by
  refine .give (.modify (c := { bitfields := [(name, ⟨l, slots, enumName⟩)] })
    (d := { bitfields := [(name, ⟨l', slots, enumName⟩)] }) (fun s => ?_) (fun s => ?_)
    ⟨rfl, rfl, rfl, rfl⟩ rfl ⟨.refl _, List.nil_sublist _⟩) _
  · simp [State.add, Registry.extend]
  · simp [State.add, Registry.extend]

theorem bitfieldType_uniform :
    Uniform [name] (bitfieldType l name attrs) (bitfieldType l' name attrs) :=
  .bind (.lift (slotsAttribute_anywhere ..)) fun _ =>
    enumAttribute_uniform.bind fun _ => bitfieldShape_uniform

/-- The fields of an integer map that wait for its enumeration. -/
def waitingFields (l : Location) (name : String) (enumName : Option String)
    (fields : IMapFields) : Contribution :=
  { imaps :=
      if fields.named.isEmpty then []
      else [(name, ⟨l.join "fields", enumName, fields.named⟩)] }

/-- An integer map waits for its named fields under the name that it is held for. -/
theorem imapShape_uniform {enumName : Option String} {fields : Option IMapFields} :
    Uniform [name] (imapShape l name enumName fields) (imapShape l' name enumName fields) := by
  cases fields with
  | none => exact .pure _
  | some fields =>
    refine .give (.modify (c := waitingFields l name enumName fields)
      (d := waitingFields l' name enumName fields) (fun s => ?_) (fun s => ?_) ?_ rfl ?_) _
    · simp [State.add, Registry.extend, waitingFields]
    · simp [State.add, Registry.extend, waitingFields]
    · refine ⟨rfl, rfl, ?_, rfl⟩
      unfold waitingFields
      split <;> rfl
    · refine ⟨List.nil_sublist _, ?_⟩
      unfold waitingFields
      split
      · exact List.nil_sublist _
      · exact .refl _

/-- Interpreting the specification where a name is expected adds the like to all states, wherever it
stands. -/
structure Adds (spec : Json) : Prop where
  reference : ∀ l l' owner, Uniform [] (reference l owner spec) (reference l' owner spec)

theorem references_uniform {items : List Json} (parts : ∀ item ∈ items, Adds item)
    {place place' : Nat → Location} {i : Nat} :
    Uniform [] (references place owner i items) (references place' owner i items) := by
  induction items generalizing i with
  | nil =>
    rw [references, references]
    exact .pure _
  | cons item rest ih =>
    rw [List.forall_mem_cons] at parts
    rw [references, references]
    exact (parts.1.reference ..).bind fun name => (ih parts.2).give _

theorem fieldReferences_uniform {specs : List (String × Json)} (parts : ∀ p ∈ specs, Adds p.2) :
    Uniform [] (fieldReferences l owner specs) (fieldReferences l' owner specs) := by
  induction specs with
  | nil =>
    rw [fieldReferences, fieldReferences]
    exact .pure _
  | cons entry rest ih =>
    rw [List.forall_mem_cons] at parts
    rw [fieldReferences, fieldReferences]
    exact (parts.1.reference ..).bind fun name => (ih parts.2).give _

theorem imapReferences_uniform {specs : List (String × Json)} (parts : ∀ p ∈ specs, Adds p.2)
    {acc : IMapFields} :
    Uniform [] (imapReferences l owner acc specs) (imapReferences l' owner acc specs) := by
  induction specs generalizing acc with
  | nil =>
    rw [imapReferences, imapReferences]
    exact .pure _
  | cons entry rest ih =>
    rw [List.forall_mem_cons] at parts
    rw [imapReferences, imapReferences]
    exact (parts.1.reference ..).bind fun name =>
      .bind (.lift (add_anywhere ..)) fun acc => ih parts.2

section Kinds

variable (parts : ∀ spec, sizeOf spec < sizeOf attrs → Adds spec)

include parts

theorem listType_uniform : Uniform [] (listType l name attrs) (listType l' name attrs) := by
  rw [listType, listType]
  refine .bind (.lift (Attributes.size_anywhere ..)) fun minLength =>
    .bind (.lift (Attributes.size_anywhere ..)) fun maxLength =>
      .bind (.lift (checkOrder_anywhere ..)) fun _ => ?_
  cases attrs.nested? "allowed" with
  | some spec => exact ((parts spec.1 spec.2).reference ..).give _
  | none => exact .pure _

theorem tupleType_uniform : Uniform [] (tupleType l name attrs) (tupleType l' name attrs) := by
  rw [tupleType, tupleType]
  cases attrs.nested? "items" with
  | none => exact .bind (.pure _) fun items => enumAttribute_uniform.give _
  | some spec =>
    obtain ⟨spec, smaller⟩ := spec
    cases spec with
    | arr items =>
      have inside := forall_items_of_smaller parts (Nat.le_of_lt smaller)
      exact (references_uniform inside).bind fun items => enumAttribute_uniform.give _
    | _ => exact .bind .fault fun items => enumAttribute_uniform.give _

theorem mapType_uniform : Uniform [] (mapType l name attrs) (mapType l' name attrs) := by
  rw [mapType, mapType]
  cases attrs.nested? "fields" with
  | none => exact .pure _
  | some spec =>
    obtain ⟨spec, smaller⟩ := spec
    cases spec with
    | obj fields =>
      have inside := forall_fields_of_smaller parts (Nat.le_of_lt smaller)
      exact (fieldReferences_uniform inside).give _
    | _ => exact .fault

theorem imapType_uniform : Uniform [name] (imapType l name attrs) (imapType l' name attrs) := by
  rw [imapType, imapType]
  refine enumAttribute_uniform.bind fun enumName => ?_
  cases attrs.nested? "fields" with
  | none => exact .bind (.pure _) fun fields => imapShape_uniform
  | some spec =>
    obtain ⟨spec, smaller⟩ := spec
    cases spec with
    | obj fields =>
      have inside := forall_fields_of_smaller parts (Nat.le_of_lt smaller)
      exact ((imapReferences_uniform inside).map _).bind fun fields => imapShape_uniform
    | arr items =>
      exact .bind (.lift (numberFields_anywhere ..)) fun placed =>
        .bind (.pure _) fun fields => imapShape_uniform
    | _ => exact .bind .fault fun fields => imapShape_uniform

theorem kindType_uniform {kind : String} :
    Uniform [name] (kindType l kind name attrs) (kindType l' kind name attrs) := by
  rw [kindType.eq_def, kindType.eq_def]
  split
  · exact bitfieldType_uniform.map _
  · exact ((listType_uniform parts).map _).hold
  · exact ((tupleType_uniform parts).map _).hold
  · exact ((mapType_uniform parts).map _).hold
  · exact (imapType_uniform parts).map _
  · exact .lift (plainType_anywhere ..)

theorem mappingType_uniform :
    Uniform [name] (mappingType l name attrs) (mappingType l' name attrs) := by
  rw [mappingType, mappingType]
  refine .bind (.lift (Attributes.string_anywhere ..)) fun kind => ?_
  cases kind with
  | some kind => exact (kindType_uniform parts).check fun _ => checkRecognized_anywhere ..
  | none => exact .fault

end Kinds

theorem adds_of_parts (parts : ∀ part, sizeOf part < sizeOf spec → Adds part) : Adds spec := by
  refine ⟨fun l l' owner => ?_⟩
  cases spec with
  | null | str =>
    rw [reference, reference]
    exact .pure _
  | arr items =>
    rw [reference, reference]
    exact (references_uniform (forall_items_of_smaller parts (Nat.le_refl _))).hold.companion
  | obj attrs =>
    rw [reference, reference]
    have inner : ∀ part, sizeOf part < sizeOf attrs → Adds part := by
      intro part smaller
      exact parts part (by rw [Json.obj.sizeOf_spec]; omega)
    exact (mappingType_uniform inner).companion (g := id)
  | bool | int | double =>
    simp only [reference]
    exact .fault

/-- By induction on the specification, whose parts are smaller. -/
theorem adds (spec : Json) : Adds spec :=
  adds_of_parts fun part _ => adds part
termination_by sizeOf spec

/-- The type of a top-level specification is held for its name. -/
theorem specifiedType_uniform :
    Uniform [name] (specifiedType l name spec) (specifiedType l' name spec) := by
  cases spec with
  | null | str => exact .pure _
  | arr items => exact ((references_uniform fun item _ => adds item).map _).hold
  | obj attrs => exact mappingType_uniform fun part _ => adds part
  | bool | int | double => exact .fault

end Parts

/-! ## The types of a document -/

/-- The computation gives the result and adds the contribution, on every state that admits it. -/
structure Yields {α : Type} (held : List String) (x : LoadM α) (a : α) (c : Contribution) :
    Prop where
  leaves : Leaves held c
  run : ∀ t : State, t.Admits c → x t = .ok (a, t.add c)

theorem Uniform.yields {α : Type} {held : List String} {x : LoadM α} {s s' : State} {a : α}
    (hx : Uniform held x x) (run : x s = .ok (a, s')) :
    ∃ c, Yields held x a c ∧ s.Admits c ∧ s' = s.add c := by
  obtain ⟨c, c', leaves, like, admits, rfl, again⟩ := hx.run run
  have admits' : s.Admits c' := ⟨like.types ▸ admits.free, like.types ▸ admits.undeclared⟩
  have same : s.add c = s.add c' :=
    (Prod.mk.inj (Except.ok.inj (run.symm.trans (again s admits)))).2
  cases eq_of_add_eq admits admits' same
  exact ⟨c, ⟨leaves, again⟩, admits, rfl⟩

/-- What an entry of a document comes to: its type, and what is added before that. -/
structure Interpreted where
  name : String
  parts : Contribution
  type : TypeDef

/-- All that the entry adds. -/
def Interpreted.whole (i : Interpreted) : Contribution :=
  i.parts ++ ofType i.name i.type

/-- All that entries add, one after another. -/
def total (is : List Interpreted) : Contribution :=
  join (is.map (·.whole))

/-- The entry comes to that. -/
structure Interprets (e : String × Json) (i : Interpreted) : Prop where
  name : i.name = e.1
  yields : Yields [e.1] (specifiedType (.ofType e.1) e.1 e.2) i.type i.parts

section Types

variable {s s' t : State} {u : Unit} {types types' : List (String × Json)} {e : String × Json}
  {i : Interpreted} {is is' : List Interpreted}

theorem total_cons : total (i :: is) = i.whole ++ total is :=
  rfl

theorem leaves_total (h : List.Forall₂ Interprets types is) : Leaves [] (total is) := by
  induction h with
  | nil => exact .empty
  | cons first _ ih => exact (Leaves.release (first.name ▸ first.yields.leaves) _).append ih

/-- A single type is free when its name is. -/
theorem free_ofType {r : Registry} {name : String} {type : TypeDef} :
    r.Free (ofType name type).types ↔ r.contains name = false := by
  constructor
  · intro free
    exact free.new name (List.mem_singleton_self _)
  · intro free
    exact ⟨List.nodup_singleton _, by simpa [ofType] using free⟩

theorem free_whole {r : Registry} : r.Free i.whole.types ↔
    r.Free i.parts.types ∧ (r.extend i.parts.types).contains i.name = false := by
  rw [← free_ofType]
  exact Registry.free_append

theorem loadType_eq_ok (run : loadType e.1 e.2 s = .ok (u, s')) :
    ∃ i, Interprets e i ∧ s.registry.Free i.whole.types ∧ s' = s.add i.whole := by
  obtain ⟨type, s₁, specified, defined⟩ := bind_run.1 run
  obtain ⟨c, yields, admits, rfl⟩ := specifiedType_uniform.yields specified
  obtain ⟨free, rfl⟩ := define_adds defined
  exact ⟨⟨e.1, c, type⟩, ⟨rfl, yields⟩, free_whole.2 ⟨admits.free, free⟩, add_append.symm⟩

theorem Interprets.loads (h : Interprets e i) (free : t.registry.Free i.whole.types)
    (undeclared : ∀ name ∈ i.parts.types.map Prod.fst, name ∉ t.declared) :
    loadType e.1 e.2 t = .ok ((), t.add i.whole) := by
  obtain ⟨parts, last⟩ := free_whole.1 free
  refine bind_run.2 ⟨i.type, t.add i.parts, h.yields.run t ⟨parts, undeclared⟩, ?_⟩
  rw [← h.name, Interpreted.whole, add_append]
  exact define_eq_ok last

/-- What has been loaded is what the entries come to, in order. -/
theorem loadAll_eq_ok
    (run : (types.forM fun (name, spec) => loadType name spec) s = .ok (u, s')) :
    ∃ is, List.Forall₂ Interprets types is ∧ s.registry.Free (total is).types ∧
      s' = s.add (total is) := by
  induction types generalizing s with
  | nil =>
    obtain ⟨-, rfl⟩ := pure_run.1 run
    exact ⟨[], .nil, Uniform.admits_empty.free, add_empty.symm⟩
  | cons e rest ih =>
    obtain ⟨_, s₁, one, others⟩ := bind_run.1 run
    obtain ⟨i, first, free, rfl⟩ := loadType_eq_ok (e := e) one
    obtain ⟨is, later, free', rfl⟩ := ih others
    exact ⟨i :: is, .cons first later, Registry.free_append.2 ⟨free, free'⟩, add_append.symm⟩

theorem loadAll_of_interprets (h : List.Forall₂ Interprets types is)
    (undeclared : ∀ i ∈ is, ∀ name ∈ i.parts.types.map Prod.fst, name ∉ t.declared)
    (free : t.registry.Free (total is).types) :
    (types.forM fun (name, spec) => loadType name spec) t = .ok ((), t.add (total is)) := by
  induction h generalizing t with
  | nil => exact pure_run.2 ⟨rfl, add_empty.symm⟩
  | cons first _ ih =>
    rw [List.forall_mem_cons] at undeclared
    obtain ⟨free, free'⟩ := Registry.free_append.1 free
    refine bind_run.2 ⟨(), _, first.loads free undeclared.1, ?_⟩
    rw [total_cons, add_append]
    exact ih undeclared.2 free'

/-- The names of all types are those of the parts and those of the entries. -/
theorem names_total_perm (h : List.Forall₂ Interprets types is) :
    ((total is).types.map Prod.fst).Perm
      (is.flatMap (·.parts.types.map Prod.fst) ++ types.map Prod.fst) := by
  induction h with
  | nil => exact .refl _
  | @cons e i types is first _ ih =>
    have names : (total (i :: is)).types.map Prod.fst =
        i.parts.types.map Prod.fst ++ e.1 :: (total is).types.map Prod.fst := by
      show ((i.parts.types ++ [(i.name, i.type)]) ++ (total is).types).map Prod.fst = _
      rw [first.name, List.append_assoc, List.map_append]
      rfl
    rw [names, List.flatMap_cons, List.map_cons, List.append_assoc]
    exact ((ih.cons _).trans List.perm_middle.symm).append_left _

/-- Entries load when the names of what they come to are different and new. The derived names are
then none that the document declares. -/
theorem loadAll_of_free (h : List.Forall₂ Interprets types is)
    (free : Registry.fresh.Free (total is).types) :
    (types.forM fun (name, spec) => loadType name spec)
        { registry := .fresh, declared := types.map Prod.fst } =
      .ok ((), State.add { registry := .fresh, declared := types.map Prod.fst } (total is)) := by
  refine loadAll_of_interprets h (fun i mem name inside declared => ?_) free
  have apart := (List.nodup_append.1 ((names_total_perm h).nodup_iff.1 free.distinct)).2.2
  exact apart name (List.mem_flatMap.2 ⟨i, mem, inside⟩) name declared rfl

end Types

/-! ## The same contributions -/

/-- The name is used for an enumeration, or denotes one. -/
def Contribution.Enumerates (c : Contribution) (name : String) : Prop :=
  (∃ l, (l, name) ∈ c.enumRefs) ∨ ∃ e, (name, .enum e) ∈ c.types

/-- The contributions have the same types and leave the same to do, in any order and wherever the
specifications stand. -/
structure Contribution.Same (c c' : Contribution) : Prop where
  types : c.types.Perm c'.types
  bitfields : (bitfieldTasks c.bitfields).Perm (bitfieldTasks c'.bitfields)
  imaps : (imapTasks c.imaps).Perm (imapTasks c'.imaps)
  enumerates : ∀ name, c.Enumerates name ↔ c'.Enumerates name

/-- The states bind the same names to the same types, and have the same left to do, in any order and
wherever the specifications stand. -/
structure State.Same (s s' : State) : Prop where
  entries : ∀ name, s'.registry.entry? name = s.registry.entry? name
  bitfields : (bitfieldTasks s.bitfields).Perm (bitfieldTasks s'.bitfields)
  imaps : (imapTasks s.imaps).Perm (imapTasks s'.imaps)
  enumerates : ∀ name, s.Enumerates name ↔ s'.Enumerates name

theorem lookup_eq_of_perm {α : Type} {entries entries' : List (String × α)} (name : String)
    (distinct : (entries.map Prod.fst).Nodup) (perm : entries.Perm entries') :
    entries'.lookup name = entries.lookup name := by
  have distinct' : (entries'.map Prod.fst).Nodup := (perm.map _).nodup_iff.1 distinct
  ext value
  rw [lookup_eq_some_iff_mem distinct, lookup_eq_some_iff_mem distinct', perm.mem_iff]

section Same

variable {c c' d d' : Contribution} {s s' : State} {types types' : List (String × Json)}
  {is is' : List Interpreted} {declared declared' : List String}

namespace Contribution

theorem enumerates_append {name : String} :
    (c ++ d).Enumerates name ↔ c.Enumerates name ∨ d.Enumerates name := by
  show ((∃ l, (l, name) ∈ c.enumRefs ++ d.enumRefs) ∨ ∃ e, (name, .enum e) ∈ c.types ++ d.types) ↔ _
  simp only [List.mem_append, exists_or, Enumerates]
  tauto

theorem Same.refl (c : Contribution) : c.Same c :=
  ⟨.refl _, .refl _, .refl _, fun _ => .rfl⟩

theorem Same.symm (h : c.Same d) : d.Same c :=
  ⟨h.types.symm, h.bitfields.symm, h.imaps.symm, fun name => (h.enumerates name).symm⟩

theorem Same.trans (h : c.Same d) (h' : d.Same d') : c.Same d' :=
  ⟨h.types.trans h'.types, h.bitfields.trans h'.bitfields, h.imaps.trans h'.imaps,
    fun name => (h.enumerates name).trans (h'.enumerates name)⟩

theorem Same.append (h : c.Same c') (h' : d.Same d') : (c ++ d).Same (c' ++ d') := by
  refine ⟨h.types.append h'.types, ?_, ?_, fun name => ?_⟩
  · show (List.map _ (c.bitfields ++ d.bitfields)).Perm (List.map _ (c'.bitfields ++ d'.bitfields))
    rw [List.map_append, List.map_append]
    exact h.bitfields.append h'.bitfields
  · show (List.map _ (c.imaps ++ d.imaps)).Perm (List.map _ (c'.imaps ++ d'.imaps))
    rw [List.map_append, List.map_append]
    exact h.imaps.append h'.imaps
  · rw [enumerates_append, enumerates_append, h.enumerates, h'.enumerates]

theorem same_comm (c d : Contribution) : (c ++ d).Same (d ++ c) :=
  ⟨List.perm_append_comm, List.perm_append_comm.map _, List.perm_append_comm.map _,
    fun name => by rw [enumerates_append, enumerates_append, or_comm]⟩

end Contribution

theorem entry?_of_mem {r : Registry} {name : String} {type : TypeDef} (free : r.Free c.types)
    (mem : (name, type) ∈ c.types) :
    Registry.entry? (r.extend c.types) name = some ⟨type, .custom⟩ := by
  rw [Registry.entry?_extend free.distinct, (lookup_eq_some_iff_mem free.distinct).2 mem]
  rfl

theorem Contribution.Same.free {r : Registry} (h : c.Same c') (free : r.Free c.types) :
    r.Free c'.types :=
  ⟨(h.types.map _).nodup_iff.1 free.distinct,
    fun name mem => free.new name ((h.types.map _).mem_iff.2 mem)⟩

theorem Contribution.Same.entries {r : Registry} (h : c.Same c') (free : r.Free c.types)
    (name : String) :
    Registry.entry? (r.extend c'.types) name = Registry.entry? (r.extend c.types) name := by
  rw [Registry.entry?_extend free.distinct, Registry.entry?_extend (h.free free).distinct,
    lookup_eq_of_perm name free.distinct h.types]

/-- A name used for an enumeration by one contribution is so in a state with the other. -/
theorem Contribution.Same.enumerates_add {s s' : State} {name : String} (h : c.Same c')
    (free : s.registry.Free c.types) (same : s'.registry = s.registry) (start : s.enumRefs = [])
    (uses : (s.add c).Enumerates name) : (s'.add c').Enumerates name := by
  rcases uses with ⟨l, mem⟩ | ⟨e, found⟩
  · have mem : (l, name) ∈ s.enumRefs ++ c.enumRefs := mem
    rw [start, List.nil_append] at mem
    rcases (h.enumerates name).1 (.inl ⟨l, mem⟩) with ⟨l', mem'⟩ | ⟨e, mem'⟩
    · exact .inl ⟨l', List.mem_append_right _ mem'⟩
    · refine .inr ⟨e, ?_⟩
      show Registry.entry? (s'.registry.extend c'.types) name = _
      rw [same]
      exact entry?_of_mem (h.free free) mem'
  · refine .inr ⟨e, ?_⟩
    show Registry.entry? (s'.registry.extend c'.types) name = _
    rw [same, h.entries free]
    exact found

/-- The same contributions to the fresh registry make the same states. -/
theorem Contribution.Same.add (h : c.Same c') (free : Registry.fresh.Free c.types) :
    (State.add { registry := .fresh, declared } c).Same
      (State.add { registry := .fresh, declared := declared' } c') where
  entries := h.entries free
  bitfields := by simpa only [State.add, List.nil_append] using h.bitfields
  imaps := by simpa only [State.add, List.nil_append] using h.imaps
  enumerates _ :=
    ⟨h.enumerates_add free rfl rfl, h.symm.enumerates_add (h.free free) rfl rfl⟩

theorem total_perm (perm : is.Perm is') : (total is).Same (total is') := by
  induction perm with
  | nil => exact .refl _
  | cons i _ ih => exact (Contribution.Same.refl _).append ih
  | swap i j is =>
    rw [total_cons, total_cons, total_cons, total_cons, ← Contribution.append_assoc,
      ← Contribution.append_assoc]
    exact (Contribution.same_comm ..).append (.refl _)
  | trans _ _ ih ih' => exact ih.trans ih'

/-- What waits after entries have been loaded has different names. -/
theorem nodup_waiting (h : List.Forall₂ Interprets types is)
    (free : Registry.fresh.Free (total is).types) :
    ((total is).bitfields.map Prod.fst).Nodup ∧ ((total is).imaps.map Prod.fst).Nodup := by
  obtain ⟨bitfields, imaps⟩ := leaves_total h
  rw [List.append_nil] at bitfields imaps
  exact ⟨bitfields.nodup free.distinct, imaps.nodup free.distinct⟩

/-- Whatever the entries come to, the other entries come to the same. -/
def Restates (types types' : List (String × Json)) : Prop :=
  ∀ is, List.Forall₂ Interprets types is → Registry.fresh.Free (total is).types →
    ∃ is', List.Forall₂ Interprets types' is' ∧ (total is).Same (total is')

theorem restates_of_perm (perm : types.Perm types') : Restates types types' := by
  intro is interprets _
  obtain ⟨is', interprets', perm'⟩ := List.perm_comp_forall₂ perm.symm interprets
  exact ⟨is', interprets', total_perm perm'.symm⟩

/-- Loading entries that come to the same gives the same state, and what waits has different
names. The names of the entries are different and new. -/
theorem loadAll_of_restates (restates : Restates types types') {s : State} {u : Unit}
    (run : (types.forM fun (name, spec) => loadType name spec)
      { registry := .fresh, declared := types.map Prod.fst } = .ok (u, s)) :
    (s.bitfields.map Prod.fst).Nodup ∧ (s.imaps.map Prod.fst).Nodup ∧
      (types'.map Prod.fst).Nodup ∧
      (∀ name ∈ types'.map Prod.fst, Registry.fresh.contains name = false) ∧
      ∃ s', (types'.forM fun (name, spec) => loadType name spec)
        { registry := .fresh, declared := types'.map Prod.fst } = .ok ((), s') ∧ s.Same s' := by
  obtain ⟨is, interprets, free, rfl⟩ := loadAll_eq_ok run
  obtain ⟨is', interprets', same⟩ := restates is interprets free
  have free' := same.free free
  have names := names_total_perm interprets'
  obtain ⟨bitfields, imaps⟩ := nodup_waiting interprets free
  refine ⟨bitfields, imaps, (List.nodup_append.1 (names.nodup_iff.1 free'.distinct)).2.1, ?_, _,
    loadAll_of_free interprets' free', same.add free⟩
  intro name mem
  exact free'.new name (names.mem_iff.2 (List.mem_append_right _ mem))

end Same

end Loading

end DeviceTree
