import DeviceTree.Proofs.Contributions
import DeviceTree.Proofs.LayoutOrder
import DeviceTree.Proofs.Nesting

/-!
# Types in any order

A document may list its types in any order. Their specifications add the same in any order
(`restates_of_perm`), so it remains to see that what is left to do is. An integer map gets its named
fields from an enumeration, which no such step changes: `Filled` tells what a name is bound to in
the end. The checks look at what names are bound to, and the layouts of bitfields come to the same
in any order too (`layoutBitfields_perm`).

`complete_perm` puts the steps together, and `loadTypes_perm` is the result for documents.
-/

namespace DeviceTree

namespace Loading

/-! ## Integer maps -/

/-- What a name is bound to when all integer maps have their named fields. A name that does not wait
keeps its entry. -/
inductive Filled (r₀ : Registry) (imaps : List (String × PendingFields)) :
    String → Option Registry.Entry → Prop
  | other {name : String} : name ∉ imaps.map Prod.fst → Filled r₀ imaps name ( r₀.entry? name)
  | filled {name enumName : String} {p : PendingFields} {e : Enumeration} {shape : IMapShape}
      {fields : SortedMap String} :
    (name, p) ∈ imaps → p.enumName = some enumName → r₀.resolve enumName = .ok (.enum e) →
    r₀.get? name = some (.imap shape) →
    placeNamed p.location e (shape.fields.getD .empty) p.named = .ok fields →
    Filled r₀ imaps name (some ⟨.imap { shape with fields := some fields }, .custom⟩)

section Imaps

variable {r₀ r₀' r r' : Registry} {imaps imaps' rest : List (String × PendingFields)}
  {name : String} {p : PendingFields} {e? e?' : Option Registry.Entry}

theorem Filled.unique (distinct : (imaps.map Prod.fst).Nodup) (h : Filled r₀ imaps name e?)
    (h' : Filled r₀ imaps name e?') : e? = e?' := by
  cases h with
  | other absent =>
    cases h' with
    | other => rfl
    | filled mem => exact absurd (List.mem_map_of_mem mem) absent
  | filled mem named resolved found placed =>
    cases h' with
    | other absent => exact absurd (List.mem_map_of_mem mem) absent
    | filled mem' named' resolved' found' placed' =>
      cases List.inj_on_of_nodup_map distinct mem mem' rfl
      cases named.symm.trans named'
      cases resolved.symm.trans resolved'
      cases found.symm.trans found'
      cases placed.symm.trans placed'
      rfl

/-- Where the same is left to do, an integer map that waits here waits there. -/
theorem mem_of_imapTasks (perm : (imapTasks imaps).Perm (imapTasks imaps'))
    (mem : (name, p) ∈ imaps) :
    ∃ p', (name, p') ∈ imaps' ∧ p'.enumName = p.enumName ∧ p'.named = p.named := by
  have task : (name, p.enumName, p.named) ∈ imapTasks imaps := List.mem_map_of_mem mem
  obtain ⟨⟨n, p'⟩, mem', same⟩ := List.mem_map.1 (perm.mem_iff.1 task)
  simp only [Prod.mk.injEq] at same
  obtain ⟨rfl, enumName, named⟩ := same
  exact ⟨p', mem', enumName, named⟩

theorem names_of_imapTasks (perm : (imapTasks imaps).Perm (imapTasks imaps')) :
    (imaps.map Prod.fst).Perm (imaps'.map Prod.fst) := by
  rw [← names_imapTasks, ← names_imapTasks]
  exact perm.map _

theorem Filled.congr (same : ∀ n, r₀'.entry? n = r₀.entry? n)
    (perm : (imapTasks imaps).Perm (imapTasks imaps')) (h : Filled r₀ imaps name e?) :
    Filled r₀' imaps' name e? := by
  cases h with
  | other absent =>
    rw [← same]
    exact .other fun mem => absent ((names_of_imapTasks perm).mem_iff.2 mem)
  | filled mem used resolved found placed =>
    obtain ⟨p', mem', enumName, named⟩ := mem_of_imapTasks perm mem
    rw [← enumName] at used
    rw [← named] at placed
    exact .filled mem' used (Registry.resolve_congr same resolved)
      (by rw [Registry.get?_congr same, found])
      (eq_ok_of_toOption (placeNamed_anywhere ..) placed)

/-- What is known of a registry before its integer maps are complete. -/
structure Fillable (r₀ : Registry) (imaps : List (String × PendingFields)) : Prop where
  distinct : (imaps.map Prod.fst).Nodup
  registered : ∀ name p, (name, p) ∈ imaps → ∃ shape, r₀.entry? name = some ⟨.imap shape, .custom⟩

theorem fillable_of_sound {s : State} (sound : s.Sound none)
    (distinct : (s.imaps.map Prod.fst).Nodup) : Fillable s.registry s.imaps := by
  refine ⟨distinct, fun name p mem => ?_⟩
  obtain ⟨shape, found | none⟩ := sound.imaps name p mem
  · exact ⟨shape, found⟩
  · contradiction

theorem Fillable.congr (h : Fillable r₀ imaps) (same : ∀ n, r₀'.entry? n = r₀.entry? n)
    (perm : (imapTasks imaps).Perm (imapTasks imaps')) : Fillable r₀' imaps' := by
  refine ⟨(names_of_imapTasks perm).nodup_iff.1 h.distinct, fun name p mem => ?_⟩
  obtain ⟨p', mem', -, -⟩ := mem_of_imapTasks perm.symm mem
  rw [same]
  exact h.registered name p' mem'

/-- What holds while integer maps are completed: those in `rest` are bound as before, and all other
names as in the end. -/
structure Filling (r₀ : Registry) (imaps rest : List (String × PendingFields)) (r : Registry) :
    Prop where
  rewrites : r₀.Rewrites Completes r
  waiting : ∀ n ∈ rest.map Prod.fst, r.entry? n = r₀.entry? n
  filled : ∀ n, n ∉ rest.map Prod.fst → Filled r₀ imaps n (r.entry? n)

/-- An integer map is completed with the fields that its enumeration places. -/
theorem completeImap_eq_ok {shape : IMapShape} (found : r.get? name = some (.imap shape)) :
    completeImap r name p = .ok r' ↔ ∃ enumName e fields, p.enumName = some enumName ∧
      r.resolve enumName = .ok (.enum e) ∧
      placeNamed p.location e (shape.fields.getD .empty) p.named = .ok fields ∧
      r' = r.redefine name (.imap { shape with fields := some fields }) := by
  constructor
  · intro ok
    rw [completeImap] at ok
    split at ok
    · contradiction
    · next enumName used =>
      obtain ⟨e, requested, ok⟩ := bind_eq_ok.1 ok
      rw [found] at ok
      obtain ⟨fields, placed, ok⟩ := bind_eq_ok.1 ok
      cases ok
      exact ⟨enumName, e, fields, used, Registry.enumeration_eq_ok.1 requested, placed, rfl⟩
  · rintro ⟨enumName, e, fields, used, resolved, placed, rfl⟩
    rw [completeImap, used]
    refine bind_eq_ok.2 ⟨e, Registry.enumeration_eq_ok.2 resolved, ?_⟩
    rw [found]
    exact bind_eq_ok.2 ⟨fields, placed, rfl⟩

/-- Completing one integer map, or its name has no entry in the end. -/
theorem completeImap_outcome (ready : Fillable r₀ imaps) (mem : (name, p) ∈ imaps)
    (new : name ∉ rest.map Prod.fst) (h : Filling r₀ imaps ((name, p) :: rest) r) :
    match completeImap r name p with
    | .ok r' => Filling r₀ imaps rest r'
    | .error _ => ∀ e?, ¬ Filled r₀ imaps name e? := by
  obtain ⟨shape, entry⟩ := ready.registered name p mem
  have same : r.entry? name = r₀.entry? name := h.waiting name (List.mem_cons_self ..)
  have found₀ : r₀.get? name = some (.imap shape) := Registry.get?_of_bound entry
  have found : r.get? name = some (.imap shape) := Registry.get?_of_bound (same.trans entry)
  rcases completed : completeImap r name p with error | r'
  · intro e? filled
    cases filled with
    | other absent => exact absent (List.mem_map_of_mem mem)
    | filled mem' used resolved found' placed =>
      cases List.inj_on_of_nodup_map ready.distinct mem mem' rfl
      cases found₀.symm.trans found'
      have resolved := (enumeration_of_completes h.rewrites).2 resolved
      cases completed.symm.trans
        ((completeImap_eq_ok found).2 ⟨_, _, _, used, resolved, placed, rfl⟩)
  · obtain ⟨enumName, e, fields, used, resolved, placed, rfl⟩ :=
      (completeImap_eq_ok found).1 completed
    have resolved := (enumeration_of_completes h.rewrites).1 resolved
    refine ⟨h.rewrites.redefine entry ⟨_, _, rfl, rfl, rfl⟩, fun n waits => ?_, fun n done => ?_⟩
    · have other : n ≠ name := fun same => new (same ▸ waits)
      rw [Registry.entry?_redefine, if_neg other]
      exact h.waiting n (List.mem_cons_of_mem _ waits)
    · rw [Registry.entry?_redefine]
      split
      · next here =>
        rw [same, entry, here]
        exact .filled mem used resolved found₀ placed
      · next other =>
        exact h.filled n fun waits => done ((List.mem_cons.1 waits).resolve_left other)

/-- Completing the integer maps that are left: every name is bound as in the end, or some name has
no entry. -/
theorem Filling.settles (ready : Fillable r₀ imaps) (inside : rest.Sublist imaps)
    (h : Filling r₀ imaps rest r) :
    Settles (Filled r₀ imaps) (rest.foldlM (fun r (name, p) => completeImap r name p) r) := by
  induction rest generalizing r with
  | nil => exact fun n => h.filled n List.not_mem_nil
  | cons e rest ih =>
    obtain ⟨name, p⟩ := e
    have mem := inside.subset (List.mem_cons_self ..)
    have new := (List.nodup_cons.1 ((inside.map Prod.fst).nodup ready.distinct)).1
    have one := completeImap_outcome ready mem new h
    rw [List.foldlM_cons]
    dsimp only
    rcases first : completeImap r name p with error | r₁
    · rw [first] at one
      exact ⟨name, one⟩
    · rw [first] at one
      exact ih ((List.sublist_cons_self ..).trans inside) one

theorem completeImaps_settles (ready : Fillable r₀ imaps) :
    Settles (Filled r₀ imaps) (imaps.foldlM (fun r (name, p) => completeImap r name p) r₀) :=
  Filling.settles ready (.refl _) ⟨.refl _ _, fun _ _ => rfl, fun _ absent => .other absent⟩

/-- Integer maps are completed to the same registry in any order. -/
theorem completeImaps_perm (ready : Fillable r₀ imaps) (same : ∀ n, r₀'.entry? n = r₀.entry? n)
    (perm : (imapTasks imaps).Perm (imapTasks imaps'))
    (ok : imaps.foldlM (fun r (name, p) => completeImap r name p) r₀ = .ok r) :
    ∃ r', imaps'.foldlM (fun r (name, p) => completeImap r name p) r₀' = .ok r' ∧
      ∀ n, r'.entry? n = r.entry? n :=
  (completeImaps_settles ready).same (completeImaps_settles (ready.congr same perm))
    (fun _ _ _ => Filled.unique (ready.congr same perm).distinct)
    (fun _ _ => Filled.congr same perm) ok

end Imaps

/-! ## Completion -/

section Complete

variable {s s' : State} {r r₁ : Registry}

/-- Bitfields are laid out on a registry that has passed the checks. -/
theorem ready_of_completes (sound : s.Sound none) (distinct : (s.bitfields.map Prod.fst).Nodup)
    (requests : s.enumRefs.forM (fun (l, name) => discard (s.registry.enumeration l name)) = .ok ())
    (completes : s.registry.Rewrites Completes r₁) (cycles : r₁.checkCycles = .ok ()) :
    Ready r₁ s.bitfields := by
  have registered {name : String} {p : PendingBitfield} (mem : (name, p) ∈ s.bitfields) :=
    bitfield_of_completes sound completes mem
  refine ⟨Registry.acyclic_of_checkCycles (core_of_completes sound completes) cycles, distinct,
    fun _ _ => registered, fun name p mem enumName used n step waits => ?_⟩
  have enumerates := sound.enums name _ (sound.bitfields name p mem) enumName used
  obtain ⟨e, resolved⟩ := resolve_of_enumerates enumerates requests
  have resolved := (enumeration_of_completes completes).2 resolved
  obtain ⟨⟨n, q⟩, mem', rfl⟩ := List.mem_map.1 waits
  have found : r₁.get? n = some (.bitfield q.placeholder) :=
    Registry.get?_of_bound (registered mem')
  rcases Registry.get?_of_mem_aliasesFrom resolved step with none | ⟨target, «alias»⟩ | enum
  · contradiction
  · cases found.symm.trans «alias»
  · cases found.symm.trans enum

/-- What is left to do comes to the same in any order. -/
theorem complete_perm (sound : s.Sound none) (bitfields : (s.bitfields.map Prod.fst).Nodup)
    (imaps : (s.imaps.map Prod.fst).Nodup) (same : s.Same s') (ok : complete s = .ok r) :
    ∃ r', complete s' = .ok r' ∧ ∀ n, r'.entry? n = r.entry? n := by
  obtain ⟨_, requests, ok⟩ := bind_eq_ok.1 ok
  obtain ⟨r₁, completed, ok⟩ := bind_eq_ok.1 ok
  obtain ⟨_, references, ok⟩ := bind_eq_ok.1 ok
  obtain ⟨_, cycles, laid⟩ := bind_eq_ok.1 ok
  have requests' : s'.enumRefs.forM
      (fun (l, name) => discard (s'.registry.enumeration l name)) = .ok () := by
    refine forM_eq_ok.2 fun ⟨l, name⟩ mem => ?_
    obtain ⟨e, found⟩ := resolve_of_enumerates ((same.enumerates name).2 (.inl ⟨l, mem⟩)) requests
    have resolved := Registry.resolve_congr same.entries found
    exact map_eq_ok.2 ⟨e, Registry.enumeration_eq_ok.2 resolved, rfl⟩
  obtain ⟨r₁', completed', same₁⟩ :=
    completeImaps_perm (fillable_of_sound sound imaps) same.entries same.imaps completed
  have references' : r₁'.checkReferences = .ok () := by
    refine Registry.checkReferences_of_contains fun name type found target mem => ?_
    rw [Registry.contains_congr same₁]
    exact Registry.contains_of_checkReferences references (same₁ name ▸ found) target mem
  have completes := completeImaps_rewrites sound completed
  have ready := ready_of_completes sound bitfields requests completes cycles
  have cycles' : r₁'.checkCycles = .ok () :=
    Registry.checkCycles_of_acyclic (ready.acyclic.congr same₁)
  obtain ⟨r', laid', sameᵣ⟩ := layoutBitfields_perm ready same₁ same.bitfields laid
  refine ⟨r', ?_, sameᵣ⟩
  exact bind_eq_ok.2 ⟨(), requests', bind_eq_ok.2 ⟨r₁', completed', bind_eq_ok.2 ⟨(), references',
    bind_eq_ok.2 ⟨(), cycles', laid'⟩⟩⟩⟩

end Complete

/-! ## The types of a document -/

/-- Names that are declared are different, and none is taken. -/
theorem of_declareNames {r : Registry} {declared declared' names : List String}
    (ok : declareNames r declared names = .ok declared') (distinct : declared.Nodup) :
    declared' = declared ++ names ∧ (declared ++ names).Nodup ∧
      ∀ name ∈ names, r.contains name = false := by
  induction names generalizing declared with
  | nil =>
    cases ok
    rw [List.append_nil]
    exact ⟨rfl, distinct, by simp⟩
  | cons name rest ih =>
    rw [declareNames] at ok
    split at ok
    · contradiction
    · next free =>
      rw [Bool.or_eq_true, not_or, Bool.not_eq_true, List.contains_iff_mem] at free
      have distinct' : (declared ++ [name]).Nodup :=
        List.nodup_append.2 ⟨distinct, List.nodup_singleton _, fun n mem n' last same =>
          free.2 (List.mem_singleton.1 last ▸ same ▸ mem)⟩
      have others := ih ok distinct'
      rw [← List.append_cons] at others
      exact ⟨others.1, others.2.1, List.forall_mem_cons.2 ⟨free.1, others.2.2⟩⟩

/-- When the types load, other entries that come to the same load too, and all names are bound as
before. -/
theorem loadTypes_of_restates {types types' : List (String × Json)} {r : Registry}
    (restates : Restates types types') (ok : loadTypes types = .ok r) :
    ∃ r', loadTypes types' = .ok r' ∧ ∀ name, r'.entry? name = r.entry? name := by
  obtain ⟨declared, names, loaded⟩ := bind_eq_ok.1 ok
  obtain ⟨⟨_, s⟩, run, completed⟩ := bind_eq_ok.1 loaded
  obtain ⟨rfl, -, -⟩ := of_declareNames names List.nodup_nil
  rw [List.nil_append] at run
  obtain ⟨bitfields, imaps, distinct', free', s', run', same⟩ := loadAll_of_restates restates run
  have sound := loadAll_sound (initial_sound _) run
  obtain ⟨r', completed', entries⟩ := complete_perm sound bitfields imaps same completed
  exact ⟨r', bind_eq_ok.2 ⟨_, declareNames_eq_ok free' distinct',
    bind_eq_ok.2 ⟨((), s'), run', completed'⟩⟩, entries⟩

/-- When the types load, they load in another order too, and all names are bound as before. -/
theorem loadTypes_of_perm {types types' : List (String × Json)} {r : Registry}
    (perm : types.Perm types') (ok : loadTypes types = .ok r) :
    ∃ r', loadTypes types' = .ok r' ∧ ∀ name, r'.entry? name = r.entry? name :=
  loadTypes_of_restates (restates_of_perm perm) ok

/-- The order of the types of a document does not matter. In any two orders, both load or neither
does; where they load, all names are bound to the same types with the same origins, and the
registries differ in the order of their entries only. -/
theorem loadTypes_perm {types types' : List (String × Json)} (perm : types.Perm types') :
    ((∃ r, loadTypes types = .ok r) ↔ ∃ r', loadTypes types' = .ok r') ∧
      ∀ r r', loadTypes types = .ok r → loadTypes types' = .ok r' →
        (∀ name, r'.entry? name = r.entry? name) ∧ r.entries.entries.Perm r'.entries.entries := by
  have forward {types types' : List (String × Json)} (perm : types.Perm types') :
      (∃ r, loadTypes types = .ok r) → ∃ r', loadTypes types' = .ok r' := by
    rintro ⟨r, ok⟩
    obtain ⟨r', ok', -⟩ := loadTypes_of_perm perm ok
    exact ⟨r', ok'⟩
  refine ⟨⟨forward perm, forward perm.symm⟩, fun r r' ok ok' => ?_⟩
  obtain ⟨_, ok'', entries⟩ := loadTypes_of_perm perm ok
  cases ok'.symm.trans ok''
  refine ⟨entries, (List.perm_ext_iff_of_nodup (.of_map _ r.entries.distinct)
    (.of_map _ r'.entries.distinct)).2 fun e => ?_⟩
  have same := entries e.1
  rw [← OrderedMap.get?_eq_some, ← OrderedMap.get?_eq_some]
  exact iff_of_eq (congrArg (· = some e.2) same.symm)

/-- A map before the enumeration that it uses. Its field is named by an alias, and the type of the
field is specified in place. -/
def pinTypes : List (String × Json) :=
  [("pin", .obj [("type", .str "IMap"), ("enum", .str "mode"), ("fields", .obj [("on",
      .obj [("type", .str "Bitfield"), ("types", .arr [.null, .str "Bool"])])])]),
    ("mode", .obj [("type", .str "Enum"), ("values", .arr [.str "off", .str "on"])])]

/-- The types load in the other order too. The field has the same place in the map, and its type the
same layout. -/
theorem pinTypes_reverse :
    ∃ r r', loadTypes pinTypes = .ok r ∧ loadTypes pinTypes.reverse = .ok r' ∧
      r'.get? "pin" = some (.imap ⟨some ⟨[(1, "pinonType")], by simp⟩, some "mode"⟩) ∧
      r'.get? "pinonType" = some (.bitfield ⟨[⟨1, 1, "Bool"⟩], none⟩) ∧
      r.entries.entries.Perm r'.entries.entries := by
  have run : (fun r : Registry => (r.get? "pin", r.get? "pinonType")) <$> loadTypes pinTypes =
      .ok (some (.imap ⟨some ⟨[(1, "pinonType")], by simp⟩, some "mode"⟩),
        some (.bitfield ⟨[⟨1, 1, "Bool"⟩], none⟩)) := by cbv
  obtain ⟨r, loads, found⟩ := map_eq_ok.1 run
  obtain ⟨pin, field⟩ := Prod.mk.inj found
  obtain ⟨both, same⟩ := loadTypes_perm pinTypes.reverse_perm.symm
  obtain ⟨r', loads'⟩ := both.1 ⟨r, loads⟩
  obtain ⟨entries, perm⟩ := same r r' loads loads'
  refine ⟨r, r', loads, loads', ?_, ?_, perm⟩
  · rw [Registry.get?_congr entries, pin]
  · rw [Registry.get?_congr entries, field]

end Loading

end DeviceTree
