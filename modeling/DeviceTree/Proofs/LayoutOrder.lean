import DeviceTree.Proofs.Completion
import DeviceTree.Proofs.Locations

/-!
# Layouts in any order

A layout is read off the types that the bitfield leads to by aliases (`fieldLayout_of_agree`). So
what a name is bound to in the end can be told without the order of layouts: `Final` derives it from
the registry before them, where the layout of a bitfield comes after all that it is read off.

`layoutBitfield_outcome` says what a layout comes to: the names that wait no longer have their final
entries, and where it fails, some name has none. So the pass settles the final entries
(`layoutBitfields_settles`). They are unique (`Final.unique`) and do not depend on the order of what
is pending, so the pass gives the same in any order (`layoutBitfields_perm`).
-/

namespace DeviceTree

namespace Registry

variable {r r' : Registry} {l : Location} {start name : String} {type : TypeDef} {e : Enumeration}

/-- A registered name that stands for an enumeration gives it wherever it is used. -/
theorem enumeration_eq_ok : r.enumeration l name = .ok e ↔ r.resolve name = .ok (.enum e) := by
  constructor
  · exact Loading.resolve_of_enumeration
  · intro resolved
    have registered : r.contains name = true := by
      obtain ⟨-, ⟨target, found, -⟩ | ⟨found, -⟩⟩ := resolveFrom_eq_ok resolved
      · exact contains_iff.2 ⟨_, found⟩
      · exact contains_iff.2 ⟨_, found⟩
    rw [enumeration, registered, resolved]
    rfl

/-- A chain of aliases that leads to a type consists of aliases and the name of that type. -/
theorem get?_of_mem_aliasesFrom {chain : List String} {name n : String}
    (resolved : r.resolveFrom start chain name = .ok type) (mem : n ∈ r.aliasesFrom chain name) :
    n ∈ chain ∨ (∃ target, r.get? n = some (.alias target)) ∨ r.get? n = some type := by
  obtain ⟨unseen, ⟨target, found, next⟩ | ⟨found, plain⟩⟩ := resolveFrom_eq_ok resolved
  · rw [aliasesFrom_alias found unseen] at mem
    rcases get?_of_mem_aliasesFrom next mem with before | other
    · rcases List.mem_append.1 before with before | last
      · exact .inl before
      · exact .inr (.inl ⟨target, List.mem_singleton.1 last ▸ found⟩)
    · exact .inr other
  · have last (target : String) : r.get? name ≠ some (.alias target) := fun same =>
      plain target (Option.some.inj (found.symm.trans same))
    rw [aliasesFrom_plain last unseen] at mem
    rcases List.mem_append.1 mem with before | last
    · exact .inl before
    · exact .inr (.inr (List.mem_singleton.1 last ▸ found))
termination_by r.unvisited chain
decreasing_by
  exact unvisited_lt (mem_names_of_get? found) unseen (by simp [or_comm])

section Congr

variable (same : ∀ n, r'.entry? n = r.entry? n)

include same

theorem get?_congr (n : String) : r'.get? n = r.get? n := by
  rw [get?, same, get?]

theorem contains_congr (n : String) : r'.contains n = r.contains n := by
  rw [contains, same, contains]

theorem aliases_congr (n : String) : r'.aliases n = r.aliases n :=
  aliasesFrom_congr fun n _ target => by rw [get?_congr same]

theorem resolve_congr (ok : r.resolve name = .ok type) : r'.resolve name = .ok type :=
  resolveFrom_of_agree (fun n _ => get?_congr same n) ok

theorem Acyclic.congr (acyclic : r.Acyclic) : r'.Acyclic := by
  have refers : r'.Refers = r.Refers := by
    funext name target
    simp only [Refers, get?_congr same]
  intro name
  rw [refers]
  exact acyclic name

end Congr

end Registry

namespace Loading

/-! ## What a layout is read off -/

/-- The names of the types that the layout of a bitfield is read off: those of its slots, or its
enumeration. -/
def PendingBitfield.reads (p : PendingBitfield) : List String :=
  match p.slots with
  | some _ => p.typeNames
  | none => p.enumName.toList

section Agreement

variable {r r' : Registry} {l l' : Location} {p p' : PendingBitfield}

theorem fieldWidth_of_agree {typeName : String} {width : Nat}
    (same : ∀ n ∈ r.aliases typeName, r'.get? n = r.get? n)
    (h : fieldWidth r l typeName = .ok width) : fieldWidth r' l' typeName = .ok width := by
  rw [fieldWidth, Registry.bitSpan_of_agree same (fieldWidth_eq_ok h)]

theorem placeSlots_of_agree {slots : List BitSlot} {start : Int} {placed : List PlacedField}
    (same : ∀ typeName ∈ slots.filterMap BitSlot.typeName?, ∀ n ∈ r.aliases typeName,
      r'.get? n = r.get? n)
    (h : placeSlots r l start slots = .ok placed) : placeSlots r' l' start slots = .ok placed := by
  induction slots generalizing start placed with
  | nil => exact h
  | cons slot rest ih =>
    cases slot with
    | skip count => exact ih same h
    | next typeName | «at» typeName =>
      obtain ⟨width, measured, h⟩ := bind_eq_ok.1 h
      obtain ⟨others, placed, h⟩ := bind_eq_ok.1 h
      cases h
      have here : fieldWidth r' l' typeName = .ok width :=
        fieldWidth_of_agree (same typeName (List.mem_cons_self ..)) measured
      have below := ih (fun name mem => same name (List.mem_cons_of_mem _ mem)) placed
      exact bind_eq_ok.2 ⟨width, here, bind_eq_ok.2 ⟨others, below, rfl⟩⟩

/-- A layout depends only on the types that it is read off and the aliases that lead to them, and
not on where the bitfield is specified. -/
theorem fieldLayout_of_agree {fields : List BitField} (slots : p'.slots = p.slots)
    (enumName : p'.enumName = p.enumName)
    (same : ∀ name ∈ p.reads, ∀ n ∈ r.aliases name, r'.get? n = r.get? n)
    (h : fieldLayout r p = .ok fields) : fieldLayout r' p' = .ok fields := by
  obtain ⟨placed, ok, checked⟩ := bind_eq_ok.1 h
  refine bind_eq_ok.2 ⟨placed, ?_, eq_ok_of_toOption (checkPlaces_anywhere ..) checked⟩
  obtain ⟨l', slots', enumName'⟩ := p'
  cases slots
  cases enumName
  obtain ⟨l, slots, enumName⟩ := p
  cases slots with
  | some slots => exact placeSlots_of_agree same ok
  | none =>
    cases enumName with
    | none => exact ok
    | some name =>
      obtain ⟨e, found, rfl⟩ := map_eq_ok.1 ok
      have resolved := Registry.resolveFrom_of_agree (same name (List.mem_singleton_self _))
        (Registry.enumeration_eq_ok.1 found)
      exact map_eq_ok.2 ⟨e, Registry.enumeration_eq_ok.2 resolved, rfl⟩

end Agreement

/-! ## What passes come to -/

/-- What a pass comes to that binds every name as `P` says: it fails only where `P` leaves some name
without an entry. -/
def Settles (P : String → Option Registry.Entry → Prop) : Except LoadError Registry → Prop
  | .ok r => ∀ name, P name (r.entry? name)
  | .error _ => ∃ name, ∀ e?, ¬ P name e?

/-- A pass that binds names in one way only succeeds where another has bound them so, and to the
same. -/
theorem Settles.same {P P' : String → Option Registry.Entry → Prop}
    {x x' : Except LoadError Registry} {r : Registry} (h : Settles P x) (h' : Settles P' x')
    (unique : ∀ name e? e?', P' name e? → P' name e?' → e? = e?')
    (congr : ∀ name e?, P name e? → P' name e?) (ok : x = .ok r) :
    ∃ r', x' = .ok r' ∧ ∀ n, r'.entry? n = r.entry? n := by
  subst ok
  rcases x' with e | r'
  · obtain ⟨name, none⟩ := h'
    exact absurd (congr name _ (h name)) (none _)
  · exact ⟨r', rfl, fun n => unique n _ _ (h' n) (congr n _ (h n))⟩

/-! ## Final entries -/

/-- What a name is bound to when all bitfields are laid out. A name that is not pending keeps its
entry. A layout is that in a registry where all that it is read off has its final entry. -/
inductive Final (r₀ : Registry) (pending : List (String × PendingBitfield)) :
    String → Option Registry.Entry → Prop
  | other {name : String} : name ∉ pending.map Prod.fst → Final r₀ pending name ( r₀.entry? name)
  | laid {name : String} {p : PendingBitfield} {fields : List BitField} (r : Registry) :
    (name, p) ∈ pending →
    (∀ read ∈ p.reads, ∀ n ∈ r₀.aliases read, Final r₀ pending n (r.entry? n)) →
    fieldLayout r p = .ok fields →
    Final r₀ pending name (some ⟨.bitfield ⟨fields, p.enumName⟩, .custom⟩)

/-- What is known of a registry before the layouts of what is pending. -/
structure Ready (r₀ : Registry) (pending : List (String × PendingBitfield)) : Prop where
  acyclic : r₀.Acyclic
  distinct : (pending.map Prod.fst).Nodup
  registered : ∀ name p, (name, p) ∈ pending →
    r₀.entry? name = some ⟨.bitfield p.placeholder, .custom⟩
  /-- The enumerations that name fields do not lead to what is pending. -/
  named : ∀ name p, (name, p) ∈ pending → ∀ e ∈ p.enumName, ∀ n ∈ r₀.aliases e,
    n ∉ pending.map Prod.fst

section Passes

variable {r₀ r₀' : Registry} {pending pending' : List (String × PendingBitfield)}
  {path : List String} {u u' : Unfinished} {name : String} {e? : Option Registry.Entry}

/-- Layouts make and remove no alias. -/
theorem Final.alias_iff (ready : Ready r₀ pending) (h : Final r₀ pending name e?)
    (target : String) :
    e?.map (·.type) = some (.alias target) ↔ r₀.get? name = some (.alias target) := by
  cases h with
  | other => rfl
  | laid r mem =>
    rw [Registry.get?_of_bound (ready.registered _ _ mem)]
    simp

theorem aliases_of_final (ready : Ready r₀ pending) {r : Registry}
    (h : ∀ n ∈ r₀.aliases name, Final r₀ pending n (r.entry? n)) :
    r.aliases name = r₀.aliases name :=
  Registry.aliasesFrom_congr fun n mem target => (h n mem).alias_iff ready target

/-- A layout is the same in all registries where what it is read off has the same final entries. -/
theorem fieldLayout_of_final (ready : Ready r₀ pending) {r r' : Registry} {p : PendingBitfield}
    {fields : List BitField}
    (final : ∀ read ∈ p.reads, ∀ n ∈ r₀.aliases read, Final r₀ pending n (r.entry? n))
    (same : ∀ read ∈ p.reads, ∀ n ∈ r₀.aliases read, r'.entry? n = r.entry? n)
    (laid : fieldLayout r p = .ok fields) : fieldLayout r' p = .ok fields := by
  refine fieldLayout_of_agree rfl rfl (fun read inside n step => ?_) laid
  rw [aliases_of_final ready (final read inside)] at step
  rw [Registry.get?, same read inside n step, Registry.get?]

/-- A name has one final entry. By induction on how it is derived: two layouts are read off
registries that agree where it matters. -/
theorem Final.unique (ready : Ready r₀ pending) {e?' : Option Registry.Entry}
    (h : Final r₀ pending name e?) (h' : Final r₀ pending name e?') :
    e? = e?' := by
  induction h generalizing e?' with
  | other absent =>
    cases h' with
    | other => rfl
    | laid r mem => exact absurd (List.mem_map_of_mem mem) absent
  | @laid name p fields r mem final laid ih =>
    cases h' with
    | other absent => exact absurd (List.mem_map_of_mem mem) absent
    | laid r' mem' final' laid' =>
      cases List.inj_on_of_nodup_map ready.distinct mem mem' rfl
      have same (read : String) (inside : read ∈ p.reads) (n : String)
          (step : n ∈ r₀.aliases read) : r'.entry? n = r.entry? n :=
        (ih read inside n step (final' read inside n step)).symm
      cases laid'.symm.trans (fieldLayout_of_final ready final same laid)
      rfl

/-- Where the same is left to do, a bitfield that waits here waits there. -/
theorem mem_of_bitfieldTasks {p : PendingBitfield}
    (perm : (bitfieldTasks pending).Perm (bitfieldTasks pending')) (mem : (name, p) ∈ pending) :
    ∃ p', (name, p') ∈ pending' ∧ p'.slots = p.slots ∧ p'.enumName = p.enumName := by
  have task : (name, p.slots, p.enumName) ∈ bitfieldTasks pending := List.mem_map_of_mem mem
  obtain ⟨⟨n, p'⟩, mem', same⟩ := List.mem_map.1 (perm.mem_iff.1 task)
  simp only [Prod.mk.injEq] at same
  obtain ⟨rfl, slots, enumName⟩ := same
  exact ⟨p', mem', slots, enumName⟩

theorem names_of_bitfieldTasks (perm : (bitfieldTasks pending).Perm (bitfieldTasks pending')) :
    (pending.map Prod.fst).Perm (pending'.map Prod.fst) := by
  rw [← names_bitfieldTasks, ← names_bitfieldTasks]
  exact perm.map _

/-- Final entries depend on what names are bound to and on what is left to do, and not on the order
of it. -/
theorem Final.congr (same : ∀ n, r₀'.entry? n = r₀.entry? n)
    (perm : (bitfieldTasks pending).Perm (bitfieldTasks pending'))
    (h : Final r₀ pending name e?) : Final r₀' pending' name e? := by
  induction h with
  | @other name absent =>
    rw [← same]
    exact .other fun mem => absent ((names_of_bitfieldTasks perm).mem_iff.2 mem)
  | @laid name p fields r mem _ laid ih =>
    obtain ⟨p', mem', slots, enumName⟩ := mem_of_bitfieldTasks perm mem
    have reads : p'.reads = p.reads := by
      rw [PendingBitfield.reads, slots, enumName, PendingBitfield.typeNames, slots]
      rfl
    rw [← enumName]
    refine .laid r mem' (fun read inside n step => ?_)
      (fieldLayout_of_agree slots enumName (fun _ _ _ _ => rfl) laid)
    rw [reads] at inside
    rw [Registry.aliases_congr same] at step
    exact ih read inside n step

/-! ## The pass -/

/-- What holds while bitfields are laid out: the names that wait are bound as before, all others
have their final entries. -/
structure Underway (r₀ : Registry) (pending : List (String × PendingBitfield))
    (path : List String) (u : Unfinished) : Prop where
  rest : u.pending.Sublist pending
  waiting : ∀ n, u.Waits path n →
    n ∈ pending.map Prod.fst ∧ u.registry.entry? n = r₀.entry? n
  final : ∀ n, ¬ u.Waits path n → Final r₀ pending n (u.registry.entry? n)

theorem Underway.aliases (ready : Ready r₀ pending) (h : Underway r₀ pending path u)
    (name : String) : u.registry.aliases name = r₀.aliases name := by
  refine Registry.aliasesFrom_congr fun n _ target => ?_
  by_cases waits : u.Waits path n
  · rw [Registry.get?, (h.waiting n waits).2, Registry.get?]
  · exact (h.final n waits).alias_iff ready target

/-- When a layout begins, its bitfield waits on the path. -/
theorem Underway.begin (h : Underway r₀ pending path u) (mem : name ∈ u.pending.map Prod.fst) :
    Underway r₀ pending (name :: path) { u with pending := u.pending.filter (·.1 != name) } := by
  refine ⟨List.filter_sublist.trans h.rest, fun n => ?_, fun n => ?_⟩
  · rw [Unfinished.waits_begin mem]
    exact h.waiting n
  · rw [Unfinished.waits_begin mem]
    exact h.final n

/-- When a layout ends, its bitfield has its final entry and waits no longer. -/
theorem Underway.finish {b : BitfieldShape} (h : Underway r₀ pending (name :: path) u)
    (custom : ∃ type, r₀.entry? name = some ⟨type, .custom⟩) (off : name ∉ path)
    (gone : name ∉ u.pending.map Prod.fst)
    (final : Final r₀ pending name (some ⟨.bitfield b, .custom⟩)) :
    Underway r₀ pending path { u with registry := u.registry.redefine name (.bitfield b) } := by
  refine ⟨h.rest, fun n waits => ?_, fun n done => ?_⟩
  · have other : n ≠ name := by
      rintro rfl
      exact waits.elim off gone
    rw [Registry.entry?_redefine, if_neg other]
    exact h.waiting n (waits.imp_left (List.mem_cons_of_mem _))
  · rw [Registry.entry?_redefine]
    split
    · next same =>
      obtain ⟨type, found⟩ := custom
      rw [(h.waiting name (.inl (List.mem_cons_self ..))).2, found, same]
      exact final
    · next other =>
      refine h.final n fun waits => done ?_
      exact waits.imp_left fun mem => (List.mem_cons.1 mem).resolve_left other

/-- What layouts come to: the names given wait no longer, or some name has no final entry. -/
def Outcome (r₀ : Registry) (pending : List (String × PendingBitfield)) (path : List String)
    (u : Unfinished) (names : List String) : Except LoadError Unfinished → Prop
  | .ok u' => Underway r₀ pending path u' ∧ u'.pending.Sublist u.pending ∧
      ∀ name ∈ names, name ∉ u'.pending.map Prod.fst
  | .error _ => ∃ name, ∀ e?, ¬ Final r₀ pending name e?

/-- Layouts one after another, when each comes to an outcome. -/
theorem foldlM_outcome {depth : Nat} {names : List String}
    (step : ∀ {u : Unfinished} {name : String}, Underway r₀ pending path u →
      u.pending.length ≤ depth → (∀ q ∈ path, Relation.TransGen r₀.Refers q name) →
      Outcome r₀ pending path u [name] (layoutBitfield depth u name))
    (h : Underway r₀ pending path u) (enough : u.pending.length ≤ depth)
    (above : ∀ name ∈ names, ∀ q ∈ path, Relation.TransGen r₀.Refers q name) :
    Outcome r₀ pending path u names (names.foldlM (layoutBitfield depth) u) := by
  induction names generalizing u with
  | nil => exact ⟨h, .refl _, by simp⟩
  | cons name rest ih =>
    rw [List.forall_mem_cons] at above
    have one := step h enough above.1
    rw [List.foldlM_cons]
    rcases first : layoutBitfield depth u name with e | u₁
    · rw [first] at one
      exact one
    · rw [first] at one
      obtain ⟨h₁, fewer₁, gone⟩ := one
      have others := ih h₁ (fewer₁.length_le.trans enough) above.2
      show Outcome _ _ _ _ _ (rest.foldlM (layoutBitfield depth) u₁)
      rcases later : rest.foldlM (layoutBitfield depth) u₁ with e | u₂
      · rw [later] at others
        exact others
      · rw [later] at others
        obtain ⟨h₂, fewer₂, gone'⟩ := others
        refine ⟨h₂, fewer₂.trans fewer₁, List.forall_mem_cons.2 ⟨fun mem => ?_, gone'⟩⟩
        exact gone name (List.mem_singleton_self _) ((fewer₂.map _).subset mem)

/-- What the layout of a bitfield is read off waits no longer when all that it depends on is laid
out. -/
theorem Underway.not_waits_of_read (ready : Ready r₀ pending) {p : PendingBitfield}
    (h : Underway r₀ pending (name :: path) u) (mem : (name, p) ∈ pending)
    (above : ∀ q ∈ path, Relation.TransGen r₀.Refers q name)
    (done : ∀ n ∈ p.dependencies r₀, n ∉ u.pending.map Prod.fst) :
    ∀ read ∈ p.reads, ∀ n ∈ r₀.aliases read, ¬ u.Waits (name :: path) n := by
  intro read inside n step waits
  rw [PendingBitfield.reads] at inside
  split at inside
  · have dependency : n ∈ p.dependencies r₀ := List.mem_flatMap.2 ⟨read, inside, step⟩
    exact not_waits_of_dependency ready.acyclic ready.registered mem above done dependency waits
  · exact ready.named name p mem read (Option.mem_toList.1 inside) n step (h.waiting n waits).1

/-- What the layout of a bitfield comes to when all that it depends on is laid out: its entry is
final, or it has none. -/
theorem Underway.outcome_of_fieldLayout (ready : Ready r₀ pending) {p : PendingBitfield}
    (h : Underway r₀ pending (name :: path) u) (mem : (name, p) ∈ pending)
    (above : ∀ q ∈ path, Relation.TransGen r₀.Refers q name)
    (done : ∀ n ∈ p.dependencies r₀, n ∉ u.pending.map Prod.fst)
    (gone : name ∉ u.pending.map Prod.fst) :
    match fieldLayout u.registry p with
    | .ok fields => Underway r₀ pending path
        { u with registry := u.registry.redefine name (.bitfield ⟨fields, p.enumName⟩) }
    | .error _ => ∃ name, ∀ e?, ¬ Final r₀ pending name e? := by
  have settled := h.not_waits_of_read ready mem above done
  have final (read : String) (inside : read ∈ p.reads) (n : String) (step : n ∈ r₀.aliases read) :
      Final r₀ pending n (u.registry.entry? n) := h.final n (settled read inside n step)
  rcases placed : fieldLayout u.registry p with e | fields
  · refine ⟨name, fun e? own => ?_⟩
    cases own with
    | other absent => exact absent (List.mem_map_of_mem mem)
    | laid r mem' final' laid =>
      cases List.inj_on_of_nodup_map ready.distinct mem mem' rfl
      have same (read : String) (inside : read ∈ p.reads) (n : String)
          (step : n ∈ r₀.aliases read) : u.registry.entry? n = r.entry? n :=
        (final read inside n step).unique ready (final' read inside n step)
      have laid := fieldLayout_of_final ready final' same laid
      rw [placed] at laid
      contradiction
  · have off : name ∉ path := fun onPath =>
      Registry.not_refers_self ready.acyclic name (above name onPath)
    exact h.finish ⟨_, ready.registered name p mem⟩ off gone (.laid u.registry mem final placed)

/-- What the layout of one bitfield comes to, if the depth suffices for those pending and the
bitfields on the path depend on it. By induction on the depth: what the bitfield depends on is laid
out first, then the bitfield itself. -/
theorem layoutBitfield_outcome (ready : Ready r₀ pending) {depth : Nat}
    (h : Underway r₀ pending path u) (enough : u.pending.length ≤ depth)
    (above : ∀ q ∈ path, Relation.TransGen r₀.Refers q name) :
    Outcome r₀ pending path u [name] (layoutBitfield depth u name) := by
  induction depth generalizing path u name with
  | zero =>
    refine ⟨h, .refl _, ?_⟩
    rw [List.eq_nil_of_length_eq_zero (Nat.le_zero.1 enough)]
    simp
  | succ depth ih =>
    rw [layoutBitfield]
    split
    · next absent =>
      refine ⟨h, .refl _, fun n same mem => ?_⟩
      rw [List.mem_singleton.1 same] at mem
      obtain ⟨e, inside, rfl⟩ := List.mem_map.1 mem
      simpa using List.lookup_eq_none_iff.1 absent e inside
    · next p found =>
      have mem : (name, p) ∈ u.pending :=
        (lookup_eq_some_iff_mem ((h.rest.map _).nodup ready.distinct)).1 found
      have mem₀ : (name, p) ∈ pending := h.rest.subset mem
      have fewer : (u.pending.filter (·.1 != name)).length < u.pending.length :=
        List.length_filter_lt_length_iff_exists.2 ⟨_, mem, by simp⟩
      have same : p.dependencies u.registry = p.dependencies r₀ := by
        simp only [PendingBitfield.dependencies, funext (h.aliases ready)]
      have before := foldlM_outcome ih (h.begin (List.mem_map_of_mem mem)) (by dsimp only; omega)
        (fun _ => refers_of_mem_path ready.registered mem₀ above)
      rw [same]
      rcases folded : (p.dependencies r₀).foldlM (layoutBitfield depth)
          { u with pending := u.pending.filter (·.1 != name) } with e | u₁
      · rw [folded] at before
        exact before
      rw [folded] at before
      obtain ⟨h₁, fewer₁, done⟩ := before
      have gone : name ∉ u₁.pending.map Prod.fst := by
        intro mem
        have kept := (fewer₁.map Prod.fst).subset mem
        simp at kept
      have after := h₁.outcome_of_fieldLayout ready mem₀ above done gone
      show Outcome _ _ _ _ _ (fieldLayout u₁.registry p >>= _)
      rcases placed : fieldLayout u₁.registry p with e | fields
      · rw [placed] at after
        exact after
      · rw [placed] at after
        refine ⟨after, fewer₁.trans List.filter_sublist, fun n same => ?_⟩
        rw [List.mem_singleton.1 same]
        exact gone

/-- After the pass every name has its final entry, or some name has none. -/
theorem layoutBitfields_settles (ready : Ready r₀ pending) :
    Settles (Final r₀ pending) (layoutBitfields r₀ pending) := by
  have start : Underway r₀ pending [] ⟨r₀, pending⟩ := by
    refine ⟨.refl _, fun n waits => ⟨waits.resolve_left List.not_mem_nil, rfl⟩, fun n done => ?_⟩
    exact .other fun mem => done (.inr mem)
  have outcome : Outcome r₀ pending [] ⟨r₀, pending⟩ (pending.map Prod.fst) _ :=
    foldlM_outcome (layoutBitfield_outcome ready) start (Nat.le_refl _) (by simp)
  rw [layoutBitfields]
  rcases all : (pending.map Prod.fst).foldlM (layoutBitfield pending.length) ⟨r₀, pending⟩
    with e | u
  · rw [all] at outcome
    exact outcome
  · rw [all] at outcome
    obtain ⟨h, fewer, gone⟩ := outcome
    intro name
    refine h.final name fun waits => ?_
    have mem := waits.resolve_left List.not_mem_nil
    exact gone name ((fewer.map _).subset mem) mem

/-- What is known before the layouts does not depend on the order. -/
theorem Ready.congr (ready : Ready r₀ pending) (same : ∀ n, r₀'.entry? n = r₀.entry? n)
    (perm : (bitfieldTasks pending).Perm (bitfieldTasks pending')) : Ready r₀' pending' := by
  have names := names_of_bitfieldTasks perm
  refine ⟨ready.acyclic.congr same, names.nodup_iff.1 ready.distinct,
    fun name p mem => ?_, fun name p mem e used n step waits => ?_⟩
  · obtain ⟨p', mem', slots, enumName⟩ := mem_of_bitfieldTasks perm.symm mem
    rw [same, ready.registered name p' mem', PendingBitfield.placeholder, PendingBitfield.typeNames,
      slots, enumName]
    rfl
  · obtain ⟨p', mem', -, enumName⟩ := mem_of_bitfieldTasks perm.symm mem
    rw [Registry.aliases_congr same] at step
    exact ready.named name p' mem' e (enumName ▸ used) n step (names.mem_iff.2 waits)

/-- In registries that bind the same names to the same types, the pass gives the same in any order
of what is pending, and wherever that is specified. -/
theorem layoutBitfields_perm (ready : Ready r₀ pending) (same : ∀ n, r₀'.entry? n = r₀.entry? n)
    (perm : (bitfieldTasks pending).Perm (bitfieldTasks pending')) {r : Registry}
    (ok : layoutBitfields r₀ pending = .ok r) :
    ∃ r', layoutBitfields r₀' pending' = .ok r' ∧ ∀ n, r'.entry? n = r.entry? n :=
  (layoutBitfields_settles ready).same (layoutBitfields_settles (ready.congr same perm))
    (fun _ _ _ => Final.unique (ready.congr same perm)) (fun _ _ => Final.congr same perm) ok

end Passes

end Loading

end DeviceTree
