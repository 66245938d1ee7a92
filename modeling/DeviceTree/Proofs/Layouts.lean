import DeviceTree.Proofs.Rewriting
import DeviceTree.Proofs.Specifications

/-!
# Layouts of bitfields

A layout is read off the list of fields that `checkPlaces` passes: they lie one after another in the
word (`checkPlaces_eq_ok`), each as wide as the values of its type (`fieldLayout_field`).

Widths depend on the layouts of nested bitfields, so a layout must come after those it depends on.
`Progress` is what holds between layouts, where some bitfields still wait: the others are laid out,
and the types of their fields lead to none that waits. So no later layout changes a width.
`layoutBitfield_progress` is the step, by induction on the depth, and `layoutBitfields_laidOut` the
whole pass.
-/

namespace DeviceTree

open Loading

/-- The fields lie one after another in a word of 64 bits, each as wide as the values of its type. -/
structure Registry.LaidOut (r : Registry) (b : BitfieldShape) : Prop where
  ordered : b.fields.Pairwise fun f g => f.offset + f.width ≤ g.offset
  inWord : ∀ f ∈ b.fields, f.offset + f.width ≤ 64
  widths : ∀ f ∈ b.fields, r.bitSpan f.typeName = some f.width

/-- A type that has a width has one of at least one bit. -/
theorem Registry.one_le_of_bitSpan {r : Registry} {name : String} {width : Nat}
    (h : r.bitSpan name = some width) : 1 ≤ width := by
  obtain ⟨type, -, span⟩ := Option.bind_eq_some_iff.1 h
  unfold spanOf at span
  split at span
  · cases span
    exact Nat.le_refl 1
  · cases span
    exact Nat.le_refl 1
  · split at span
    · split at span
      · cases span
        exact Nat.le_add_left ..
      · contradiction
    · contradiction
  · split at span
    · split at span
      · cases span
        exact Nat.le_add_left ..
      · contradiction
    · contradiction
  · cases span
    exact Nat.le_max_right ..
  · contradiction

/-- A width depends only on the types on the chain of aliases. -/
theorem Registry.bitSpan_of_agree {r r' : Registry} {name : String} {width : Nat}
    (same : ∀ n ∈ r.aliases name, r'.get? n = r.get? n) (h : r.bitSpan name = some width) :
    r'.bitSpan name = some width := by
  obtain ⟨type, resolved, span⟩ := Option.bind_eq_some_iff.1 h
  have resolved := Registry.resolveFrom_of_agree same (Registry.resolve?_eq_some.1 resolved)
  exact Option.bind_eq_some_iff.2 ⟨type, Registry.resolve?_eq_some.2 resolved, span⟩

namespace Loading

/-! ## The layout of one bitfield -/

section Fields

variable {r : Registry} {l : Location} {p : PendingBitfield} {fields : List BitField}

/-- A field as it was before it passed the checks. -/
def PlacedField.ofField (f : BitField) : PlacedField :=
  ⟨f.offset, f.width, f.typeName⟩

/-- The fields that pass the checks are those given; they lie in the word one after another. -/
theorem checkPlaces_eq_ok {start : Int} {placed : List PlacedField}
    (h : checkPlaces l start placed = .ok fields) :
    placed = fields.map .ofField ∧
      (fields.Pairwise fun f g => f.offset + f.width ≤ g.offset) ∧
      ∀ f ∈ fields, start ≤ f.offset ∧ f.offset + f.width ≤ 64 := by
  induction placed generalizing start fields with
  | nil =>
    cases h
    simp
  | cons f rest ih =>
    rw [checkPlaces] at h
    split at h
    · contradiction
    · next fits =>
      split at h
      · contradiction
      · next inside =>
        obtain ⟨others, checked, h⟩ := bind_eq_ok.1 h
        cases h
        obtain ⟨same, ordered, inWord⟩ := ih checked
        simp only [PlacedField.stop] at inside inWord
        have place : f = .ofField ⟨f.offset.toNat, f.width, f.typeName⟩ := by
          simp only [PlacedField.ofField]
          rw [Int.toNat_of_nonneg (by omega)]
        refine ⟨?_, List.pairwise_cons.2 ⟨fun g mem => ?_, ordered⟩,
          List.forall_mem_cons.2 ⟨by dsimp only; omega, fun g mem => ?_⟩⟩
        · rw [List.map_cons, ← place, same]
        · have := inWord g mem
          dsimp only
          omega
        · have := inWord g mem
          omega

theorem fieldWidth_eq_ok {typeName : String} {width : Nat}
    (h : fieldWidth r l typeName = .ok width) : r.bitSpan typeName = some width := by
  rw [fieldWidth] at h
  split at h
  · next found =>
    cases h
    exact found
  · contradiction

/-- A field placed by a slot has the type of the slot, and the width of its values. -/
theorem placeSlots_field {start : Int} {slots : List BitSlot} {placed : List PlacedField}
    (h : placeSlots r l start slots = .ok placed) :
    ∀ f ∈ placed, f.typeName ∈ slots.filterMap BitSlot.typeName? ∧
      r.bitSpan f.typeName = some f.width := by
  induction slots generalizing start placed with
  | nil =>
    cases h
    simp
  | cons slot rest ih =>
    cases slot with
    | skip count => exact ih h
    | next typeName | «at» typeName =>
      obtain ⟨width, measured, h⟩ := bind_eq_ok.1 h
      obtain ⟨others, placed, h⟩ := bind_eq_ok.1 h
      cases h
      intro f mem
      rcases List.mem_cons.1 mem with rfl | mem
      · exact ⟨List.mem_cons_self .., fieldWidth_eq_ok measured⟩
      · exact (ih placed f mem).imp_left (List.mem_cons_of_mem _)

/-- A placed field is that of a slot, or a single bit. -/
theorem placedFields_field {placed : List PlacedField} (h : placedFields r p = .ok placed) :
    ∀ f ∈ placed, f.typeName ∈ p.typeNames ∧ r.bitSpan f.typeName = some f.width ∨
      f.typeName = "Bool" ∧ f.width = 1 := by
  unfold placedFields at h
  split at h
  · next slots given =>
    intro f mem
    rw [PendingBitfield.typeNames, given]
    exact .inl (placeSlots_field h f mem)
  · obtain ⟨e, -, rfl⟩ := map_eq_ok.1 h
    intro f mem
    obtain ⟨offset, -, rfl⟩ := List.mem_map.1 mem
    exact .inr ⟨rfl, rfl⟩
  · cases h
    simp

/-- A field of a layout is that of a slot, or a single bit. -/
theorem fieldLayout_field (h : fieldLayout r p = .ok fields) :
    ∀ f ∈ fields, f.typeName ∈ p.typeNames ∧ r.bitSpan f.typeName = some f.width ∨
      f.typeName = "Bool" ∧ f.width = 1 := by
  obtain ⟨placed, ok, checked⟩ := bind_eq_ok.1 h
  intro f mem
  have mem : PlacedField.ofField f ∈ fields.map .ofField := List.mem_map_of_mem mem
  rw [← (checkPlaces_eq_ok checked).1, List.mem_mergeSort] at mem
  exact placedFields_field ok _ mem

theorem fieldLayout_laidOut (bool : r.bitSpan "Bool" = some 1) {enumName : Option String}
    (h : fieldLayout r p = .ok fields) : r.LaidOut ⟨fields, enumName⟩ := by
  obtain ⟨placed, -, checked⟩ := bind_eq_ok.1 h
  obtain ⟨-, ordered, inWord⟩ := checkPlaces_eq_ok checked
  refine ⟨ordered, fun f mem => (inWord f mem).2, fun f mem => ?_⟩
  rcases fieldLayout_field h f mem with ⟨-, width⟩ | ⟨typeName, width⟩
  · exact width
  · rw [typeName, width, bool]

end Fields

/-! ## What layouts change -/

theorem placeholder_typeName (p : PendingBitfield) :
    p.placeholder.fields.map (·.typeName) = p.typeNames := by
  simp [PendingBitfield.placeholder, Function.comp_def]

/-- A bitfield with other fields, which have the same types or hold single bits. -/
def LaysOut (old new : TypeDef) : Prop :=
  ∃ b b', old = .bitfield b ∧ new = .bitfield b' ∧ b'.enumName = b.enumName ∧
    ∀ f ∈ b'.fields, f.typeName ∈ b.fields.map (·.typeName) ∨ f.typeName = "Bool"

theorem LaysOut.plain {old new : TypeDef} (h : LaysOut old new) (target : String) :
    old ≠ .alias target ∧ new ≠ .alias target := by
  obtain ⟨b, b', rfl, rfl, -⟩ := h
  exact ⟨by simp, by simp⟩

/-- A layout adds no reference but the one to `Bool`. -/
theorem LaysOut.references {old new : TypeDef} (h : LaysOut old new) :
    ∀ target ∈ new.references, target ∈ old.references ∨ target = "Bool" := by
  obtain ⟨b, b', rfl, rfl, enum, fields⟩ := h
  intro target mem
  simp only [TypeDef.references, List.mem_append, List.mem_map] at mem ⊢
  rcases mem with ⟨f, mem, rfl⟩ | mem
  · rcases fields f mem with old | bool
    · exact .inl (.inl (List.mem_map.1 old))
    · exact .inr bool
  · exact .inl (.inr (enum ▸ mem))

theorem LaysOut.enumName? {old new : TypeDef} (h : LaysOut old new) :
    old.enumName? = new.enumName? := by
  obtain ⟨b, b', rfl, rfl, same, -⟩ := h
  exact same.symm

theorem laysOut_of_fieldLayout {r : Registry} {p : PendingBitfield} {fields : List BitField}
    (h : fieldLayout r p = .ok fields) :
    LaysOut (.bitfield p.placeholder) (.bitfield ⟨fields, p.enumName⟩) := by
  refine ⟨_, _, rfl, rfl, rfl, fun f mem => ?_⟩
  rw [placeholder_typeName]
  exact (fieldLayout_field h f mem).imp And.left And.left

/-! ## The order of layouts -/

/-- The name of a bitfield that waits for its layout: one that is pending, or one on the path of
those whose layout has begun. -/
def Unfinished.Waits (u : Unfinished) (path : List String) (name : String) : Prop :=
  name ∈ path ∨ name ∈ u.pending.map Prod.fst

/-- The bitfield whose layout begins goes from those pending to the path, so it still waits. -/
theorem Unfinished.waits_begin {u : Unfinished} {path : List String} {name : String}
    (mem : name ∈ u.pending.map Prod.fst) :
    Waits { u with pending := u.pending.filter (·.1 != name) } (name :: path) = u.Waits path := by
  funext n
  by_cases same : n = name
  · simp only [Waits, same, List.mem_cons_self, mem, true_or, or_true]
  · simp [Waits, same]

/-- The bitfield is laid out, and the types of its fields lead to no name that waits. -/
structure Firm (r : Registry) (waits : String → Prop) (b : BitfieldShape) : Prop where
  laidOut : r.LaidOut b
  parts : ∀ f ∈ b.fields, ∀ n ∈ r.aliases f.typeName, ¬ waits n

/-- Another body for a name that waits, and names that wait no longer, leave a bitfield firm. -/
theorem Firm.redefine {r : Registry} {waits waits' : String → Prop} {b : BitfieldShape}
    (h : Firm r waits b) {name : String} (waiting : waits name)
    (fewer : ∀ n, waits' n → waits n) (type : TypeDef) :
    Firm (r.redefine name type) waits' b := by
  have agree (f : BitField) (mem : f ∈ b.fields) :
      ∀ n ∈ r.aliases f.typeName, (r.redefine name type).get? n = r.get? n := by
    intro n step
    refine r.get?_redefine_of_ne type ?_
    rintro rfl
    exact h.parts f mem n step waiting
  refine ⟨⟨h.laidOut.ordered, h.laidOut.inWord, fun f mem => ?_⟩, fun f mem n step => ?_⟩
  · exact Registry.bitSpan_of_agree (agree f mem) (h.laidOut.widths f mem)
  · have chain : (r.redefine name type).aliases f.typeName = r.aliases f.typeName :=
      Registry.aliasesFrom_congr fun m mem' target => by rw [agree f mem m mem']
    rw [chain] at step
    exact fun still => h.parts f mem n step (fewer n still)

section Passes

/-- What holds of a registry and the bitfields that wait in it, when the layouts on the path have
begun. -/
structure Progress (r₀ : Registry) (pending : List (String × PendingBitfield))
    (path : List String) (u : Unfinished) : Prop where
  rewrites : r₀.Rewrites LaysOut u.registry
  rest : u.pending.Sublist pending
  bitfields : ∀ n, u.Waits path n → ∃ b, r₀.get? n = some (.bitfield b)
  firm : ∀ n b, u.registry.get? n = some (.bitfield b) → ¬ u.Waits path n →
    Firm u.registry (u.Waits path) b

variable {r₀ : Registry} {pending : List (String × PendingBitfield)} {path : List String}
  {u u' : Unfinished} {name : String}

theorem Progress.aliases (h : Progress r₀ pending path u) (name : String) :
    u.registry.aliases name = r₀.aliases name :=
  h.rewrites.aliases LaysOut.plain name

/-- When a layout begins, its bitfield waits on the path. -/
theorem Progress.begin (h : Progress r₀ pending path u) (mem : name ∈ u.pending.map Prod.fst) :
    Progress r₀ pending (name :: path) { u with pending := u.pending.filter (·.1 != name) } := by
  refine ⟨h.rewrites, List.filter_sublist.trans h.rest, fun n => ?_, fun n b => ?_⟩
  · rw [Unfinished.waits_begin mem]
    exact h.bitfields n
  · rw [Unfinished.waits_begin mem]
    exact h.firm n b

/-- When a layout ends, its bitfield leaves the path. -/
theorem Progress.finish {p : PendingBitfield} {fields : List BitField}
    (h : Progress r₀ pending (name :: path) u)
    (registered : r₀.entry? name = some ⟨.bitfield p.placeholder, .custom⟩)
    (placed : fieldLayout u.registry p = .ok fields)
    (firm : Firm u.registry (u.Waits (name :: path)) ⟨fields, p.enumName⟩) :
    Progress r₀ pending path
      { u with registry := u.registry.redefine name (.bitfield ⟨fields, p.enumName⟩) } := by
  have fewer (n : String) (waits : u.Waits path n) : u.Waits (name :: path) n :=
    waits.imp_left (List.mem_cons_of_mem _)
  have waiting : u.Waits (name :: path) name := .inl (List.mem_cons_self ..)
  refine ⟨h.rewrites.redefine registered (laysOut_of_fieldLayout placed), h.rest,
    fun n waits => h.bitfields n (fewer n waits), fun n b found done => ?_⟩
  have body : Firm u.registry (u.Waits (name :: path)) b := by
    rw [Registry.get?, Registry.entry?_redefine] at found
    split at found
    · obtain ⟨e, found, same⟩ := Option.map_eq_some_iff.1 found
      obtain ⟨e', -, rfl⟩ := Option.map_eq_some_iff.1 found
      cases same
      exact firm
    · next other =>
      refine h.firm n b found fun waits => done ?_
      exact waits.imp_left fun mem => (List.mem_cons.1 mem).resolve_left other
  exact body.redefine waiting fewer _

/-- Layouts one after another, when each keeps the progress made and takes its bitfield off those
pending. -/
theorem foldlM_progress {depth : Nat} {names : List String}
    (step : ∀ {u u' : Unfinished} {name : String}, Progress r₀ pending path u →
      u.pending.length ≤ depth → (∀ q ∈ path, Relation.TransGen r₀.Refers q name) →
      layoutBitfield depth u name = .ok u' →
      Progress r₀ pending path u' ∧ u'.pending.Sublist u.pending ∧
        name ∉ u'.pending.map Prod.fst)
    (h : Progress r₀ pending path u) (enough : u.pending.length ≤ depth)
    (above : ∀ name ∈ names, ∀ q ∈ path, Relation.TransGen r₀.Refers q name)
    (ok : names.foldlM (layoutBitfield depth) u = .ok u') :
    Progress r₀ pending path u' ∧ u'.pending.Sublist u.pending ∧
      ∀ name ∈ names, name ∉ u'.pending.map Prod.fst := by
  induction names generalizing u with
  | nil =>
    cases ok
    exact ⟨h, .refl _, by simp⟩
  | cons name rest ih =>
    rw [List.foldlM_cons] at ok
    obtain ⟨u₁, first, others⟩ := bind_eq_ok.1 ok
    rw [List.forall_mem_cons] at above
    obtain ⟨h₁, fewer₁, gone⟩ := step h enough above.1 first
    obtain ⟨h₂, fewer₂, gone'⟩ := ih h₁ (fewer₁.length_le.trans enough) above.2 others
    refine ⟨h₂, fewer₂.trans fewer₁, List.forall_mem_cons.2 ⟨fun mem => gone ?_, gone'⟩⟩
    exact (fewer₂.map _).subset mem

variable (core : r₀.HasCore) (acyclic : r₀.Acyclic)
  (registered : ∀ name p, (name, p) ∈ pending →
    r₀.entry? name = some ⟨.bitfield p.placeholder, .custom⟩)

include registered

/-- A bitfield refers to what its layout depends on, directly or by aliases. -/
theorem refers_of_dependency {p : PendingBitfield} (mem : (name, p) ∈ pending) {n : String}
    (dependency : n ∈ p.dependencies r₀) : Relation.TransGen r₀.Refers name n := by
  obtain ⟨typeName, slot, step⟩ := List.mem_flatMap.1 dependency
  have refers : r₀.Refers name typeName := by
    refine ⟨_, Registry.get?_of_bound (registered name p mem), ?_⟩
    exact List.mem_append_left _ (placeholder_typeName p ▸ slot)
  exact .head' refers ((Registry.refers_of_mem_aliasesFrom step).resolve_left List.not_mem_nil)

/-- What a bitfield depends on is below it, and so below all on the path. -/
theorem refers_of_mem_path {p : PendingBitfield} (mem : (name, p) ∈ pending)
    (above : ∀ q ∈ path, Relation.TransGen r₀.Refers q name) {n : String}
    (dependency : n ∈ p.dependencies r₀) :
    ∀ q ∈ name :: path, Relation.TransGen r₀.Refers q n :=
  Registry.reaches_of_mem_cons above (refers_of_dependency registered mem dependency)

include acyclic

/-- When all that a bitfield depends on is laid out, none of it waits: if it were on the path, it
would close a cycle. -/
theorem not_waits_of_dependency {p : PendingBitfield} (mem : (name, p) ∈ pending)
    (above : ∀ q ∈ path, Relation.TransGen r₀.Refers q name)
    (done : ∀ n ∈ p.dependencies r₀, n ∉ u.pending.map Prod.fst) {n : String}
    (dependency : n ∈ p.dependencies r₀) : ¬ u.Waits (name :: path) n := by
  rintro (onPath | waits)
  · exact Registry.not_refers_self acyclic n
      (refers_of_mem_path registered mem above dependency n onPath)
  · exact done n dependency waits

include core

/-- When all that a layout depends on is laid out, its bitfield is firm. -/
theorem Progress.firm_of_fieldLayout {p : PendingBitfield} {fields : List BitField}
    (h : Progress r₀ pending (name :: path) u) (mem : (name, p) ∈ pending)
    (above : ∀ q ∈ path, Relation.TransGen r₀.Refers q name)
    (ready : ∀ n ∈ p.dependencies r₀, n ∉ u.pending.map Prod.fst)
    (placed : fieldLayout u.registry p = .ok fields) :
    Firm u.registry (u.Waits (name :: path)) ⟨fields, p.enumName⟩ := by
  have bool₀ : r₀.get? "Bool" = some .bool :=
    Registry.get?_of_bound ((core "Bool" ⟨.bool, .core⟩ (by decide)).2 rfl)
  have bool : u.registry.bitSpan "Bool" = some 1 := by
    obtain ⟨type, found, rfl | ⟨_, _, ⟨⟩, -⟩⟩ := h.rewrites.get?_of_get?' bool₀
    exact Option.bind_eq_some_iff.2 ⟨.bool,
      Registry.resolve?_eq_some.2 (Registry.resolveFrom_plain found List.not_mem_nil (by simp)), rfl⟩
  refine ⟨fieldLayout_laidOut bool placed, fun f inside n step waits => ?_⟩
  rw [h.aliases] at step
  rcases fieldLayout_field placed f inside with ⟨slot, -⟩ | ⟨typeName, -⟩
  · have dependency : n ∈ p.dependencies r₀ := List.mem_flatMap.2 ⟨_, slot, step⟩
    exact not_waits_of_dependency acyclic registered mem above ready dependency waits
  · rw [typeName, Registry.aliases, Registry.aliasesFrom_plain (by simp [bool₀]) List.not_mem_nil,
      List.nil_append, List.mem_singleton] at step
    subst step
    obtain ⟨b, found⟩ := h.bitfields _ waits
    cases bool₀.symm.trans found

/-- The layout of a bitfield keeps the progress made and takes the bitfield off those pending, if
the depth suffices for those pending and the bitfields on the path depend on it. -/
theorem layoutBitfield_progress {depth : Nat} (h : Progress r₀ pending path u)
    (enough : u.pending.length ≤ depth)
    (above : ∀ q ∈ path, Relation.TransGen r₀.Refers q name)
    (ok : layoutBitfield depth u name = .ok u') :
    Progress r₀ pending path u' ∧ u'.pending.Sublist u.pending ∧
      name ∉ u'.pending.map Prod.fst := by
  induction depth generalizing path u u' name with
  | zero =>
    cases ok
    rw [List.eq_nil_of_length_eq_zero (Nat.le_zero.1 enough)]
    exact ⟨h, .slnil, by simp⟩
  | succ depth ih =>
    rw [layoutBitfield] at ok
    split at ok
    · next absent =>
      cases ok
      refine ⟨h, .refl _, fun mem => ?_⟩
      obtain ⟨e, inside, rfl⟩ := List.mem_map.1 mem
      simpa using List.lookup_eq_none_iff.1 absent e inside
    · next p found =>
      obtain ⟨u₁, before, ok⟩ := bind_eq_ok.1 ok
      obtain ⟨fields, placed, ok⟩ := bind_eq_ok.1 ok
      cases ok
      have mem : (name, p) ∈ u.pending := by
        obtain ⟨l₁, l₂, same, -⟩ := List.lookup_eq_some_iff.1 found
        exact same ▸ List.mem_append_right _ (List.mem_cons_self ..)
      have mem₀ : (name, p) ∈ pending := h.rest.subset mem
      have fewer : (u.pending.filter (·.1 != name)).length < u.pending.length :=
        List.length_filter_lt_length_iff_exists.2 ⟨_, mem, by simp⟩
      have same : p.dependencies u.registry = p.dependencies r₀ := by
        simp only [PendingBitfield.dependencies, funext h.aliases]
      rw [same] at before
      obtain ⟨h₁, fewer₁, ready⟩ := foldlM_progress ih
        (h.begin (List.mem_map_of_mem mem)) (by dsimp only; omega)
        (fun _ => refers_of_mem_path registered mem₀ above) before
      have firm := h₁.firm_of_fieldLayout core acyclic registered mem₀ above ready placed
      refine ⟨h₁.finish (registered name p mem₀) placed firm, fewer₁.trans List.filter_sublist,
        fun mem => ?_⟩
      have kept := (fewer₁.map Prod.fst).subset mem
      simp at kept

/-- After the pass, every bitfield is laid out. -/
theorem layoutBitfields_laidOut {r : Registry}
    (waiting : ∀ name b, r₀.get? name = some (.bitfield b) → ∃ p, (name, p) ∈ pending)
    (ok : layoutBitfields r₀ pending = .ok r) :
    r₀.Rewrites LaysOut r ∧ ∀ name b, r.get? name = some (.bitfield b) → r.LaidOut b := by
  obtain ⟨u, all, ok⟩ := bind_eq_ok.1 ok
  cases ok
  have start : Progress r₀ pending [] ⟨r₀, pending⟩ := by
    refine ⟨.refl _ _, .refl _, fun n waits => ?_, fun n b found done => ?_⟩
    · obtain ⟨⟨n, p⟩, mem, rfl⟩ := List.mem_map.1 (waits.resolve_left List.not_mem_nil)
      exact ⟨_, Registry.get?_of_bound (registered n p mem)⟩
    · obtain ⟨p, mem⟩ := waiting n b found
      exact absurd (.inr (List.mem_map_of_mem mem)) done
  obtain ⟨done, fewer, gone⟩ := foldlM_progress
    (layoutBitfield_progress core acyclic registered) start (Nat.le_refl _) (by simp) all
  refine ⟨done.rewrites, fun name b found => (done.firm name b found fun waits => ?_).laidOut⟩
  have mem := waits.resolve_left List.not_mem_nil
  exact gone name ((fewer.map _).subset mem) mem

end Passes

end Loading

end DeviceTree
