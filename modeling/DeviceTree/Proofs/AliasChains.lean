import DeviceTree.Proofs.Cycles

/-!
# Where aliases lead

A name is an alias of one other at most, so the aliases from a name form a single chain. It goes one
of three ways: to a type that is no alias (`Registry.StandsFor`), out of the registry
(`Registry.LeavesAt`), or around a circle (`Registry.Circles`).

`Registry.Walk` is what following them knows on the way: each name on the chain is an alias of the
next, and no name is on it twice. A step that is taken extends the walk, and where it stops it has
gone one of the three ways (`resolveFrom_ends`). Only one of them is possible from a name, since its
aliases have one end (`end_unique`), and on a circle none (`Circles.alias_of_leads`). So
`resolve_exact` says of each of them that it is reported exactly where the chain goes it.
-/

namespace DeviceTree.Registry

variable {r : Registry} {start name target last missing : String} {chain : List String}
  {type : TypeDef}

/-- The name is an alias of the target. -/
def AliasOf (r : Registry) (name target : String) : Prop :=
  r.get? name = some (.alias target)

/-- The aliases from the name lead to a name whose type is the given one, and no alias. -/
def StandsFor (r : Registry) (name : String) (type : TypeDef) : Prop :=
  ∃ last, Relation.ReflTransGen r.AliasOf name last ∧ r.get? last = some type ∧
    ∀ target, type ≠ .alias target

/-- The aliases from the name lead to one that is not registered. -/
def LeavesAt (r : Registry) (name missing : String) : Prop :=
  Relation.ReflTransGen r.AliasOf name missing ∧ r.get? missing = none

/-- A missing name is named by the last alias on the way to it. The start of the way, which no alias
leads to, names itself. -/
def NamedBy (r : Registry) (start missing owner : String) : Prop :=
  (owner = start ∧ missing = start) ∨
    (Relation.ReflTransGen r.AliasOf start owner ∧ r.AliasOf owner missing)

/-- The names follow the aliases from a name until one comes up again. That is the last one, and no
other is among them twice. -/
structure Circles (r : Registry) (name : String) (chain : List String) : Prop where
  starts : chain.head? = some name
  follows : chain.IsChain r.AliasOf
  repeats : ∃ before last, chain = before ++ [last] ∧ last ∈ before ∧ before.Nodup

/-! ## One way only -/

theorem aliasOf_rightUnique (r : Registry) : Relator.RightUnique r.AliasOf := by
  intro name target target' h h'
  have same : some (TypeDef.alias target) = some (.alias target') := h.symm.trans h'
  simpa using same

theorem not_aliasOf_of_absent (absent : r.get? name = none) : ∀ target, ¬ r.AliasOf name target := by
  intro target step
  have : none = some (TypeDef.alias target) := absent.symm.trans step
  contradiction

theorem not_aliasOf_of_plain (found : r.get? name = some type)
    (plain : ∀ target, type ≠ .alias target) : ∀ target, ¬ r.AliasOf name target := by
  intro target step
  have same : some type = some (.alias target) := found.symm.trans step
  exact plain target (Option.some.inj same)

/-- A name that is no alias leads nowhere else. -/
theorem eq_of_leads (ends : ∀ target, ¬ r.AliasOf name target)
    (leads : Relation.ReflTransGen r.AliasOf name target) : name = target := by
  rcases leads.cases_head with same | ⟨next, step, -⟩
  · exact same
  · exact absurd step (ends next)

/-- The aliases from a name end at one name. -/
theorem end_unique {first second : String}
    (leads : Relation.ReflTransGen r.AliasOf name first)
    (leads' : Relation.ReflTransGen r.AliasOf name second)
    (ends : ∀ target, ¬ r.AliasOf first target) (ends' : ∀ target, ¬ r.AliasOf second target) :
    first = second := by
  rcases leads.total_of_right_unique r.aliasOf_rightUnique leads' with on | on
  · exact eq_of_leads ends on
  · exact (eq_of_leads ends' on).symm

theorem StandsFor.unique {type' : TypeDef} (h : r.StandsFor name type)
    (h' : r.StandsFor name type') : type = type' := by
  obtain ⟨last, leads, found, plain⟩ := h
  obtain ⟨last', leads', found', plain'⟩ := h'
  have same : last = last' := end_unique leads leads' (not_aliasOf_of_plain found plain)
    (not_aliasOf_of_plain found' plain')
  subst same
  exact Option.some.inj (found.symm.trans found')

theorem LeavesAt.unique {missing' : String} (h : r.LeavesAt name missing)
    (h' : r.LeavesAt name missing') : missing = missing' :=
  end_unique h.1 h'.1 (not_aliasOf_of_absent h.2) (not_aliasOf_of_absent h'.2)

theorem StandsFor.not_leavesAt (h : r.StandsFor name type) : ¬ r.LeavesAt name missing := by
  rintro ⟨leads', absent⟩
  obtain ⟨last, leads, found, plain⟩ := h
  have same : last = missing := end_unique leads leads' (not_aliasOf_of_plain found plain)
    (not_aliasOf_of_absent absent)
  rw [same, absent] at found
  contradiction

/-! ## Circles -/

/-- In a chain, one of its names comes next after each but the last. -/
theorem exists_next {R : String → String → Prop} {before : List String}
    (follows : (before ++ [last]).IsChain R) (mem : name ∈ before) :
    ∃ next ∈ before ++ [last], R name next := by
  obtain ⟨earlier, later, rfl⟩ := List.append_of_mem mem
  obtain ⟨next, rest, eq⟩ := List.exists_cons_of_ne_nil (show later ++ [last] ≠ [] by simp)
  rw [List.append_assoc, List.cons_append, eq] at follows ⊢
  have step := (List.isChain_append_cons_cons.1 follows).2.1
  exact ⟨next, by simp, step⟩

/-- From a name on a circle, aliases lead around it, so they come to no end. -/
theorem Circles.alias_of_leads (circles : r.Circles name chain)
    (leads : Relation.ReflTransGen r.AliasOf name target) : ∃ next, r.AliasOf target next := by
  obtain ⟨before, last, rfl, again, -⟩ := circles.repeats
  have inside : target ∈ before := by
    induction leads with
    | refl =>
      have nonempty : before ≠ [] := List.ne_nil_of_mem again
      have starts := circles.starts
      rw [List.head?_append_of_ne_nil _ nonempty] at starts
      exact List.mem_of_head? starts
    | @tail name target _ step ih =>
      obtain ⟨next, mem, step'⟩ := exists_next circles.follows ih
      have same : target = next := r.aliasOf_rightUnique step step'
      -- the last name was there before, so going on from it stays among those before
      rcases List.mem_append.1 mem with mem | closing
      · rwa [same]
      · rwa [same, List.mem_singleton.1 closing]
  obtain ⟨next, -, step⟩ := exists_next circles.follows inside
  exact ⟨next, step⟩

theorem Circles.not_standsFor (circles : r.Circles name chain) : ¬ r.StandsFor name type := by
  rintro ⟨last, leads, found, plain⟩
  obtain ⟨next, step⟩ := circles.alias_of_leads leads
  exact not_aliasOf_of_plain found plain next step

theorem Circles.not_leavesAt (circles : r.Circles name chain) : ¬ r.LeavesAt name missing := by
  rintro ⟨leads, absent⟩
  obtain ⟨next, step⟩ := circles.alias_of_leads leads
  exact not_aliasOf_of_absent absent next step

/-! ## Following aliases -/

/-- Aliases lead from the start along the chain to the name. No name is on the chain twice. -/
inductive Walk (r : Registry) (start : String) : List String → String → Prop
  | nil : r.Walk start [] start
  | step {chain : List String} {name target : String} :
    r.Walk start chain name → name ∉ chain → r.AliasOf name target →
      r.Walk start (chain ++ [name]) target

theorem Walk.leads (walk : r.Walk start chain name) :
    Relation.ReflTransGen r.AliasOf start name := by
  induction walk with
  | nil => exact .refl
  | step _ _ step ih => exact ih.tail step

theorem Walk.starts (walk : r.Walk start chain name) : (chain ++ [name]).head? = some start := by
  induction walk with
  | nil => rfl
  | step _ _ _ ih => rw [List.head?_append, ih, Option.some_or]

theorem Walk.follows (walk : r.Walk start chain name) : (chain ++ [name]).IsChain r.AliasOf := by
  induction walk with
  | nil => exact .singleton start
  | @step chain name target _ _ step ih =>
    rw [List.append_assoc]
    exact List.isChain_append_cons_cons.2 ⟨ih, step, .singleton target⟩

theorem Walk.distinct (walk : r.Walk start chain name) : chain.Nodup := by
  induction walk with
  | nil => exact .nil
  | step _ new _ ih => exact List.nodup_append_comm.1 (List.nodup_cons.2 ⟨new, ih⟩)

/-- A walk that comes to a name on its chain has gone around a circle. -/
theorem Walk.circles (walk : r.Walk start chain name) (seen : name ∈ chain) :
    r.Circles start (chain ++ [name]) where
  starts := walk.starts
  follows := walk.follows
  repeats := ⟨chain, name, rfl, seen, walk.distinct⟩

theorem Walk.namedBy (walk : r.Walk start chain name) :
    r.NamedBy start name (chain.getLast?.getD start) := by
  cases walk with
  | nil => exact .inl ⟨rfl, rfl⟩
  | @step chain owner _ before _ step =>
    rw [List.getLast?_concat, Option.getD_some]
    exact .inr ⟨before.leads, step⟩

/-- How the aliases from a name can end, and what is reported of it. -/
inductive Ends (r : Registry) (name : String) : Except LoadError TypeDef → Prop
  | found {type : TypeDef} : r.StandsFor name type → r.Ends name (.ok type)
  | lost {missing owner : String} : r.LeavesAt name missing → r.NamedBy name missing owner →
    r.Ends name (.error ⟨.ofType owner, .unknownType missing⟩)
  | circle {chain : List String} : r.Circles name chain →
    r.Ends name (.error ⟨.ofType name, .cyclicType name chain⟩)

/-- What is reported on a walk is how the aliases from its start end. -/
theorem resolveFrom_ends (walk : r.Walk start chain name) :
    r.Ends start (r.resolveFrom start chain name) := by
  -- the induction is that of the loop: each step leaves fewer names off the chain
  fun_induction resolveFrom r start chain name with
  | case1 chain name absent =>
    have leaves : r.LeavesAt start name := ⟨walk.leads, absent⟩
    exact .lost leaves walk.namedBy
  | case2 chain name type found seen => exact .circle (walk.circles seen)
  | case3 chain name new target _ found ih => exact ih (walk.step new found)
  | case4 chain name new type _ other found =>
    have plain : ∀ target, type ≠ .alias target := by
      rintro target rfl
      exact other target found rfl .rfl
    exact .found ⟨name, walk.leads, found, plain⟩

theorem resolve_ends (r : Registry) (name : String) : r.Ends name (r.resolve name) :=
  resolveFrom_ends .nil

theorem Ends.eq_ok {outcome : Except LoadError TypeDef} (ends : r.Ends name outcome)
    (stands : r.StandsFor name type) : outcome = .ok type := by
  cases ends with
  | found stands' => rw [stands.unique stands']
  | lost leaves _ => exact absurd leaves stands.not_leavesAt
  | circle circles => exact absurd stands circles.not_standsFor

theorem Ends.eq_unknownType {outcome : Except LoadError TypeDef} (ends : r.Ends name outcome)
    (leaves : r.LeavesAt name missing) :
    ∃ owner, outcome = .error ⟨.ofType owner, .unknownType missing⟩ ∧
      r.NamedBy name missing owner := by
  cases ends with
  | found stands => exact absurd leaves stands.not_leavesAt
  | @lost missing' owner leaves' named =>
    rw [leaves.unique leaves']
    exact ⟨owner, rfl, named⟩
  | circle circles => exact absurd leaves circles.not_leavesAt

theorem Ends.eq_cyclicType {outcome : Except LoadError TypeDef} (ends : r.Ends name outcome)
    (endless : ¬ ∃ type, r.StandsFor name type) (stays : ¬ ∃ missing, r.LeavesAt name missing) :
    ∃ chain, outcome = .error ⟨.ofType name, .cyclicType name chain⟩ ∧ r.Circles name chain := by
  cases ends with
  | @found type stands => exact absurd ⟨type, stands⟩ endless
  | @lost missing _ leaves _ => exact absurd ⟨missing, leaves⟩ stays
  | @circle chain circles => exact ⟨chain, rfl, circles⟩

/-- Of every name in every registry: it is resolved to the first type on its chain of aliases that
is no alias, where the chain comes to one. Where the chain leaves the registry, the error tells of
the first name that is not registered, and otherwise of a circle that the aliases go around. -/
theorem resolve_exact (r : Registry) (name : String) :
    (∀ type, r.resolve name = .ok type ↔ r.StandsFor name type) ∧
    (∀ missing, (∃ owner, r.resolve name = .error ⟨.ofType owner, .unknownType missing⟩ ∧
      r.NamedBy name missing owner) ↔ r.LeavesAt name missing) ∧
    ((∃ chain, r.resolve name = .error ⟨.ofType name, .cyclicType name chain⟩ ∧
      r.Circles name chain) ↔
        (¬ ∃ type, r.StandsFor name type) ∧ ¬ ∃ missing, r.LeavesAt name missing) := by
  have ends : r.Ends name (r.resolve name) := r.resolve_ends name
  refine ⟨fun type => ⟨fun ok => ?_, ends.eq_ok⟩,
    fun missing => ⟨fun ⟨owner, lost, _⟩ => ?_, ends.eq_unknownType⟩,
    fun ⟨chain, _, circles⟩ => ?_, fun never => ends.eq_cyclicType never.1 never.2⟩
  · rw [ok] at ends
    cases ends with
    | found stands => exact stands
  · rw [lost] at ends
    cases ends with
    | lost leaves _ => exact leaves
  · constructor
    · rintro ⟨type, stands⟩
      exact circles.not_standsFor stands
    · rintro ⟨missing, leaves⟩
      exact circles.not_leavesAt leaves

/-- The circle need not come back to the name it is reached from. -/
example :
    (assemble [("a", .alias "b"), ("b", .alias "c"), ("c", .alias "b")]).resolve "a" =
      .error ⟨.ofType "a", .cyclicType "a" ["a", "b", "c", "b"]⟩ := by cbv

end DeviceTree.Registry
