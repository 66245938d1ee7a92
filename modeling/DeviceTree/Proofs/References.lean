import DeviceTree.Proofs.Outcomes
import DeviceTree.Registry.References
import DeviceTree.Registry.Resolution

/-!
# References that lead somewhere

`Registry.Refers` is the relation between a name and the names that its type refers to;
`Registry.Embeds` is the part of it between a type and those of its values and their parts. A name
is accessible in `Refers` when every walk along references from the name ends, so where all names
are, there is no cycle (`not_refers_self`).

`searchCycles_acc` says that the search for cycles passes only names from which all walks end, and
`searchCycles_of_acyclic` that it passes all names where there is no cycle.
`resolve_of_acyclic` follows the aliases of a registry that is closed and has no cycle, and
`resolveFrom_of_agree` says on which types it depends what a name stands for.
-/

namespace DeviceTree

namespace TypeDef

/-- The names of the types whose values are values of the type or parts of them. -/
def embedded : TypeDef → List String
  | .list shape => shape.allowed.toList
  | .tuple shape => shape.items
  | .map shape => (shape.fields.map (·.values)).getD []
  | .imap shape => (shape.fields.map (·.values)).getD []
  | .alias target => [target]
  | .union members => members
  | _ => []

theorem mem_embedded_map {shape : MapShape} {fields : OrderedMap String} {key target : String}
    (given : shape.fields = some fields) (found : fields.get? key = some target) :
    target ∈ (TypeDef.map shape).embedded := by
  rw [embedded, given]
  exact List.mem_map_of_mem (OrderedMap.get?_eq_some.1 found)

theorem mem_embedded_imap {shape : IMapShape} {fields : SortedMap String} {key : Int}
    {target : String} (given : shape.fields = some fields)
    (found : fields.get? key = some target) : target ∈ (TypeDef.imap shape).embedded := by
  rw [embedded, given]
  exact List.mem_map_of_mem (SortedMap.mem_of_get? found)

theorem mem_references_of_mem_embedded {type : TypeDef} {target : String}
    (mem : target ∈ type.embedded) : target ∈ type.references := by
  cases type with
  | tuple | imap => exact List.mem_append_left _ mem
  | list | map | «alias» | union => exact mem
  | _ => contradiction

end TypeDef

namespace Registry

/-- The type of the name refers to the target. -/
def Refers (r : Registry) (name target : String) : Prop :=
  ∃ type, r.get? name = some type ∧ target ∈ type.references

/-- The type of the name embeds the target. -/
def Embeds (r : Registry) (name target : String) : Prop :=
  ∃ type, r.get? name = some type ∧ target ∈ type.embedded

/-- Every walk along references ends. -/
def Acyclic (r : Registry) : Prop :=
  ∀ name, Acc (fun target name => r.Refers name target) name

/-- All references of registered types are registered. -/
def Closed (r : Registry) : Prop :=
  ∀ name target, r.Refers name target → r.contains target = true

variable {r : Registry} {name : String}

/-- A name whose type refers to nothing ends every walk. -/
theorem acc_of_not_refers (h : ∀ target, ¬ r.Refers name target) :
    Acc (fun target name => r.Refers name target) name :=
  ⟨_, fun target refers => absurd refers (h target)⟩

/-- No cycle goes through a name from which all walks along a relation end. -/
theorem not_reaches_self_of_acc {R : String → String → Prop}
    (acc : Acc (fun target name => R name target) name) : ¬ Relation.TransGen R name name := by
  induction acc with
  | intro name _ ih =>
    intro cycle
    obtain ⟨next, step, back⟩ := Relation.TransGen.head'_iff.1 cycle
    exact ih next step (Relation.TransGen.tail' back step)

theorem not_refers_self (h : r.Acyclic) (name : String) :
    ¬ Relation.TransGen r.Refers name name :=
  not_reaches_self_of_acc (h name)

/-- What leads to the names before a name leads to what the name leads to. -/
theorem reaches_of_mem_cons {R : String → String → Prop} {path : List String} {target : String}
    (above : ∀ q ∈ path, Relation.TransGen R q name) (reached : Relation.TransGen R name target) :
    ∀ q ∈ name :: path, Relation.TransGen R q target :=
  List.forall_mem_cons.2 ⟨reached, fun q mem => (above q mem).trans reached⟩

/-! ## The search for cycles -/

mutual

/-- From a name that the search has passed, all walks end; so they do from all names finished. -/
theorem searchCycle_acc {finished finished' path : List String} {name : String}
    (done : ∀ n ∈ finished, Acc (fun target name => r.Refers name target) n)
    (h : r.searchCycle finished path name = .ok finished') :
    (∀ n ∈ finished', Acc (fun target name => r.Refers name target) n) ∧
      Acc (fun target name => r.Refers name target) name := by
  rw [searchCycle] at h
  split at h
  · next mem =>
    cases h
    exact ⟨done, done name mem⟩
  · split at h
    · contradiction
    · next new =>
      split at h
      · next absent =>
        cases h
        refine ⟨done, acc_of_not_refers ?_⟩
        rintro target ⟨type, found, -⟩
        rw [absent] at found
        contradiction
      · next type found =>
        obtain ⟨finished₁, searched, ok⟩ := bind_eq_ok.1 h
        cases ok
        obtain ⟨done₁, parts⟩ := searchCycles_acc done searched
        have acc : Acc (fun target name => r.Refers name target) name := by
          constructor
          rintro target ⟨type', found', mem⟩
          cases found.symm.trans found'
          exact parts target mem
        exact ⟨List.forall_mem_cons.2 ⟨acc, done₁⟩, acc⟩
termination_by (r.unvisited path, 0)
decreasing_by
  exact Prod.Lex.left _ _ (unvisited_lt (mem_names_of_get? ‹_›) ‹_› (by simp))

theorem searchCycles_acc {finished finished' path names : List String}
    (done : ∀ n ∈ finished, Acc (fun target name => r.Refers name target) n)
    (h : r.searchCycles finished path names = .ok finished') :
    (∀ n ∈ finished', Acc (fun target name => r.Refers name target) n) ∧
      ∀ n ∈ names, Acc (fun target name => r.Refers name target) n := by
  match names with
  | [] =>
    rw [searchCycles] at h
    cases h
    exact ⟨done, by simp⟩
  | name :: rest =>
    rw [searchCycles] at h
    obtain ⟨finished₁, searched, others⟩ := bind_eq_ok.1 h
    obtain ⟨done₁, acc⟩ := searchCycle_acc done searched
    obtain ⟨done₂, accs⟩ := searchCycles_acc done₁ others
    exact ⟨done₂, List.forall_mem_cons.2 ⟨acc, accs⟩⟩
termination_by (r.unvisited path, names.length + 1)
decreasing_by
  · exact Prod.Lex.right _ (by simp)
  · exact Prod.Lex.right _ (by simp)

end

/-- Where no cycle is found, all walks from custom types end. -/
theorem acc_of_checkCycles (h : r.checkCycles = .ok ()) {type : TypeDef}
    (found : r.entry? name = some ⟨type, .custom⟩) :
    Acc (fun target name => r.Refers name target) name := by
  obtain ⟨finished, searched, -⟩ := bind_eq_ok.1 h
  refine (searchCycles_acc (by simp) searched).2 name ?_
  exact List.mem_map.2 ⟨_, mem_customTypes.2 found, rfl⟩

mutual

/-- Without a cycle, the search from a name that the names on the path lead to finds none. -/
theorem searchCycle_of_acyclic (acyclic : r.Acyclic) {path : List String} {name : String}
    (above : ∀ q ∈ path, Relation.TransGen r.Refers q name) (finished : List String) :
    ∃ finished', r.searchCycle finished path name = .ok finished' := by
  rw [searchCycle]
  split
  · exact ⟨_, rfl⟩
  · have new : name ∉ path := fun mem => not_refers_self acyclic name (above name mem)
    rw [dif_neg new]
    split
    · exact ⟨_, rfl⟩
    · next type found =>
      have below : ∀ target ∈ type.references,
          ∀ q ∈ name :: path, Relation.TransGen r.Refers q target :=
        fun target mem => reaches_of_mem_cons above (.single ⟨type, found, mem⟩)
      obtain ⟨finished', searched⟩ := searchCycles_of_acyclic acyclic below finished
      exact ⟨name :: finished', by rw [searched]; rfl⟩
termination_by (r.unvisited path, 0)
decreasing_by
  exact Prod.Lex.left _ _ (unvisited_lt (mem_names_of_get? ‹_›) ‹_› (by simp))

theorem searchCycles_of_acyclic (acyclic : r.Acyclic) {path names : List String}
    (above : ∀ name ∈ names, ∀ q ∈ path, Relation.TransGen r.Refers q name)
    (finished : List String) :
    ∃ finished', r.searchCycles finished path names = .ok finished' := by
  match names with
  | [] => exact ⟨finished, by rw [searchCycles]⟩
  | name :: rest =>
    rw [List.forall_mem_cons] at above
    obtain ⟨finished₁, searched⟩ := searchCycle_of_acyclic acyclic above.1 finished
    obtain ⟨finished₂, others⟩ := searchCycles_of_acyclic acyclic above.2 finished₁
    exact ⟨finished₂, by rw [searchCycles, searched]; exact others⟩
termination_by (r.unvisited path, names.length + 1)
decreasing_by
  · exact Prod.Lex.right _ (by simp)
  · exact Prod.Lex.right _ (by simp)

end

theorem checkCycles_of_acyclic (h : r.Acyclic) : r.checkCycles = .ok () := by
  have above : ∀ name ∈ r.customTypes.map Prod.fst, ∀ q ∈ ([] : List String),
      Relation.TransGen r.Refers q name := by simp
  obtain ⟨finished, searched⟩ := searchCycles_of_acyclic h above []
  rw [checkCycles, searched]
  rfl

/-! ## Unregistered references -/

/-- Where the check of references passes, those of custom types are registered. -/
theorem contains_of_checkReferences (h : r.checkReferences = .ok ()) {type : TypeDef}
    (found : r.entry? name = some ⟨type, .custom⟩) :
    ∀ target ∈ type.references, r.contains target = true := by
  have ok := forM_eq_ok.1 h _ (mem_customTypes.2 found)
  dsimp only at ok
  split at ok
  · contradiction
  · next none =>
    intro target mem
    have := List.find?_eq_none.1 none target mem
    simpa using this

theorem checkReferences_of_contains
    (h : ∀ name type, r.entry? name = some ⟨type, .custom⟩ →
      ∀ target ∈ type.references, r.contains target = true) : r.checkReferences = .ok () := by
  refine forM_eq_ok.2 fun ⟨name, type⟩ mem => ?_
  have none : type.references.find? (! r.contains ·) = none := by
    rw [List.find?_eq_none]
    intro target inside
    simp [h name type (mem_customTypes.1 mem) target inside]
  simp only [none]

/-! ## Following aliases -/

/-- In a closed registry without cycles, the aliases from a registered name lead to a type. -/
theorem resolveFrom_of_acyclic (closed : r.Closed) (acyclic : r.Acyclic) {start : String}
    {chain : List String} {name : String} (registered : r.contains name = true)
    (led : ∀ n ∈ chain, Relation.TransGen r.Refers n name) :
    ∃ type, r.resolveFrom start chain name = .ok type := by
  obtain ⟨type, found⟩ := contains_iff.1 registered
  have new : name ∉ chain := fun mem => not_refers_self acyclic name (led name mem)
  cases type with
  | «alias» target =>
    have refers : r.Refers name target := ⟨_, found, by simp [TypeDef.references]⟩
    rw [resolveFrom_alias found new]
    refine resolveFrom_of_acyclic closed acyclic (closed name target refers) fun n mem => ?_
    rcases List.mem_append.1 mem with before | last
    · exact (led n before).tail refers
    · rw [List.mem_singleton] at last
      exact last ▸ .single refers
  | _ => exact ⟨_, resolveFrom_plain found new (by simp)⟩
termination_by r.unvisited chain
decreasing_by
  exact unvisited_lt (mem_names_of_get? found) new (by simp [or_comm])

theorem resolve_of_acyclic (closed : r.Closed) (acyclic : r.Acyclic)
    (registered : r.contains name = true) : ∃ type, r.resolve name = .ok type :=
  resolveFrom_of_acyclic closed acyclic registered (by simp)

/-! ## Chains of aliases -/

section Aliases

variable {r' : Registry} {start n target : String} {chain : List String} {type : TypeDef}

theorem aliasesFrom_alias (found : r.get? name = some (.alias target)) (unseen : name ∉ chain) :
    r.aliasesFrom chain name = r.aliasesFrom (chain ++ [name]) target := by
  rw [aliasesFrom, dif_neg unseen]
  split
  · next found' =>
    cases found.symm.trans found'
    rfl
  · next plain => exact absurd found (plain target)

theorem aliasesFrom_plain (plain : ∀ target, r.get? name ≠ some (.alias target))
    (unseen : name ∉ chain) : r.aliasesFrom chain name = chain ++ [name] := by
  rw [aliasesFrom, dif_neg unseen]
  split
  · next target found => exact absurd found (plain target)
  · rfl

theorem mem_aliasesFrom (mem : n = name ∨ n ∈ chain) : n ∈ r.aliasesFrom chain name := by
  fun_induction aliasesFrom r chain name with
  | case1 chain name seen =>
    rcases mem with rfl | mem
    · exact seen
    · exact mem
  | case2 chain name new target found ih =>
    refine ih (.inr ?_)
    rcases mem with rfl | mem
    · exact List.mem_append_right _ (List.mem_singleton_self _)
    · exact List.mem_append_left _ mem
  | case3 chain name new plain => simpa [or_comm] using mem

/-- Aliases are references. -/
theorem refers_of_mem_aliasesFrom (mem : n ∈ r.aliasesFrom chain name) :
    n ∈ chain ∨ Relation.ReflTransGen r.Refers name n := by
  fun_induction aliasesFrom r chain name with
  | case1 => exact .inl mem
  | case2 chain name new target found ih =>
    have refers : r.Refers name target := ⟨_, found, by simp [TypeDef.references]⟩
    rcases ih mem with before | later
    · rcases List.mem_append.1 before with before | last
      · exact .inl before
      · exact .inr (List.mem_singleton.1 last ▸ .refl)
    · exact .inr (.head refers later)
  | case3 chain name new _ =>
    rcases List.mem_append.1 mem with before | last
    · exact .inl before
    · exact .inr (List.mem_singleton.1 last ▸ .refl)

/-- The chain of aliases depends only on which of its names are aliases, and of what. -/
theorem aliasesFrom_congr
    (same : ∀ n ∈ r.aliasesFrom chain name, ∀ target,
      r'.get? n = some (.alias target) ↔ r.get? n = some (.alias target)) :
    r'.aliasesFrom chain name = r.aliasesFrom chain name := by
  fun_induction aliasesFrom r chain name with
  | case1 chain name seen => rw [aliasesFrom, dif_pos seen]
  | case2 chain name new target found ih =>
    have mem : name ∈ r.aliasesFrom (chain ++ [name]) target :=
      mem_aliasesFrom (.inr (List.mem_append_right _ (List.mem_singleton_self _)))
    rw [aliasesFrom_alias ((same name mem target).2 found) new]
    exact ih same
  | case3 chain name new plain =>
    refine aliasesFrom_plain (fun target found => ?_) new
    exact plain target ((same name (by simp) target).1 found)

/-- What a name stands for depends only on the types on its chain of aliases. -/
theorem resolveFrom_of_agree {chain : List String} {name : String}
    (same : ∀ n ∈ r.aliasesFrom chain name, r'.get? n = r.get? n)
    (ok : r.resolveFrom start chain name = .ok type) :
    r'.resolveFrom start chain name = .ok type := by
  have here := same name (mem_aliasesFrom (.inl rfl))
  obtain ⟨unseen, ⟨target, found, next⟩ | ⟨found, plain⟩⟩ := resolveFrom_eq_ok ok
  · rw [aliasesFrom_alias found unseen] at same
    rw [resolveFrom_alias (here.trans found) unseen]
    exact resolveFrom_of_agree same next
  · exact resolveFrom_plain (here.trans found) unseen plain
termination_by r.unvisited chain
decreasing_by
  exact unvisited_lt (mem_names_of_get? found) unseen (by simp [or_comm])

theorem resolve?_eq_some : r.resolve? name = some type ↔ r.resolve name = .ok type := by
  rw [resolve?]
  cases r.resolve name <;> simp [Except.toOption]

end Aliases

end Registry

end DeviceTree
