import DeviceTree.Proofs.Completion

/-!
# The search for cycles

A cycle is a walk along references from a name back to it that visits no other name twice
(`Registry.Cycle`). The path of the search is such a walk to the name at hand, except that it need
not close (`Leads`): a step that is taken extends it (`Leads.step`), and where the name at hand is
on the path already, the rest of the path from there is a cycle (`Leads.cycle`).

So what the search reports is a cycle (`searchCycle_error`). It misses none, since walks end from
all names that it passes (`searchCycles_acc`).
-/

namespace DeviceTree.Registry

variable {r : Registry} {name target : String} {path inner : List String}

/-! ## Cycles -/

/-- A walk along references from a name through others back to it. No name is visited twice. -/
structure Cycle (r : Registry) (name : String) (inner : List String) : Prop where
  refers : (name :: (inner ++ [name])).IsChain r.Refers
  distinct : (name :: inner).Nodup

theorem transGen_of_isChain (chain : (name :: (inner ++ [target])).IsChain r.Refers) :
    Relation.TransGen r.Refers name target := by
  induction inner generalizing name with
  | nil => exact .single (List.isChain_pair.1 chain)
  | cons next rest ih =>
    obtain ⟨refers, chain⟩ := List.isChain_cons_cons.1 chain
    exact .head refers (ih chain)

/-- Every name on a cycle reaches itself. -/
theorem Cycle.reaches_self (cycle : r.Cycle name inner) :
    ∀ n ∈ name :: inner, Relation.TransGen r.Refers n n := by
  refine List.forall_mem_cons.2 ⟨transGen_of_isChain cycle.refers, fun n mem => ?_⟩
  obtain ⟨before, after, rfl⟩ := List.append_of_mem mem
  have refers := cycle.refers
  rw [List.append_assoc, List.cons_append, List.isChain_cons_split] at refers
  exact (transGen_of_isChain refers.2).trans (transGen_of_isChain refers.1)

/-! ## The path of the search -/

/-- The names on a path, the last one first, lead to a name by references. None is on the path
twice. -/
structure Leads (r : Registry) (path : List String) (name : String) : Prop where
  refers : (name :: path).IsChain fun target name => r.Refers name target
  distinct : path.Nodup

theorem leads_nil (r : Registry) (name : String) : r.Leads [] name :=
  ⟨.singleton name, .nil⟩

theorem Leads.step (leads : r.Leads path name) (new : name ∉ path)
    (refers : r.Refers name target) : r.Leads (name :: path) target where
  refers := .cons_cons refers leads.refers
  distinct := List.nodup_cons.2 ⟨new, leads.distinct⟩

theorem cycleThrough_append {after before : List String} (new : name ∉ before) :
    cycleThrough (after ++ name :: before) name = name :: (after.reverse ++ [name]) := by
  have others : ∀ n ∈ before.reverse, (n != name) = true := by
    intro n mem
    rw [bne_iff_ne]
    rintro rfl
    exact new (List.mem_reverse.1 mem)
  rw [cycleThrough, List.reverse_append, List.reverse_cons, List.append_assoc, List.singleton_append,
    List.dropWhile_append_of_pos others, List.dropWhile_cons_of_neg (by simp)]
  rfl

example : cycleThrough ["branch", "tree", "root"] "tree" = ["tree", "branch", "tree"] := by decide

/-- From a name that is on the path already, the path is a cycle. -/
theorem Leads.cycle (leads : r.Leads path name) (mem : name ∈ path) :
    ∃ inner, cycleThrough path name = name :: (inner ++ [name]) ∧ r.Cycle name inner := by
  -- the path has its last name first, so `after` is what was visited since the name
  obtain ⟨after, before, rfl⟩ := List.append_of_mem mem
  obtain ⟨new, others⟩ := List.nodup_cons.1 (List.nodup_middle.1 leads.distinct)
  rw [List.mem_append, not_or] at new
  refine ⟨after.reverse, cycleThrough_append new.2, ?_, ?_⟩
  · have back := List.isChain_reverse.2 (List.isChain_cons_split.1 leads.refers).1
    rw [List.reverse_cons, List.reverse_append] at back
    exact back
  · have inside : name ∉ after.reverse := fun mem => new.1 (List.mem_reverse.1 mem)
    exact List.nodup_cons.2 ⟨inside, List.nodup_reverse.2 (List.nodup_append.1 others).1⟩

/-! ## What the search reports -/

/-- The error tells of a cycle. -/
def Reports (r : Registry) (e : LoadError) : Prop :=
  ∃ name inner, r.Cycle name inner ∧
    e = ⟨.ofType name, .cyclicType name (name :: (inner ++ [name]))⟩

mutual

theorem searchCycle_error {finished path : List String} {name : String} {e : LoadError}
    (leads : r.Leads path name) (failed : r.searchCycle finished path name = .error e) :
    r.Reports e := by
  rw [searchCycle] at failed
  split at failed
  · contradiction
  · split at failed
    · next mem =>
      obtain ⟨inner, through, cycle⟩ := leads.cycle mem
      cases failed
      exact ⟨name, inner, cycle, by rw [through]⟩
    · next new =>
      split at failed
      · contradiction
      · next type found =>
        have leads' : ∀ target ∈ type.references, r.Leads (name :: path) target :=
          fun target mem => leads.step new ⟨type, found, mem⟩
        rcases bind_eq_error.1 failed with failed | ⟨_, -, ⟨⟩⟩
        exact searchCycles_error leads' failed
termination_by (r.unvisited path, 0)
decreasing_by
  exact Prod.Lex.left _ _ (unvisited_lt (mem_names_of_get? ‹_›) ‹_› (by simp))

theorem searchCycles_error {finished path names : List String} {e : LoadError}
    (leads : ∀ name ∈ names, r.Leads path name)
    (failed : r.searchCycles finished path names = .error e) : r.Reports e := by
  match names with
  | [] =>
    rw [searchCycles] at failed
    contradiction
  | name :: rest =>
    rw [List.forall_mem_cons] at leads
    rw [searchCycles] at failed
    rcases bind_eq_error.1 failed with failed | ⟨_, -, failed⟩
    · exact searchCycle_error leads.1 failed
    · exact searchCycles_error leads.2 failed
termination_by (r.unvisited path, names.length + 1)
decreasing_by
  · exact Prod.Lex.right _ (by simp)
  · exact Prod.Lex.right _ (by simp)

end

/-- A name that reaches itself is that of a custom type: no core or predefined type does, and names
that are not registered refer to nothing. -/
theorem custom_of_reaches_self (core : r.HasCore) (cycle : Relation.TransGen r.Refers name name) :
    ∃ type, r.entry? name = some ⟨type, .custom⟩ := by
  obtain ⟨_, ⟨type, found, -⟩, -⟩ := Relation.TransGen.head'_iff.1 cycle
  obtain ⟨⟨type, origin⟩, entry, -⟩ := Option.map_eq_some_iff.1 found
  by_cases custom : origin = .custom
  · exact ⟨type, custom ▸ entry⟩
  · exact absurd cycle (not_reaches_self_of_acc (acc_core core ((core name _ custom).1 entry)))

/-- The search reports a cycle of custom types. -/
theorem exists_cycle_of_checkCycles (core : r.HasCore) {e : LoadError}
    (failed : r.checkCycles = .error e) :
    ∃ name inner, e = ⟨.ofType name, .cyclicType name (name :: (inner ++ [name]))⟩ ∧
      r.Cycle name inner ∧ ∀ n ∈ name :: inner, ∃ type, r.entry? n = some ⟨type, .custom⟩ := by
  rcases bind_eq_error.1 failed with failed | ⟨_, -, ⟨⟩⟩
  obtain ⟨name, inner, cycle, same⟩ := searchCycles_error (fun name _ => leads_nil r name) failed
  exact ⟨name, inner, same, cycle,
    fun n mem => custom_of_reaches_self core (cycle.reaches_self n mem)⟩

/-- The search fails where a custom type reaches itself, and nowhere else. -/
theorem checkCycles_eq_error (core : r.HasCore) :
    (∃ e, r.checkCycles = .error e) ↔
      ∃ name type, r.entry? name = some ⟨type, .custom⟩ ∧
        Relation.TransGen r.Refers name name := by
  constructor
  · rintro ⟨e, failed⟩
    obtain ⟨name, inner, -, cycle, custom⟩ := exists_cycle_of_checkCycles core failed
    obtain ⟨type, entry⟩ := custom name (List.mem_cons_self ..)
    exact ⟨name, type, entry, cycle.reaches_self name (List.mem_cons_self ..)⟩
  · rintro ⟨name, type, entry, cycle⟩
    rcases checked : r.checkCycles with e | ⟨⟩
    · exact ⟨e, rfl⟩
    · exact absurd cycle (not_reaches_self_of_acc (acc_of_checkCycles checked entry))

/-! ## Registries that are built up -/

/-- The registry after calls of `define`, each with a name and a type. A call that fails leaves it
as it was. -/
def assemble (calls : List (String × TypeDef)) : Registry :=
  calls.foldl (fun r (name, type) => (r.define name type).toOption.getD r) fresh

theorem hasCore_assemble (calls : List (String × TypeDef)) : (assemble calls).HasCore := by
  refine List.foldlRecOn calls _ (fun _ _ _ => .rfl) fun r core (name, type) _ => ?_
  show ((r.define name type).toOption.getD r).HasCore
  cases defined : r.define name type with
  | error e => exact core
  | ok r' => exact core.define defined

/-- The search for cycles is exact, whatever types a registry is built up from: it fails where a
custom type reaches itself, and nowhere else, and what it reports is a cycle of custom types.
References to names that are not registered are on no cycle. -/
theorem checkCycles_exact (calls : List (String × TypeDef)) :
    ((∃ e, (assemble calls).checkCycles = .error e) ↔
      ∃ name type, Registry.entry? (assemble calls) name = some ⟨type, .custom⟩ ∧
        Relation.TransGen (assemble calls).Refers name name) ∧
    ∀ e, (assemble calls).checkCycles = .error e →
      ∃ name inner, e = ⟨.ofType name, .cyclicType name (name :: (inner ++ [name]))⟩ ∧
        (assemble calls).Cycle name inner ∧
        ∀ n ∈ name :: inner, ∃ type, Registry.entry? (assemble calls) n = some ⟨type, .custom⟩ :=
  have core := hasCore_assemble calls
  ⟨checkCycles_eq_error core, fun _ => exists_cycle_of_checkCycles core⟩

end DeviceTree.Registry
