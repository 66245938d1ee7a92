import DeviceTree.Loading.Nodes
import DeviceTree.Proofs.Outcomes

/-!
# What is read of a node

Each step of reading the entry of a node, and what is known when it has succeeded. The methods of a
node are put together in three stages, those of the property, those that are declared and the one
that reads the description; no stage takes the name of a method that is there already.
-/

namespace DeviceTree

/-- What is matched with the entries of a list has its entry there. -/
theorem exists_entry_of_mem {α β : Type} {R : α → β → Prop} {entries : List α} {nodes : List β}
    {b : β} (h : List.Forall₂ R entries nodes) (mem : b ∈ nodes) : ∃ a ∈ entries, R a b := by
  induction h with
  | nil => contradiction
  | cons first _ ih =>
    rcases List.mem_cons.1 mem with rfl | later
    · exact ⟨_, List.mem_cons_self, first⟩
    · obtain ⟨a, inside, matched⟩ := ih later
      exact ⟨a, List.mem_cons_of_mem _ inside, matched⟩

namespace Loading

variable {r : Registry} {l : Location} {acc all methods : List Method} {m : Method}

theorem refuseKeys_eq_ok {keys : List String} (h : refuseKeys l keys = .ok ()) : keys = [] := by
  rw [refuseKeys] at h
  split at h
  · exact List.isEmpty_iff.1 ‹_›
  · contradiction

/-- A method of a new name comes after methods of different names. -/
theorem distinct_append (start : (acc.map (·.name)).Nodup)
    (new : ¬ acc.any (·.name == m.name) = true) : ((acc ++ [m]).map (·.name)).Nodup := by
  rw [List.map_append, List.nodup_append]
  refine ⟨start, by simp, fun name mem name' last same => new ?_⟩
  obtain ⟨m', inside, rfl⟩ := List.mem_map.1 mem
  rw [List.map_singleton, List.mem_singleton] at last
  exact List.any_eq_true.2 ⟨m', inside, beq_iff_eq.2 (same.trans last)⟩

/-- The methods of a property come after the others, under new names that are not declared. -/
theorem addPropertyMethods_eq_ok {declared : List String}
    (h : addPropertyMethods l declared acc methods = .ok all) :
    all = acc ++ methods ∧ ((acc.map (·.name)).Nodup → (all.map (·.name)).Nodup) ∧
      ∀ m ∈ methods, m.name ∉ declared := by
  induction methods generalizing acc with
  | nil =>
    cases h
    exact ⟨(List.append_nil _).symm, id, List.forall_mem_nil _⟩
  | cons m rest ih =>
    rw [addPropertyMethods] at h
    split at h
    · contradiction
    · next new =>
      split at h
      · contradiction
      · next free =>
        obtain ⟨rfl, distinct, others⟩ := ih h
        refine ⟨List.append_assoc .., fun start => distinct (distinct_append start new), ?_⟩
        exact List.forall_mem_cons.2 ⟨by simpa using free, others⟩

/-- A declared method that is read has what its specification says. -/
theorem declaredMethod_eq_ok {name : String} {spec : MethodSpec}
    (h : declaredMethod r l name spec = .ok m) :
    name ∉ reservedMethods ∧ spec.extra = [] ∧ ∃ param result access flags,
      typeNameOrNull r (l.join "param") spec.param = .ok param ∧
      typeNameOrNull r (l.join "result") spec.result = .ok result ∧
      accessLevel (l.join "access") spec.access = .ok access ∧
      methodFlags (l.join "flags") {} (spec.flags.getD []) = .ok flags ∧
      m = { name, param, result, access, flags, description := spec.description.getD "" } := by
  obtain ⟨_, -, h⟩ := bind_eq_ok.1 h
  split at h
  · obtain ⟨_, thrown, -⟩ := bind_eq_ok.1 h
    contradiction
  · next free =>
    obtain ⟨_, refused, h⟩ := bind_eq_ok.1 h
    obtain ⟨param, readParam, h⟩ := bind_eq_ok.1 h
    obtain ⟨result, readResult, h⟩ := bind_eq_ok.1 h
    obtain ⟨access, readAccess, h⟩ := bind_eq_ok.1 h
    obtain ⟨flags, readFlags, h⟩ := bind_eq_ok.1 h
    cases h
    exact ⟨by simpa using free, List.map_eq_nil_iff.1 (refuseKeys_eq_ok refused), param, result,
      access, flags, readParam, readResult, readAccess, readFlags, rfl⟩

/-- Declared methods come after the others in order, under new names. -/
theorem addDeclaredMethods_eq_ok {specs : List (String × MethodSpec)}
    (h : addDeclaredMethods r l acc specs = .ok all) :
    ∃ declared, all = acc ++ declared ∧
      List.Forall₂ (fun p m => declaredMethod r (l.join p.1) p.1 p.2 = .ok m) specs declared ∧
      ((acc.map (·.name)).Nodup → (all.map (·.name)).Nodup) := by
  induction specs generalizing acc with
  | nil =>
    cases h
    exact ⟨[], (List.append_nil _).symm, .nil, id⟩
  | cons entry rest ih =>
    rw [addDeclaredMethods] at h
    split at h
    · obtain ⟨_, thrown, -⟩ := bind_eq_ok.1 h
      contradiction
    · next new =>
      obtain ⟨m, ok, h⟩ := bind_eq_ok.1 h
      obtain ⟨declared, rfl, each, distinct⟩ := ih h
      refine ⟨m :: declared, List.append_assoc .., .cons ok each, fun start => distinct ?_⟩
      obtain ⟨-, -, _, _, _, _, -, -, -, -, rfl⟩ := declaredMethod_eq_ok ok
      exact distinct_append start new

/-- A node is read when its name is usable and no key is unknown; its methods are those of the
property, the declared ones and the one that reads the description. -/
theorem bareNode_steps {parent name : String} {spec : NodeSpec} {n : Node}
    (h : bareNode r l parent name spec = .ok n) :
    checkName l name = .ok () ∧ spec.extra = [] ∧ ∃ p? methods all,
      nodeProperty r l spec = .ok (p?, methods) ∧
      addDeclaredMethods r (l.join "methods") methods spec.methods = .ok all ∧
      n = { name, path := joinPath parent name, property := p?,
            methods := withDescription (spec.description.getD "") all,
            description := spec.description.getD "" } := by
  obtain ⟨_, checked, h⟩ := bind_eq_ok.1 h
  obtain ⟨_, refused, h⟩ := bind_eq_ok.1 h
  obtain ⟨⟨p?, methods⟩, ok, h⟩ := bind_eq_ok.1 h
  obtain ⟨all, added, h⟩ := bind_eq_ok.1 h
  cases h
  exact ⟨checked, List.map_eq_nil_iff.1 (refuseKeys_eq_ok refused), p?, methods, all, ok, added, rfl⟩

theorem loadTypes_nil : loadTypes [] = .ok .fresh := by cbv

/-- A document without types has those of the fresh registry. -/
theorem ofDocument_nil (nodes : List (String × NodeSpec)) :
    Tree.ofDocument { nodes } = (do
      let children ← loadNodes .fresh ⟨["nodes"]⟩ "" [] nodes
      .ok { registry := .fresh, root := { children } }) := by
  rw [Tree.ofDocument, loadTypes_nil]
  rfl

end Loading

end DeviceTree
