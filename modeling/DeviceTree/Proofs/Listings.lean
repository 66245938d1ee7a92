import DeviceTree.Proofs.LoadedTrees

/-!
# Listings of methods

The methods of a loaded node come from its property, from those the document declares, and from its
description. No two of them have the same name (`bareNode_named`), so what `dir` lists of a node are
the methods that a call finds there.

The names that every node answers itself are refused to declared methods. A change signal may have
one: then, and only then, the node has a method of that name, which `dir` lists a second time and no
call reaches (`ofDocument_dir`, `shadowDocument_dir`).
-/

namespace DeviceTree

open Loading

/-! ## The names of methods -/

/-- What is known of the names of the methods of a loaded node. -/
structure Node.Named (n : Node) : Prop where
  distinct : (n.methods.map (·.name)).Nodup
  signal : ∀ s, n.changeSignal? = some s → ∃ m ∈ n.methods, m.name = s ∧ m.flags.signal = true
  reserved : ∀ m ∈ n.methods, m.name ∈ reservedMethods → n.changeSignal? = some m.name

namespace Loading

variable {r : Registry} {l : Location} {m : Method} {p : Property} {acc methods : List Method}

/-- A method of a property gets it, sets it, or is its change signal. -/
theorem mem_propertyMethods (mem : m ∈ propertyMethods p) :
    m.name = "get" ∨ m.name = "set" ∨ p.signal = some m.name := by
  simp only [propertyMethods, List.mem_cons, List.mem_append, List.mem_ite_nil_left,
    List.not_mem_nil, or_false, Option.mem_toList, Option.map_eq_some_iff] at mem
  rcases mem with rfl | ⟨-, rfl⟩ | ⟨name, signal, rfl⟩
  · exact .inl rfl
  · exact .inr (.inl rfl)
  · exact .inr (.inr signal)

theorem exists_signal_mem_propertyMethods {s : String} (signal : p.signal = some s) :
    ∃ m ∈ propertyMethods p, m.name = s ∧ m.flags.signal = true := by
  let m : Method :=
    { name := s, result := p.typeName, access := .read, flags := { signal := true },
      origin := .property }
  refine ⟨m, List.mem_cons_of_mem _ (List.mem_append_right _ ?_), rfl, rfl⟩
  rw [signal]
  exact List.mem_singleton.2 rfl

/-- A change signal with a name of its own has it from the settings. -/
theorem changeSignal_eq_ok {readonly : Bool} {setting? : Option SignalSetting} {s : String}
    (h : changeSignal l readonly setting? = .ok (some s)) :
    s = defaultSignal ∨ setting? = some (.named s) := by
  cases setting? with
  | none =>
    cases readonly <;> cases h
    exact .inl rfl
  | some setting =>
    cases setting with
    | enabled b =>
      cases b <;> cases h
      exact .inl rfl
    | named name =>
      obtain ⟨_, -, h⟩ := bind_eq_ok.1 h
      cases h
      exact .inr rfl

theorem nodeProperty_eq_ok {spec : NodeSpec} {p? : Option Property}
    (h : nodeProperty r l spec = .ok (p?, methods)) :
    methods = (p?.map propertyMethods).getD [] ∧ (methods.map (·.name)).Nodup ∧
      ∀ s, p?.bind (·.signal) = some s → s = defaultSignal ∨ spec.signal = some (.named s) := by
  rw [nodeProperty] at h
  split at h
  · obtain ⟨p, ok, h⟩ := bind_eq_ok.1 h
    obtain ⟨methods', added, h⟩ := bind_eq_ok.1 h
    cases h
    obtain ⟨all, distinct, -⟩ := addPropertyMethods_eq_ok added
    refine ⟨all, distinct (by simp), ?_⟩
    obtain ⟨_, -, h⟩ := bind_eq_ok.1 ok
    obtain ⟨signal, made, h⟩ := bind_eq_ok.1 h
    cases h
    intro s named
    cases named
    exact changeSignal_eq_ok made
  · obtain ⟨_, -, h⟩ := bind_eq_ok.1 h
    cases h
    exact ⟨rfl, by simp, nofun⟩

/-- Declared methods come after the others, under new names that are not reserved. -/
theorem addDeclaredMethods_distinct {all : List Method} {specs : List (String × MethodSpec)}
    (start : (acc.map (·.name)).Nodup) (h : addDeclaredMethods r l acc specs = .ok all) :
    (all.map (·.name)).Nodup ∧
      ∃ new, all = acc ++ new ∧ ∀ m ∈ new, m.name ∉ reservedMethods := by
  obtain ⟨declared, rfl, each, distinct⟩ := addDeclaredMethods_eq_ok h
  refine ⟨distinct start, declared, rfl, fun m mem => ?_⟩
  obtain ⟨p, -, ok⟩ := exists_entry_of_mem each mem
  obtain ⟨free, -, _, _, _, _, -, -, -, -, rfl⟩ := declaredMethod_eq_ok ok
  exact free

/-- The method that reads a description comes after the others, if its name is new. -/
theorem withDescription_eq (description : String) (start : (methods.map (·.name)).Nodup) :
    ((withDescription description methods).map (·.name)).Nodup ∧
      ∃ new, withDescription description methods = methods ++ new ∧
        ∀ m ∈ new, m.name ∉ reservedMethods := by
  rw [withDescription]
  split
  · exact ⟨start, [], (List.append_nil _).symm, List.forall_mem_nil _⟩
  · next free =>
    rw [Bool.or_eq_true, not_or] at free
    refine ⟨distinct_append start free.2, _, rfl, fun m mem => ?_⟩
    rw [List.mem_singleton.1 mem]
    show "desc" ∉ reservedMethods
    decide

/-- Of the methods of a node, only the change signal can have a reserved name, which the settings of
the node then give it. -/
theorem bareNode_named {parent name : String} {spec : NodeSpec} {n : Node}
    (h : bareNode r l parent name spec = .ok n) :
    n.Named ∧
      ∀ s, n.changeSignal? = some s → s = defaultSignal ∨ spec.signal = some (.named s) := by
  obtain ⟨-, -, p?, methods, all', ok, added, rfl⟩ := bareNode_steps h
  obtain ⟨rfl, start, settings⟩ := nodeProperty_eq_ok ok
  obtain ⟨start, declared, rfl, free⟩ := addDeclaredMethods_distinct start added
  obtain ⟨distinct, described, all, free'⟩ := withDescription_eq (spec.description.getD "") start
  refine ⟨⟨distinct, fun s signal => ?_, fun m mem reserved => ?_⟩, settings⟩
  · obtain ⟨p, rfl, signal⟩ := Option.bind_eq_some_iff.1 signal
    obtain ⟨m, mem, facts⟩ := exists_signal_mem_propertyMethods signal
    refine ⟨m, ?_, facts⟩
    show m ∈ withDescription _ _
    rw [all]
    exact List.mem_append_left _ (List.mem_append_left _ mem)
  · have mem : m ∈ withDescription _ _ := mem
    rw [all, List.mem_append, List.mem_append] at mem
    rcases mem with (mem | mem) | mem
    · cases p? with
      | none => contradiction
      | some p =>
        show p.signal = some m.name
        rcases mem_propertyMethods mem with same | same | signal
        · exact absurd (same ▸ reserved) (by decide)
        · exact absurd (same ▸ reserved) (by decide)
        · exact signal
    · exact absurd reserved (free m mem)
    · exact absurd reserved (free' m mem)

end Loading

/-! ## Listings of nodes -/

namespace Node

variable {n : Node} {m : Method} {name : String}

/-- A node finds each of its methods by name. -/
theorem Named.method?_eq_some (named : n.Named) :
    n.method? name = some m ↔ m ∈ n.methods ∧ m.name = name := by
  constructor
  · intro found
    exact ⟨List.mem_of_find?_eq_some found, by simpa using List.find?_some found⟩
  · rintro ⟨mem, rfl⟩
    rcases found : n.method? m.name with _ | m'
    · have := List.find?_eq_none.1 found m mem
      simp at this
    · have same : m'.name = m.name := by simpa using List.find?_some found
      rw [List.inj_on_of_nodup_map named.distinct (List.mem_of_find?_eq_some found) mem same]

/-- The reserved names among those of the methods are that of the change signal. -/
theorem Named.reserved_iff (named : n.Named) (reserved : name ∈ reservedMethods) :
    (∃ m ∈ n.methods, m.name = name) ↔ n.changeSignal? = some name := by
  constructor
  · rintro ⟨m, mem, rfl⟩
    exact named.reserved m mem reserved
  · intro signal
    obtain ⟨m, mem, same, -⟩ := named.signal name signal
    exact ⟨m, mem, same⟩

/-- A listing has no name twice unless the change signal has the name of a standard method. -/
theorem Named.listing_nodup (named : n.Named) :
    ((standardMethods ++ n.methods.map (·.descriptor)).map (·.name)).Nodup ↔
      n.changeSignal? ≠ some "ls" ∧ n.changeSignal? ≠ some "dir" := by
  have names : (standardMethods ++ n.methods.map (·.descriptor)).map (·.name) =
      "dir" :: "ls" :: n.methods.map (·.name) := by
    rw [List.map_append, List.map_map]
    rfl
  have ls := named.reserved_iff (show "ls" ∈ reservedMethods by decide)
  have dir := named.reserved_iff (show "dir" ∈ reservedMethods by decide)
  rw [names, List.nodup_cons, List.nodup_cons, List.mem_cons, List.mem_map, List.mem_map, dir, ls]
  have := named.distinct
  have : "dir" ≠ "ls" := by decide
  tauto

end Node

namespace Tree

variable {document : Document} {t : Tree} {path : String} {n : Node}

/-- A loaded node is the root, which has no methods, or belongs to an entry of the document. -/
theorem ofDocument_entries (loads : ofDocument document = .ok t) :
    t.root.methods = [] ∧ t.root.property = none ∧
      ∀ n ∈ t.nodes, n = t.root ∨ ∃ e ∈ document.entries, n.OfEntry t.registry [] e := by
  obtain ⟨registry, -, h⟩ := bind_eq_ok.1 loads
  obtain ⟨_, -, h⟩ := bind_eq_ok.1 h
  obtain ⟨children, loaded, h⟩ := bind_eq_ok.1 h
  cases h
  obtain ⟨_, rfl, -, -, entries⟩ := loadNodes_ofEntry (List.forall_mem_nil Segment) document.nodes
    ⟨by simp, by simp, by simp⟩ loaded
  refine ⟨rfl, rfl, fun n mem => ?_⟩
  rw [Tree.nodes, Node.walk_eq, List.mem_cons] at mem
  rcases mem with rfl | below
  · exact .inl rfl
  · exact .inr (exists_entry_of_mem entries below)

theorem named_of_ofDocument (loads : ofDocument document = .ok t) (mem : n ∈ t.nodes) :
    n.Named ∧ ∀ s, n.changeSignal? = some s → s = defaultSignal ∨
      ∃ e ∈ document.entries, n.path = pathOf e.1 ∧ e.2.signal = some (.named s) := by
  obtain ⟨bare, plain, entries⟩ := ofDocument_entries loads
  rcases entries n mem with rfl | ⟨e, inside, ofEntry⟩
  · have silent : t.root.changeSignal? = none := by rw [Node.changeSignal?, plain]; rfl
    refine ⟨⟨by rw [bare]; exact List.nodup_nil, ?_, by rw [bare]; simp⟩, ?_⟩ <;>
      · intro s signal
        rw [silent] at signal
        contradiction
  · obtain ⟨l, parent, made⟩ := ofEntry.bare
    obtain ⟨⟨distinct, signal, reserved⟩, settings⟩ := bareNode_named made
    refine ⟨⟨distinct, signal, reserved⟩, fun s named => ?_⟩
    exact (settings s named).imp_right fun set => ⟨e, inside, ofEntry.path, set⟩

/-- What a call finds at a path is what the node there has under the name. -/
theorem resolveMethod_iff {method : String} {m : Method} (resolved : t.resolveNode path = .ok n) :
    t.resolveMethod path method = .ok (n, m) ↔ n.method? method = some m := by
  constructor
  · intro found
    exact (resolveMethod_eq_ok found).2
  · intro found
    refine bind_eq_ok.2 ⟨n, resolved, ?_⟩
    rw [found]

theorem dir_of_resolveNode (resolved : t.resolveNode path = .ok n) :
    t.dir path = .ok (standardMethods ++ n.methods.map (·.descriptor)) := by
  rw [dir, resolved]
  rfl

/-- What `dir` lists of the nodes of a loaded tree. The methods of a node have different names, and
one is listed exactly when a call finds it, as what it finds. A node has a method of a reserved name
exactly when its change signal has that name, which the document then gives it; and unless it does,
no name is listed twice and a call of a listed method takes a course of that method. -/
theorem ofDocument_dir (loads : ofDocument document = .ok t) :
    (∀ n ∈ t.nodes, ∀ name ∈ reservedMethods,
      ((∃ m ∈ n.methods, m.name = name) ↔ n.changeSignal? = some name) ∧
      (n.changeSignal? = some name → ∃ e ∈ document.entries, n.path = "/".intercalate e.1 ∧
        e.2.signal = some (.named name))) ∧
      ∀ path n, t.resolveNode path = .ok n →
        ∃ own, t.dir path = .ok (standardMethods ++ own) ∧ (own.map (·.name)).Nodup ∧
          (∀ entry, entry ∈ own ↔
            ∃ m, t.resolveMethod path entry.name = .ok (n, m) ∧ m.descriptor = entry) ∧
          (∀ method, (∃ entry ∈ own, entry.name = method) ↔
            ∃ found, t.resolveMethod path method = .ok found) ∧
          (((standardMethods ++ own).map (·.name)).Nodup ↔
            n.changeSignal? ≠ some "ls" ∧ n.changeSignal? ≠ some "dir") ∧
          ∀ (σ : Type) (d : Device σ) (q : Request) (s : σ) (entry : Descriptor), d.tree = t →
            q.path = path → entry ∈ own → q.method = entry.name →
            n.changeSignal? ≠ some "ls" → n.changeSignal? ≠ some "dir" →
            ∃ m, d.tree.resolveMethod q.path q.method = .ok (n, m) ∧ m.descriptor = entry ∧
              ∃ report s' seen, (d.call q).run s = (report, s') ∧
                d.Course q s report s' seen := by
  refine ⟨fun n mem name reserved => ?_, fun path n resolved => ?_⟩
  · obtain ⟨named, settings⟩ := named_of_ofDocument loads mem
    refine ⟨named.reserved_iff reserved, fun signal => ?_⟩
    rcases settings name signal with rfl | set
    · exact absurd reserved (by decide)
    · exact set
  · obtain ⟨named, -⟩ := named_of_ofDocument loads (mem_nodes_of_resolveNode resolved)
    have listed (entry : Descriptor) : entry ∈ n.methods.map (·.descriptor) ↔
        ∃ m, t.resolveMethod path entry.name = .ok (n, m) ∧ m.descriptor = entry := by
      simp only [resolveMethod_iff resolved, named.method?_eq_some, List.mem_map]
      constructor
      · rintro ⟨m, mem, rfl⟩
        exact ⟨m, ⟨mem, rfl⟩, rfl⟩
      · rintro ⟨m, ⟨mem, -⟩, same⟩
        exact ⟨m, mem, same⟩
    have found (method : String) : (∃ entry ∈ n.methods.map (·.descriptor), entry.name = method) ↔
        ∃ found, t.resolveMethod path method = .ok found := by
      constructor
      · rintro ⟨entry, mem, rfl⟩
        obtain ⟨m, found, -⟩ := (listed entry).1 mem
        exact ⟨_, found⟩
      · rintro ⟨⟨n', m⟩, found⟩
        obtain ⟨resolved', inside⟩ := resolveMethod_eq_ok found
        cases resolved.symm.trans resolved'
        obtain ⟨mem, same⟩ := named.method?_eq_some.1 inside
        exact ⟨_, List.mem_map_of_mem mem, same⟩
    refine ⟨_, dir_of_resolveNode resolved, ?_, listed, found, named.listing_nodup, ?_⟩
    · rw [List.map_map]
      exact named.distinct
    · rintro σ d q s entry rfl rfl mem same ls dir
      obtain ⟨m, resolves, described⟩ := (listed entry).1 mem
      have other (name : String) (reserved : name ∈ reservedMethods)
          (free : n.changeSignal? ≠ some name) : q.method ≠ name := by
        rintro rfl
        have inside := named.method?_eq_some.1 ((resolveMethod_iff resolved).1 resolves)
        exact free ((named.reserved_iff reserved).1 ⟨m, inside.1, inside.2.trans same.symm⟩)
      obtain ⟨report, s', seen, course⟩ := d.exists_course q s
      refine ⟨m, same ▸ resolves, described, report, s', seen, course.call_eq ?_, course⟩
      exact ⟨other _ (by decide) ls, other _ (by decide) dir⟩

end Tree

/-- A document with a lamp whose change signal has a name of its own. -/
def lampDocument (signal : String) : Document :=
  { nodes := [("lamp", { property := some "Bool", signal := some (.named signal) })] }

/-- What `dir` shows of the lamp of a tree: the change signal, and the names listed. -/
def lampListing (t : Tree) : Except ResolutionError (Option String × List String) := do
  let n ← t.resolveNode "lamp"
  let listed ← t.dir "lamp"
  .ok (n.changeSignal?, listed.map (·.name))

theorem lampListing_eq_ok {t : Tree} {signal : Option String} {names : List String}
    (h : lampListing t = .ok (signal, names)) :
    ∃ n, t.resolveNode "lamp" = .ok n ∧ ∃ listed, t.dir "lamp" = .ok listed ∧
      n.changeSignal? = signal ∧ listed.map (·.name) = names := by
  obtain ⟨n, resolved, h⟩ := bind_eq_ok.1 h
  obtain ⟨listed, lists, h⟩ := bind_eq_ok.1 h
  cases h
  exact ⟨n, resolved, listed, lists, rfl, rfl⟩

/-- The lamp with a change signal of a free name: no name is listed twice, and what is listed is
found. -/
theorem lampDocument_dir :
    ∃ t, Tree.ofDocument (lampDocument "lit") = .ok t ∧ ∃ n, t.resolveNode "lamp" = .ok n ∧
      ∃ own, t.dir "lamp" = .ok (standardMethods ++ own) ∧
        ((standardMethods ++ own).map (·.name)).Nodup ∧
        ∀ entry ∈ own, ∃ m, t.resolveMethod "lamp" entry.name = .ok (n, m) ∧
          m.descriptor = entry := by
  have run : lampListing <$> Tree.ofDocument (lampDocument "lit") =
      .ok (.ok (some "lit", ["dir", "ls", "get", "set", "lit"])) := by cbv
  obtain ⟨t, loads, shown⟩ := map_eq_ok.1 run
  obtain ⟨n, resolved, listed, lists, signal, -⟩ := lampListing_eq_ok shown
  obtain ⟨own, lists, -, found, -, distinct, -⟩ := (Tree.ofDocument_dir loads).2 "lamp" n resolved
  refine ⟨t, loads, n, resolved, own, lists, distinct.2 ?_, fun entry mem => (found entry).1 mem⟩
  rw [signal]
  decide

/-- The lamp with a change signal named `dir`: it has a method of that name, which is listed twice,
and calls of it are answered with the listing. -/
theorem shadowDocument_dir :
    ∃ t, Tree.ofDocument (lampDocument "dir") = .ok t ∧
      (∃ n ∈ t.nodes, ∃ m ∈ n.methods, m.name ∈ reservedMethods) ∧
      (∃ listed, t.dir "lamp" = .ok listed ∧ ¬ (listed.map (·.name)).Nodup) ∧
      ∀ (σ : Type) (d : Device σ) (s : σ) (access : AccessLevel), d.tree = t →
        (d.call { path := "lamp", method := "dir", access }).run s =
          (⟨t.answerDir "lamp" .null, [.received]⟩, s) := by
  have run : lampListing <$> Tree.ofDocument (lampDocument "dir") =
      .ok (.ok (some "dir", ["dir", "ls", "get", "set", "dir"])) := by cbv
  obtain ⟨t, loads, shown⟩ := map_eq_ok.1 run
  obtain ⟨n, resolved, listed, lists, signal, names⟩ := lampListing_eq_ok shown
  have mem := Tree.mem_nodes_of_resolveNode resolved
  obtain ⟨m, inside, same, -⟩ := (Tree.named_of_ofDocument loads mem).1.signal "dir" signal
  refine ⟨t, loads, ⟨n, mem, m, inside, ?_⟩, ⟨listed, lists, ?_⟩, fun σ d s access tree => ?_⟩
  · rw [same]
    decide
  · rw [names]
    decide
  · rw [← tree]
    exact d.call_dir rfl

end DeviceTree
