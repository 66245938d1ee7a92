import DeviceTree.Proofs.LoadedNodes

/-!
# Nodes and their paths

A document has an entry for each node, at a trail of names. `loadNodes_ofEntry` says that the nodes
of a loaded tree are those of the entries, in the order in which a stack gives them, and that their
paths are the trails joined by slashes.

Names can be told apart in such a path, since none is empty or has a slash (`splitOn_pathOf`). So
the path of a node, cut at the slashes, is what leads to it from the root (`Node.path_of_descend`),
and a path leads to the node that has it (`resolveNode_iff`).
-/

namespace DeviceTree

open Loading

/-! ## Names and paths -/

/-- A name that can be told apart in a path. -/
structure Segment (name : String) : Prop where
  nonempty : name ≠ ""
  whole : '/' ∉ name.toList

/-- The path along the names from the root on. -/
def pathOf (names : List String) : String :=
  "/".intercalate names

section

variable {names : List String}

theorem splitOn_eq_map (path : String) :
    Text.splitOn '/' path = (path.toList.splitOn '/').map String.ofList := by
  have same (cs : List Char) : Text.splitChars '/' cs = cs.splitOn '/' := by
    induction cs with
    | nil => rfl
    | cons c rest ih =>
      rw [Text.splitChars, ih, List.splitOn_cons_eq_if_modifyHead]
      by_cases slash : c = '/'
      · simp [slash]
      · obtain ⟨part, parts, split⟩ := List.exists_cons_of_ne_nil (List.splitOn_ne_nil '/' rest)
        simp [slash, split]
  rw [Text.splitOn, same]

/-- The names in a path are what is between its slashes. -/
theorem splitOn_pathOf (segments : ∀ s ∈ names, Segment s) (nonempty : names ≠ []) :
    Text.splitOn '/' (pathOf names) = names := by
  have whole : ∀ cs ∈ names.map String.toList, '/' ∉ cs := by
    intro cs mem
    obtain ⟨s, inside, rfl⟩ := List.mem_map.1 mem
    exact (segments s inside).whole
  have chars : (pathOf names).toList = List.intercalate ['/'] (names.map String.toList) :=
    String.toList_intercalate
  rw [splitOn_eq_map, chars, List.splitOn_intercalate '/' whole (by simpa using nonempty),
    List.map_map]
  simp [Function.comp_def]

theorem pathOf_splitOn (path : String) : pathOf (Text.splitOn '/' path) = path := by
  rw [← String.toList_inj, pathOf, String.toList_intercalate, splitOn_eq_map, List.map_map,
    show String.toList ∘ String.ofList = id from funext fun cs => String.toList_ofList,
    List.map_id, show "/".toList = ['/'] from rfl, List.intercalate_splitOn]

theorem pathOf_ne_empty (segments : ∀ s ∈ names, Segment s) (nonempty : names ≠ []) :
    pathOf names ≠ "" := by
  intro empty
  have split := splitOn_pathOf segments nonempty
  rw [empty, show Text.splitOn '/' "" = [""] by decide] at split
  exact (segments "" (split ▸ List.mem_singleton_self _)).nonempty rfl

/-- Other names make another path. -/
theorem pathOf_inj {names' : List String} (segments : ∀ s ∈ names, Segment s)
    (segments' : ∀ s ∈ names', Segment s) (same : pathOf names = pathOf names') :
    names = names' := by
  by_cases none : names = []
  · by_contra differ
    rw [none] at same differ
    exact pathOf_ne_empty segments' (Ne.symm differ) same.symm
  · by_cases none' : names' = []
    · rw [none'] at same
      exact absurd same (pathOf_ne_empty segments none)
    · rw [← splitOn_pathOf segments none, same, splitOn_pathOf segments' none']

theorem joinPath_pathOf (segments : ∀ s ∈ names, Segment s) (name : String) :
    joinPath (pathOf names) name = pathOf (names ++ [name]) := by
  rw [joinPath]
  by_cases none : names = []
  · simp [none, pathOf]
  · have some : (pathOf names).isEmpty = false := by simpa using pathOf_ne_empty segments none
    rw [some, if_neg (by decide), pathOf, pathOf,
      String.intercalate_append_of_ne_nil none (List.cons_ne_nil _ _), String.intercalate_singleton]

end

/-! ## The entries of a document -/

mutual

/-- The entry of a node and those below it, each at the trail of names that leads to it. -/
def NodeSpec.entries (name : String) : NodeSpec → List (List String × NodeSpec)
  | spec@⟨below, _, _, _, _, _, _⟩ =>
    ([name], spec) :: (NodeSpec.entriesOf below).map fun (trail, entry) => (name :: trail, entry)

/-- The entries of all nodes and those below them, depth first. -/
def NodeSpec.entriesOf : List (String × NodeSpec) → List (List String × NodeSpec)
  | [] => []
  | (name, spec) :: rest => spec.entries name ++ NodeSpec.entriesOf rest

end

/-- The entries of the nodes of a document in the order in which they are declared. -/
def Document.entries (document : Document) : List (List String × NodeSpec) :=
  NodeSpec.entriesOf document.nodes

/-- Nodes beside each other below the node at `parent`. -/
structure Node.Siblings (parent : String) (nodes : List Node) : Prop where
  distinct : (nodes.map (·.name)).Nodup
  segments : ∀ n ∈ nodes, Segment n.name
  paths : ∀ n ∈ nodes, n.path = joinPath parent n.name

theorem Node.Siblings.append {parent : String} {nodes : List Node} {n : Node}
    (h : Siblings parent nodes) (new : ∀ m ∈ nodes, m.name ≠ n.name) (segment : Segment n.name)
    (path : n.path = joinPath parent n.name) : Siblings parent (nodes ++ [n]) := by
  constructor
  · rw [List.map_append, List.nodup_append]
    refine ⟨h.distinct, by simp, fun name mem name' last => ?_⟩
    obtain ⟨m, inside, rfl⟩ := List.mem_map.1 mem
    rw [List.mem_singleton.1 last]
    exact new m inside
  · simpa [or_imp, forall_and] using ⟨h.segments, segment⟩
  · simpa [or_imp, forall_and] using ⟨h.paths, path⟩

/-- The node is that of the entry, where `trail` leads to what the entry is below. -/
structure Node.OfEntry (r : Registry) (trail : List String) (e : List String × NodeSpec)
    (n : Node) : Prop where
  segments : ∀ s ∈ e.1, Segment s
  name : e.1.getLast? = some n.name
  path : n.path = pathOf (trail ++ e.1)
  bare : ∃ l parent, bareNode r l parent n.name e.2 = .ok { n with children := [] }
  names : n.children.map (·.name) = e.2.nodes.map Prod.fst
  siblings : Siblings n.path n.children

namespace Loading

variable {r : Registry} {l : Location} {name : String} {n : Node}

theorem checkName_eq_ok (h : checkName l name = .ok ()) : Segment name := by
  rw [checkName] at h
  split at h
  · contradiction
  · next usable =>
    simp only [Bool.or_eq_true, String.isEmpty_iff, List.any_eq_true, beq_iff_eq, not_or,
      not_exists, not_and] at usable
    exact ⟨usable.1, fun mem => (usable.2 '/' mem).1 rfl⟩

theorem bareNode_eq_ok {parent : String} {spec : NodeSpec}
    (h : bareNode r l parent name spec = .ok n) :
    Segment name ∧ n.name = name ∧ n.path = joinPath parent name ∧
      n = { n with children := [] } := by
  obtain ⟨checked, -, p?, methods, all, -, -, rfl⟩ := bareNode_steps h
  exact ⟨checkName_eq_ok checked, rfl, rfl, rfl⟩

end Loading

/-- What is below a node is as far from the node above as the name of the node. -/
theorem Node.OfEntry.below {r : Registry} {trail : List String} {name : String}
    {e : List String × NodeSpec} {n : Node} (segment : Segment name)
    (h : n.OfEntry r (trail ++ [name]) e) : n.OfEntry r trail (name :: e.1, e.2) := by
  refine ⟨List.forall_mem_cons.2 ⟨segment, h.segments⟩, ?_, ?_, h.bare, h.names, h.siblings⟩
  · rw [List.getLast?_cons, h.name, Option.getD_some]
  · rw [h.path, List.append_assoc, List.singleton_append]

namespace Loading

variable {r : Registry}

mutual

theorem loadNode_ofEntry {l : Location} {name : String} {n : Node} {trail : List String}
    (segments : ∀ s ∈ trail, Segment s) : (spec : NodeSpec) →
    loadNode r l (pathOf trail) name spec = .ok n →
    Segment name ∧ n.name = name ∧ n.path = joinPath (pathOf trail) name ∧
      List.Forall₂ (Node.OfEntry r trail) (spec.entries name) n.walk
  | ⟨below, _, _, _, _, _, _⟩, h => by
    rw [loadNode] at h
    obtain ⟨bare, ok, rest⟩ := bind_eq_ok.1 h
    obtain ⟨children, loaded, made⟩ := bind_eq_ok.1 rest
    cases made
    obtain ⟨segment, rfl, path, leaf⟩ := bareNode_eq_ok ok
    rw [joinPath_pathOf segments] at path
    rw [path] at loaded
    have inner : ∀ s ∈ trail ++ [bare.name], Segment s := by
      simpa [or_imp, forall_and] using ⟨segments, segment⟩
    obtain ⟨new, rfl, names, siblings, entries⟩ :=
      loadNodes_ofEntry inner below ⟨by simp, by simp, by simp⟩ loaded
    refine ⟨segment, rfl, path.trans (joinPath_pathOf segments _).symm, ?_⟩
    rw [NodeSpec.entries, Node.walk_eq]
    refine .cons ⟨by simpa using segment, rfl, path, ⟨l, pathOf trail, ?_⟩, names,
      path ▸ siblings⟩ ?_
    · exact ok.trans (congrArg Except.ok leaf)
    · exact List.forall₂_map_left_iff.2 (entries.imp fun e n => Node.OfEntry.below segment)

theorem loadNodes_ofEntry {l : Location} {trail : List String} {acc nodes : List Node}
    (segments : ∀ s ∈ trail, Segment s) : (specs : List (String × NodeSpec)) →
    Node.Siblings (pathOf trail) acc → loadNodes r l (pathOf trail) acc specs = .ok nodes →
    ∃ new, nodes = acc ++ new ∧ new.map (·.name) = specs.map Prod.fst ∧
      Node.Siblings (pathOf trail) nodes ∧
      List.Forall₂ (Node.OfEntry r trail) (NodeSpec.entriesOf specs) (Node.walkAll new)
  | [], start, h => by
    cases h
    exact ⟨[], (List.append_nil _).symm, rfl, start, by simp [NodeSpec.entriesOf, Node.walkAll]⟩
  | (name, spec) :: rest, start, h => by
    rw [loadNodes] at h
    split at h
    · obtain ⟨_, thrown, -⟩ := bind_eq_ok.1 h
      contradiction
    · next new =>
      obtain ⟨n, ok, others⟩ := bind_eq_ok.1 h
      obtain ⟨segment, rfl, path, entries⟩ := loadNode_ofEntry segments spec ok
      have more := start.append (by simpa using new) segment path
      obtain ⟨added, rfl, names, siblings, entries'⟩ := loadNodes_ofEntry segments rest more others
      refine ⟨n :: added, List.append_assoc .., ?_, siblings, ?_⟩
      · rw [List.map_cons, names, List.map_cons]
      · rw [NodeSpec.entriesOf, Node.walkAll_cons]
        exact List.rel_append entries entries'

end

/-- What nodes that match entries have in common, and the entries. -/
theorem facts_of_entries {entries : List (List String × NodeSpec)} {nodes : List Node}
    (h : List.Forall₂ (Node.OfEntry r []) entries nodes) :
    (∀ n ∈ nodes, Node.Siblings n.path n.children) ∧
      (∀ e ∈ entries, (∀ s ∈ e.1, Segment s) ∧ (e.2.nodes.map Prod.fst).Nodup) ∧
      nodes.map (·.path) = entries.map fun e => pathOf e.1 := by
  induction h with
  | nil => simp
  | cons entry _ ih =>
    obtain ⟨siblings, distinct, paths⟩ := ih
    refine ⟨List.forall_mem_cons.2 ⟨entry.siblings, siblings⟩,
      List.forall_mem_cons.2 ⟨⟨entry.segments, ?_⟩, distinct⟩, ?_⟩
    · rw [← entry.names]
      exact entry.siblings.distinct
    · rw [List.map_cons, List.map_cons, paths, entry.path, List.nil_append]

end Loading

/-! ## Trails -/

section Trails

variable {e : List String × NodeSpec} {name : String}

theorem head?_of_mem_entries {spec : NodeSpec} (mem : e ∈ spec.entries name) :
    e.1.head? = some name := by
  cases spec
  rw [NodeSpec.entries, List.mem_cons, List.mem_map] at mem
  rcases mem with rfl | ⟨e', -, rfl⟩
  · rfl
  · rfl

theorem head?_of_mem_entriesOf {specs : List (String × NodeSpec)}
    (mem : e ∈ NodeSpec.entriesOf specs) : ∃ name ∈ specs.map Prod.fst, e.1.head? = some name := by
  induction specs with
  | nil => simp [NodeSpec.entriesOf] at mem
  | cons first rest ih =>
    rw [NodeSpec.entriesOf, List.mem_append] at mem
    rcases mem with mem | mem
    · exact ⟨first.1, List.mem_cons_self .., head?_of_mem_entries mem⟩
    · obtain ⟨name, inside, head⟩ := ih mem
      exact ⟨name, List.mem_cons_of_mem _ inside, head⟩

mutual

/-- With distinct names beside each other, each entry has a trail of its own. -/
theorem nodup_trails {first : String} : (spec : NodeSpec) →
    (∀ e ∈ spec.entries first, (e.2.nodes.map Prod.fst).Nodup) →
    ((spec.entries first).map Prod.fst).Nodup
  | ⟨below, _, _, _, _, _, _⟩, distinct => by
    rw [NodeSpec.entries, List.forall_mem_cons] at distinct
    have inner := nodup_trailsOf below distinct.1 fun e mem =>
      distinct.2 (first :: e.1, e.2) (List.mem_map.2 ⟨e, mem, rfl⟩)
    have trails : ((NodeSpec.entriesOf below).map fun (trail, entry) =>
        (first :: trail, entry)).map Prod.fst =
        ((NodeSpec.entriesOf below).map Prod.fst).map (first :: ·) := by
      rw [List.map_map, List.map_map]
      rfl
    rw [NodeSpec.entries, List.map_cons, trails, List.nodup_cons]
    refine ⟨fun mem => ?_, inner.map (List.cons_injective)⟩
    obtain ⟨trail, inside, same⟩ := List.mem_map.1 mem
    obtain ⟨e, entry, trail⟩ := List.mem_map.1 inside
    obtain ⟨next, -, head⟩ := head?_of_mem_entriesOf entry
    rw [trail, (List.cons.inj same).2] at head
    contradiction

theorem nodup_trailsOf : (specs : List (String × NodeSpec)) → (specs.map Prod.fst).Nodup →
    (∀ e ∈ NodeSpec.entriesOf specs, (e.2.nodes.map Prod.fst).Nodup) →
    ((NodeSpec.entriesOf specs).map Prod.fst).Nodup
  | [], _, _ => by simp [NodeSpec.entriesOf]
  | (first, spec) :: rest, names, distinct => by
    rw [List.map_cons, List.nodup_cons] at names
    rw [NodeSpec.entriesOf, List.forall_mem_append] at distinct
    rw [NodeSpec.entriesOf, List.map_append, List.nodup_append]
    refine ⟨nodup_trails spec distinct.1, nodup_trailsOf rest names.2 distinct.2, ?_⟩
    intro trail here trail' there same
    obtain ⟨e, inside, trail₁⟩ := List.mem_map.1 here
    obtain ⟨e', inside', trail₂⟩ := List.mem_map.1 there
    obtain ⟨other, mem, head⟩ := head?_of_mem_entriesOf inside'
    rw [trail₂, ← same, ← trail₁, head?_of_mem_entries inside] at head
    exact names.1 (Option.some.inj head ▸ mem)

end

/-- The paths of entries differ, and differ from that of the root. -/
theorem nodup_paths {specs : List (String × NodeSpec)} (names : (specs.map Prod.fst).Nodup)
    (entries : ∀ e ∈ NodeSpec.entriesOf specs,
      (∀ s ∈ e.1, Segment s) ∧ (e.2.nodes.map Prod.fst).Nodup) :
    (pathOf [] :: (NodeSpec.entriesOf specs).map fun e => pathOf e.1).Nodup := by
  have trails : ([] :: (NodeSpec.entriesOf specs).map Prod.fst).Nodup := by
    refine List.nodup_cons.2 ⟨fun mem => ?_, nodup_trailsOf specs names fun e mem =>
      (entries e mem).2⟩
    obtain ⟨e, entry, empty⟩ := List.mem_map.1 mem
    obtain ⟨name, -, head⟩ := head?_of_mem_entriesOf entry
    rw [empty] at head
    contradiction
  have segments : ∀ trail ∈ [] :: (NodeSpec.entriesOf specs).map Prod.fst,
      ∀ s ∈ trail, Segment s := by
    refine List.forall_mem_cons.2 ⟨nofun, fun trail mem => ?_⟩
    obtain ⟨e, entry, rfl⟩ := List.mem_map.1 mem
    exact (entries e entry).1
  have paths := trails.map_on fun a mem b mem' same =>
    pathOf_inj (segments a mem) (segments b mem') same
  rw [List.map_cons, List.map_map] at paths
  exact paths

end Trails

/-! ## Ways down -/

namespace Node

variable {n m c : Node} {names : List String}

theorem mem_walk_self (n : Node) : n ∈ n.walk := by
  rw [walk_eq]
  exact List.mem_cons_self ..

theorem mem_walk_of_mem_children (child : c ∈ n.children) (mem : m ∈ c.walk) : m ∈ n.walk := by
  rw [walk_eq]
  exact List.mem_cons_of_mem _ (mem_walkAll.2 ⟨c, child, mem⟩)

/-- Descending from a node leads to a node below it. -/
theorem mem_walk_of_descend (h : n.descend names = .ok m) : m ∈ n.walk := by
  induction names generalizing n with
  | nil =>
    cases h
    exact mem_walk_self _
  | cons segment rest ih =>
    rw [descend] at h
    split at h
    · next child found => exact mem_walk_of_mem_children (List.mem_of_find?_eq_some found) (ih h)
    · contradiction

theorem descend_append {names' : List String} (h : n.descend names = .ok m) :
    n.descend (names ++ names') = m.descend names' := by
  induction names generalizing n with
  | nil =>
    cases h
    rfl
  | cons segment rest ih =>
    rw [descend] at h
    rw [List.cons_append, descend]
    split at h
    · exact ih h
    · contradiction

theorem Siblings.child?_name (h : Siblings n.path n.children) (child : c ∈ n.children) :
    n.child? c.name = some c := by
  rw [child?]
  cases found : n.children.find? (·.name == c.name) with
  | none =>
    have none := List.find?_eq_none.1 found c child
    simp at none
  | some c' =>
    have same : c'.name = c.name := by simpa using List.find?_some found
    rw [List.inj_on_of_nodup_map h.distinct (List.mem_of_find?_eq_some found) child same]

/-- Some names lead down to every node below. -/
theorem exists_descend (n : Node) (siblings : ∀ m ∈ n.walk, Siblings m.path m.children)
    (mem : m ∈ n.walk) : ∃ names, n.descend names = .ok m := by
  have here := siblings n (mem_walk_self n)
  rw [walk_eq, List.mem_cons] at mem
  rcases mem with rfl | mem
  · exact ⟨[], rfl⟩
  · obtain ⟨c, child, mem⟩ := mem_walkAll.1 mem
    obtain ⟨names, descended⟩ := exists_descend c
      (fun m mem => siblings m (mem_walk_of_mem_children child mem)) mem
    exact ⟨c.name :: names, by rw [descend, here.child?_name child]; exact descended⟩
termination_by sizeOf n
decreasing_by
  have inside := List.sizeOf_lt_of_mem child
  have above := sizeOf_children_lt n
  omega

/-- The path of a node is made of the names that lead to it. -/
theorem path_of_descend (trail : List String) (segments : ∀ s ∈ trail, Segment s)
    (path : n.path = pathOf trail) (siblings : ∀ m ∈ n.walk, Siblings m.path m.children)
    (h : n.descend names = .ok m) :
    (∀ s ∈ names, Segment s) ∧ m.path = pathOf (trail ++ names) := by
  induction names generalizing n trail with
  | nil =>
    cases h
    exact ⟨by simp, by rw [path, List.append_nil]⟩
  | cons name rest ih =>
    rw [descend] at h
    split at h
    · next c found =>
      obtain rfl : c.name = name := by simpa using List.find?_some found
      have child : c ∈ n.children := List.mem_of_find?_eq_some found
      have here := siblings n (mem_walk_self n)
      have segment := here.segments c child
      have path' : c.path = pathOf (trail ++ [c.name]) := by
        rw [here.paths c child, path, joinPath_pathOf segments]
      obtain ⟨segments', down⟩ := ih (trail ++ [c.name])
        (by simpa [or_imp, forall_and] using ⟨segments, segment⟩) path'
        (fun m mem => siblings m (mem_walk_of_mem_children child mem)) h
      refine ⟨List.forall_mem_cons.2 ⟨segment, segments'⟩, ?_⟩
      rw [down, List.append_assoc, List.singleton_append]
    · contradiction

end Node

namespace Tree

variable {t : Tree} {path name : String} {n : Node}

theorem mem_nodes_of_resolveNode (h : t.resolveNode path = .ok n) : n ∈ t.nodes := by
  rw [resolveNode] at h
  split at h
  · cases h
    exact Node.mem_walk_self _
  · split at h
    · next descended =>
      cases h
      exact Node.mem_walk_of_descend descended
    · contradiction

section

variable (top : t.root.path = "") (siblings : ∀ n ∈ t.nodes, Node.Siblings n.path n.children)

include top siblings

theorem path_of_descend {names : List String} (h : t.root.descend names = .ok n) :
    (∀ s ∈ names, Segment s) ∧ n.path = pathOf names :=
  Node.path_of_descend [] nofun top siblings h

/-- A path leads where its names lead from the root. -/
theorem resolveNode_iff_descend :
    t.resolveNode path = .ok n ↔ ∃ names, t.root.descend names = .ok n ∧ pathOf names = path := by
  rw [resolveNode]
  constructor
  · intro h
    split at h
    · next empty =>
      cases h
      exact ⟨[], rfl, (String.isEmpty_iff.1 empty).symm⟩
    · split at h
      · next descended =>
        cases h
        exact ⟨_, descended, pathOf_splitOn path⟩
      · contradiction
  · rintro ⟨names, descended, rfl⟩
    obtain ⟨segments, -⟩ := path_of_descend top siblings descended
    by_cases none : names = []
    · subst none
      cases descended
      rfl
    · have some : (pathOf names).isEmpty = false := by simpa using pathOf_ne_empty segments none
      rw [some, if_neg (by decide), splitOn_pathOf segments none, descended]

theorem resolveNode_iff : t.resolveNode path = .ok n ↔ n ∈ t.nodes ∧ n.path = path := by
  constructor
  · intro h
    obtain ⟨names, descended, rfl⟩ := (resolveNode_iff_descend top siblings).1 h
    exact ⟨mem_nodes_of_resolveNode h, (path_of_descend top siblings descended).2⟩
  · rintro ⟨mem, rfl⟩
    obtain ⟨names, descended⟩ := Node.exists_descend t.root siblings mem
    have path := (path_of_descend top siblings descended).2
    exact (resolveNode_iff_descend top siblings).2 ⟨names, descended, path.symm⟩

/-- The names of the children of a node are those that lead on from its path. -/
theorem mem_children_iff (resolved : t.resolveNode path = .ok n) :
    name ∈ n.children.map (·.name) ↔
      name ≠ "" ∧ '/' ∉ name.toList ∧ ∃ m, t.resolveNode (joinPath path name) = .ok m := by
  have here := siblings n (mem_nodes_of_resolveNode resolved)
  obtain ⟨names, descended, rfl⟩ := (resolveNode_iff_descend top siblings).1 resolved
  obtain ⟨segments, -⟩ := path_of_descend top siblings descended
  rw [joinPath_pathOf segments]
  constructor
  · intro mem
    obtain ⟨c, child, rfl⟩ := List.mem_map.1 mem
    have segment := here.segments c child
    refine ⟨segment.nonempty, segment.whole, c, ?_⟩
    refine (resolveNode_iff_descend top siblings).2 ⟨names ++ [c.name], ?_, rfl⟩
    rw [Node.descend_append descended, Node.descend, here.child?_name child]
    rfl
  · rintro ⟨nonempty, whole, m, found⟩
    obtain ⟨names', descended', same⟩ := (resolveNode_iff_descend top siblings).1 found
    obtain ⟨segments', -⟩ := path_of_descend top siblings descended'
    have longer : ∀ s ∈ names ++ [name], Segment s := by
      simpa [or_imp, forall_and] using ⟨segments, Segment.mk nonempty whole⟩
    rw [pathOf_inj segments' longer same, Node.descend_append descended, Node.descend] at descended'
    split at descended'
    · next c child =>
      exact List.mem_map.2 ⟨c, List.mem_of_find?_eq_some child, by
        simpa using List.find?_some child⟩
    · contradiction

end

/-- The nodes of a loaded tree are the root and one node for each entry of the document, in order
and at the path that joins the names down to it. No two have the same path, and a path leads to the
node that has it; what `ls` lists are the names that lead on. No two entries beside each other have
the same name. -/
theorem ofDocument_nodes {document : Document} {t : Tree} (loads : ofDocument document = .ok t) :
    (∃ below, t.nodes = t.root :: below ∧ t.root.name = "" ∧ t.root.path = "" ∧
        List.Forall₂ (fun e n => n.path = "/".intercalate e.1 ∧ e.1.getLast? = some n.name ∧
          n.children.map (·.name) = e.2.nodes.map Prod.fst ∧
          ∃ l parent, bareNode t.registry l parent n.name e.2 = .ok { n with children := [] })
          document.entries below) ∧
      (t.nodes.map (·.path)).Nodup ∧
      (∀ path n, t.resolveNode path = .ok n ↔ n ∈ t.nodes ∧ n.path = path) ∧
      (∀ path n, t.resolveNode path = .ok n → ∃ names, t.ls path = .ok names ∧ ∀ name,
        name ∈ names ↔
          name ≠ "" ∧ '/' ∉ name.toList ∧ ∃ m, t.resolveNode (joinPath path name) = .ok m) ∧
      (document.nodes.map Prod.fst).Nodup ∧
      ∀ e ∈ document.entries, (e.2.nodes.map Prod.fst).Nodup := by
  obtain ⟨registry, -, h⟩ := bind_eq_ok.1 loads
  obtain ⟨_, -, h⟩ := bind_eq_ok.1 h
  obtain ⟨children, loaded, h⟩ := bind_eq_ok.1 h
  cases h
  have loaded : loadNodes registry ⟨["nodes"]⟩ (pathOf []) [] document.nodes = .ok children := loaded
  obtain ⟨_, rfl, names, top, entries⟩ :=
    loadNodes_ofEntry (by simp) document.nodes ⟨by simp, by simp, by simp⟩ loaded
  obtain ⟨siblings, distinct, paths⟩ := facts_of_entries entries
  have first : (document.nodes.map Prod.fst).Nodup := names ▸ top.distinct
  have nodes : Tree.nodes ⟨registry, { children }⟩ = { children } :: Node.walkAll children :=
    Node.walk_eq _
  have formed : ∀ n ∈ Tree.nodes ⟨registry, { children }⟩, Node.Siblings n.path n.children := by
    rw [nodes]
    exact List.forall_mem_cons.2 ⟨top, siblings⟩
  refine ⟨⟨_, nodes, rfl, rfl, entries.imp fun e n h => ⟨h.path, h.name, h.names, h.bare⟩⟩, ?_,
    fun path n => resolveNode_iff rfl formed, fun path n resolved => ?_, first,
    fun e mem => (distinct e mem).2⟩
  · rw [nodes, List.map_cons, paths]
    exact nodup_paths first distinct
  · refine ⟨n.children.map (·.name), ?_, fun name => mem_children_iff rfl formed resolved⟩
    rw [ls, resolved]
    rfl

end Tree

/-- A document with a node of two nodes, and one beside it. -/
def plantDocument : Document :=
  { nodes := [("boiler", { nodes := [("pump", {}), ("valve", {})] }), ("lamp", {})] }

/-- The document of the plant loads, and its nodes are found at their paths. -/
theorem plantDocument_nodes :
    ∃ t, Tree.ofDocument plantDocument = .ok t ∧
      t.nodes.map (·.path) = ["", "boiler", "boiler/pump", "boiler/valve", "lamp"] ∧
      (∀ n ∈ t.nodes, t.resolveNode n.path = .ok n) ∧
      ∃ names, t.ls "boiler" = .ok names ∧
        ∀ name, name ∈ names ↔ name ≠ "" ∧ '/' ∉ name.toList ∧
          ∃ m, t.resolveNode (joinPath "boiler" name) = .ok m := by
  have run : (fun t : Tree => (t.nodes.map (·.path), (t.resolveNode "boiler").isOk)) <$>
      Tree.ofDocument plantDocument =
        .ok (["", "boiler", "boiler/pump", "boiler/valve", "lamp"], true) := by cbv
  obtain ⟨t, loads, shown⟩ := map_eq_ok.1 run
  obtain ⟨paths, found⟩ := Prod.mk.inj shown
  obtain ⟨-, -, resolve, ls, -⟩ := Tree.ofDocument_nodes loads
  refine ⟨t, loads, paths, fun n mem => (resolve _ n).2 ⟨mem, rfl⟩, ?_⟩
  rcases boiler : t.resolveNode "boiler" with e | n
  · rw [boiler] at found
    contradiction
  · exact ls "boiler" n boiler

end DeviceTree
