import DeviceTree.Proofs.Listings
import DeviceTree.Proofs.Shorthand

/-!
# No key is ignored

A document that loads has only keys that mean something, in every mapping that is a part of its
structure: `Outline.Recognized` says so of the document as written. Readers keep unknown keys aside,
and loading refuses them, for nodes and methods where they stand (`bareNode_accepted`), for
specifications of types wherever they are interpreted. As what stands in place is interpreted there
(`Place.around`), this is at any depth (`recognized_of_within`).
-/

namespace DeviceTree

open Loading

/-! ## The mappings of a document -/

namespace Outline

/-- The mapping has an entry with that key and that value. -/
def Binds (entries : List (Key × Outline)) (key : String) (value : Outline) : Prop :=
  ∃ k, (k, value) ∈ entries ∧ k.name = key

/-- The mapping describes a node of the document. -/
inductive NodeIn (o : Outline) : List (Key × Outline) → Prop
  | top {sections nodes entries : List (Key × Outline)} {name : String} :
    o = .mapping sections → Binds sections "nodes" (.mapping nodes) →
    Binds nodes name (.mapping entries) → NodeIn o entries
  | inside {above nodes entries : List (Key × Outline)} {name : String} :
    NodeIn o above → Binds above "nodes" (.mapping nodes) →
    Binds nodes name (.mapping entries) → NodeIn o entries

end Outline

/-- The specification stands in that of the named type, in place at any depth, or is it itself. -/
inductive Loading.Within : String → Json → Json → Prop
  | self (name : String) (spec : Json) : Within name spec spec
  | step {name derived companion : String} {whole : Json → Json} {part inner : Json} :
    Place name derived whole → companionName? derived part = some companion →
    Within companion part inner → Within name (whole part) inner

namespace Outline

/-- The mapping specifies a type of the document, by itself or in place. -/
def SpecIn (o : Outline) (attrs : Attributes) : Prop :=
  ∃ sections types name value spec, o = .mapping sections ∧
    Binds sections "types" (.mapping types) ∧ Binds types name value ∧
    value.plain? false = some spec ∧ Within name spec (.obj attrs)

end Outline

/-! ## Mappings that are read entry by entry -/

section Entries

variable {S α : Type} {f : S → Outline.Key × Outline → Option S}
  {entries : List (Outline.Key × Outline)} {s s' : S} {key : String} {known : List String}

/-- Without an entry of a key, what it would give stays. -/
theorem get_eq_of_absent {get : S → α}
    (kept : ∀ s e s', f s e = some s' → e.1.name ≠ key → get s' = get s)
    (absent : ∀ e ∈ entries, e.1.name ≠ key) (fold : entries.foldlM f s = some s') :
    get s' = get s := by
  induction entries generalizing s with
  | nil =>
    cases fold
    rfl
  | cons e rest ih =>
    rw [List.foldlM_cons] at fold
    obtain ⟨s₁, first, fold⟩ := Option.bind_eq_some_iff.1 fold
    rw [List.forall_mem_cons] at absent
    rw [ih absent.2 fold, kept s e s₁ first absent.1]

/-- What the only entry of a key gives is what the mapping gives. -/
theorem read_of_binds (get : S → α) (read : Outline → Option α)
    (here : ∀ s e s', f s e = some s' → e.1.name = key → read e.2 = some (get s'))
    (kept : ∀ s e s', f s e = some s' → e.1.name ≠ key → get s' = get s)
    (once : entries.countP (·.1.name == key) ≤ 1) (fold : entries.foldlM f s = some s')
    {value : Outline} (given : Outline.Binds entries key value) : read value = some (get s') := by
  obtain ⟨k, mem, named⟩ := given
  induction entries generalizing s with
  | nil => contradiction
  | cons first rest ih =>
    rw [List.foldlM_cons] at fold
    obtain ⟨s₁, one, others⟩ := Option.bind_eq_some_iff.1 fold
    rw [List.countP_cons] at once
    rcases List.mem_cons.1 mem with rfl | mem
    · rw [if_pos (beq_iff_eq.2 named)] at once
      have absent : ∀ e ∈ rest, e.1.name ≠ key := by
        have none : rest.countP (·.1.name == key) = 0 := by omega
        simpa [List.countP_eq_zero] using none
      rw [get_eq_of_absent kept absent others]
      exact here s _ s₁ one named
    · exact ih (by omega) others mem

theorem once_of_not_repeats (single : Document.repeatsKey known entries = false)
    (mem : key ∈ known) : entries.countP (·.1.name == key) ≤ 1 := by
  simp only [Document.repeatsKey, List.any_eq_false, decide_eq_true_eq, Nat.not_lt] at single
  exact single key mem

theorem mem_of_mapM {β γ : Type} {g : β → Option γ} {items : List β} {results : List γ}
    (read : items.mapM g = some results) {b : β} (mem : b ∈ items) :
    ∃ c ∈ results, g b = some c := by
  induction items generalizing results with
  | nil => contradiction
  | cons item rest ih =>
    rw [List.mapM_cons] at read
    obtain ⟨c, first, read⟩ := Option.bind_eq_some_iff.1 read
    obtain ⟨others, more, read⟩ := Option.bind_eq_some_iff.1 read
    cases read
    rcases List.mem_cons.1 mem with rfl | mem
    · exact ⟨c, List.mem_cons_self .., first⟩
    · obtain ⟨c', inside, here⟩ := ih more mem
      exact ⟨c', List.mem_cons_of_mem _ inside, here⟩

end Entries

/-! ## Sections, nodes and methods as read -/

namespace Document

section Readers

variable {d d' : Document} {spec spec' : NodeSpec} {m m' : MethodSpec}
  {e : Outline.Key × Outline} {entries : List (Outline.Key × Outline)}

theorem readSection?_cases (read : readSection? d e.1 e.2 = some d') :
    (e.1.name = "types" ∧ ∃ types, readTypes? e.2 = some types ∧ d' = { d with types }) ∨
    (e.1.name = "nodes" ∧ ∃ nodes, readNodes? e.2 = some nodes ∧ d' = { d with nodes }) ∨
    (e.1.name ∉ sections ∧ ∃ v, d' = { d with extra := putEntry e.1.name v d.extra }) := by
  rw [readSection?] at read
  split at read <;> obtain ⟨v, given, rfl⟩ := Option.map_eq_some_iff.1 read
  · next here => exact .inl ⟨here, v, given, rfl⟩
  · next here => exact .inr (.inl ⟨here, v, given, rfl⟩)
  · next types nodes => exact .inr (.inr ⟨by simpa [sections] using ⟨types, nodes⟩, v, rfl⟩)

/-- A node with one more entry. -/
def readNodePart? (spec : NodeSpec) (e : Outline.Key × Outline) : Option NodeSpec :=
  if e.1.name == "nodes" then (readNodes? e.2).map fun nodes => { spec with nodes }
  else readNodeField? spec e.1 e.2

theorem readNodeFields?_eq : readNodeFields? spec entries = entries.foldlM readNodePart? spec := by
  induction entries generalizing spec with
  | nil =>
    rw [readNodeFields?]
    rfl
  | cons e rest ih =>
    rw [readNodeFields?, List.foldlM_cons, readNodePart?]
    split
    · rw [Option.bind_eq_bind, Option.bind_eq_bind, Option.bind_map]
      exact Option.bind_congr fun _ _ => ih
    · exact Option.bind_congr fun _ _ => ih

/-- What one more entry does to a node. -/
theorem readNodePart?_cases (read : readNodePart? spec e = some spec') :
    (e.1.name = "nodes" ∧ ∃ nodes, readNodes? e.2 = some nodes ∧ spec' = { spec with nodes }) ∨
    (e.1.name = "methods" ∧
      ∃ methods, readMethods? e.2 = some methods ∧ spec' = { spec with methods }) ∨
    (e.1.name = "property" ∧
      ∃ property, e.2.optionalText? = some property ∧ spec' = { spec with property }) ∨
    (e.1.name = "readonly" ∧
      ∃ readonly, e.2.optionalBool? = some readonly ∧ spec' = { spec with readonly }) ∨
    (e.1.name = "signal" ∧
      ∃ signal, readSignal? e.2 = some signal ∧ spec' = { spec with signal }) ∨
    (e.1.name = "description" ∧ ∃ description, spec' = { spec with description }) ∨
    (e.1.name ∉ nodeKeys ∧ ∃ v, spec' = { spec with extra := putEntry e.1.name v spec.extra }) := by
  rw [readNodePart?] at read
  split at read
  · next here =>
    obtain ⟨nodes, given, rfl⟩ := Option.map_eq_some_iff.1 read
    exact .inl ⟨beq_iff_eq.1 here, nodes, given, rfl⟩
  · next nodes =>
    rw [readNodeField?] at read
    split at read <;> obtain ⟨v, given, rfl⟩ := Option.map_eq_some_iff.1 read
    · next here => exact .inr (.inl ⟨here, v, given, rfl⟩)
    · next here => exact .inr (.inr (.inl ⟨here, v, given, rfl⟩))
    · next here => exact .inr (.inr (.inr (.inl ⟨here, v, given, rfl⟩)))
    · next here => exact .inr (.inr (.inr (.inr (.inl ⟨here, v, given, rfl⟩))))
    · next here => exact .inr (.inr (.inr (.inr (.inr (.inl ⟨here, v, rfl⟩)))))
    · next methods property readonly signal description =>
      refine .inr (.inr (.inr (.inr (.inr (.inr ⟨?_, v, rfl⟩)))))
      rw [beq_iff_eq] at nodes
      simpa [nodeKeys] using ⟨nodes, methods, property, readonly, signal, description⟩

/-- A node is read entry by entry, with no known key twice. -/
theorem readNode?_mapping (read : readNode? (.mapping entries) = some spec) :
    repeatsKey nodeKeys entries = false ∧ entries.foldlM readNodePart? {} = some spec := by
  rw [readNode?, readNodeFields?_eq] at read
  split at read
  · contradiction
  · exact ⟨Bool.eq_false_iff.2 ‹_›, read⟩

section Fields

variable {value : Outline} (read : readNode? (.mapping entries) = some spec)
include read

theorem field_of_binds {α : Type} (get : NodeSpec → α) (field : Outline → Option α) {key : String}
    (known : key ∈ nodeKeys)
    (step : ∀ s e s', readNodePart? s e = some s' →
      if e.1.name = key then field e.2 = some (get s') else get s' = get s)
    (given : Outline.Binds entries key value) : field value = some (get spec) := by
  obtain ⟨single, fold⟩ := readNode?_mapping read
  refine read_of_binds get field (fun s e s' here named => ?_) (fun s e s' here other => ?_)
    (once_of_not_repeats single known) fold given
  · simpa [named] using step s e s' here
  · simpa [other] using step s e s' here

theorem readNodes?_of_binds (given : Outline.Binds entries "nodes" value) :
    readNodes? value = some spec.nodes := by
  refine field_of_binds read (·.nodes) readNodes? (by decide) (fun s e s' step => ?_) given
  grind [readNodePart?_cases step, nodeKeys]

end Fields

theorem mem_of_readNodes? {nodes : List (String × NodeSpec)} {name : String} {value : Outline}
    (read : readNodes? (.mapping entries) = some nodes) (given : Outline.Binds entries name value) :
    ∃ spec, (name, spec) ∈ nodes ∧ readNode? value = some spec := by
  obtain ⟨k, mem, rfl⟩ := given
  rw [readNodes?] at read
  induction entries generalizing nodes with
  | nil => contradiction
  | cons e rest ih =>
    rw [readNodeEntries?] at read
    obtain ⟨spec, first, read⟩ := Option.bind_eq_some_iff.1 read
    obtain ⟨others, more, rfl⟩ := Option.map_eq_some_iff.1 read
    rcases List.mem_cons.1 mem with rfl | mem
    · exact ⟨spec, List.mem_cons_self .., first⟩
    · obtain ⟨spec', inside, here⟩ := ih more mem
      exact ⟨spec', List.mem_cons_of_mem _ inside, here⟩

theorem mem_of_readTypes? {types : List (String × Json)} {name : String} {value : Outline}
    {spec : Json} (read : readTypes? (.mapping entries) = some types)
    (given : Outline.Binds entries name value) (plain : value.plain? false = some spec) :
    (name, spec) ∈ types := by
  obtain ⟨k, mem, rfl⟩ := given
  rw [readTypes?] at read
  obtain ⟨entry, inside, here⟩ := mem_of_mapM read mem
  obtain ⟨spec', read, rfl⟩ := Option.map_eq_some_iff.1 here
  cases plain.symm.trans read
  exact inside

section Sections

variable {value : Outline} (read : ofOutline? (.mapping entries) = some d)
include read

theorem section_of_binds {α : Type} (get : Document → α) (part : Outline → Option α) {key : String}
    (known : key ∈ sections)
    (step : ∀ d (e : Outline.Key × Outline) d', readSection? d e.1 e.2 = some d' →
      if e.1.name = key then part e.2 = some (get d') else get d' = get d)
    (given : Outline.Binds entries key value) : part value = some (get d) := by
  rw [ofOutline?] at read
  split at read
  · contradiction
  · next single =>
    refine read_of_binds get part (fun s e s' here named => ?_) (fun s e s' here other => ?_)
      (once_of_not_repeats (Bool.eq_false_iff.2 single) known) read given
    · simpa [named] using step s e s' here
    · simpa [other] using step s e s' here

theorem types_of_binds (given : Outline.Binds entries "types" value) :
    readTypes? value = some d.types := by
  refine section_of_binds read (·.types) readTypes? (by decide) (fun s e s' step => ?_) given
  grind [readSection?_cases step, sections]

theorem nodes_of_binds (given : Outline.Binds entries "nodes" value) :
    readNodes? value = some d.nodes := by
  refine section_of_binds read (·.nodes) readNodes? (by decide) (fun s e s' step => ?_) given
  grind [readSection?_cases step, sections]

end Sections

end Readers

end Document

/-! ## Refusals -/

namespace Loading

variable {r : Registry} {l : Location}

/-- What is known of a node that is loaded. -/
structure Accepted (spec : NodeSpec) : Prop where
  extra : spec.extra = []
  settings : spec.readonly.isSome = true ∨ spec.signal.isSome = true → spec.property.isSome = true
  methods : ∀ m ∈ spec.methods, m.2.extra = []

theorem nodeProperty_settings {spec : NodeSpec} {p : Option Property × List Method}
    (h : nodeProperty r l spec = .ok p) :
    spec.readonly.isSome = true ∨ spec.signal.isSome = true → spec.property.isSome = true := by
  rw [nodeProperty] at h
  split at h
  · next given =>
    intro
    rw [given, Option.isSome_some]
  · obtain ⟨_, refused, -⟩ := bind_eq_ok.1 h
    have none := refuseKeys_eq_ok refused
    rw [List.append_eq_nil_iff] at none
    rintro (readonly | signal)
    · simp [readonly] at none
    · simp [signal] at none

theorem bareNode_accepted {parent name : String} {spec : NodeSpec} {n : Node}
    (h : bareNode r l parent name spec = .ok n) : Accepted spec := by
  obtain ⟨-, extra, p?, methods, all, ok, added, -⟩ := bareNode_steps h
  obtain ⟨declared, -, each, -⟩ := addDeclaredMethods_eq_ok added
  refine ⟨extra, nodeProperty_settings ok, fun p mem => ?_⟩
  obtain ⟨m, -, ok⟩ := exists_entry_of_mem each.flip mem
  exact (declaredMethod_eq_ok ok).2.1

/-- Each of the nodes beside each other has been loaded. -/
theorem exists_loadNode {parent : String} {acc nodes : List Node}
    {specs : List (String × NodeSpec)} (h : loadNodes r l parent acc specs = .ok nodes) :
    ∀ e ∈ specs, ∃ l' n, loadNode r l' parent e.1 e.2 = .ok n := by
  induction specs generalizing acc with
  | nil => exact List.forall_mem_nil _
  | cons entry rest ih =>
    obtain ⟨name, spec⟩ := entry
    rw [loadNodes] at h
    split at h
    · obtain ⟨_, thrown, -⟩ := bind_eq_ok.1 h
      contradiction
    · obtain ⟨n, ok, h⟩ := bind_eq_ok.1 h
      exact List.forall_mem_cons.2 ⟨⟨_, n, ok⟩, ih h⟩

theorem loadNode_eq_ok {parent name : String} {spec : NodeSpec} {n : Node}
    (h : loadNode r l parent name spec = .ok n) :
    Accepted spec ∧ ∃ l' parent' children, loadNodes r l' parent' [] spec.nodes = .ok children := by
  obtain ⟨below, _, _, _, _, _, _⟩ := spec
  rw [loadNode] at h
  obtain ⟨bare, ok, h⟩ := bind_eq_ok.1 h
  obtain ⟨children, loaded, -⟩ := bind_eq_ok.1 h
  exact ⟨bareNode_accepted ok, _, _, children, loaded⟩

/-! ## Specifications -/

theorem checkRecognized_eq_ok {kind : String} {attrs : Attributes}
    (h : checkRecognized l kind attrs = .ok ()) :
    ∀ key ∈ attrs.map Prod.fst, key = "type" ∨ key ∈ recognized kind := by
  rw [checkRecognized] at h
  split at h
  · next none =>
    intro key mem
    rw [List.isEmpty_iff, List.filter_eq_nil_iff] at none
    simpa [or_iff_not_imp_left] using none key mem
  · contradiction

theorem string_eq_ok {attrs : Attributes} {key s : String}
    (h : attrs.string l key = .ok (some s)) : attrs.get? key = some (.str s) := by
  rw [Attributes.string, Attributes.read] at h
  split at h
  · cases h
  · next v given =>
    split at h
    · next s' read =>
      cases h
      cases v <;> cases read
      exact given
    · contradiction

/-- A mapping that is interpreted has only the attributes of its kind. -/
theorem mappingType_recognized {name : String} {attrs : Attributes} {type : TypeDef} {s s' : State}
    (run : mappingType l name attrs s = .ok (type, s')) :
    ∃ kind, attrs.get? "type" = some (.str kind) ∧
      ∀ key ∈ attrs.map Prod.fst, key = "type" ∨ key ∈ recognized kind := by
  rw [mappingType] at run
  obtain ⟨kind?, s₁, typed, run⟩ := bind_run.1 run
  obtain ⟨read, rfl⟩ := lift_run.1 typed
  cases kind? with
  | none => cases run
  | some kind =>
    obtain ⟨type', s₂, -, run⟩ := bind_run.1 run
    obtain ⟨_, s₃, checked, -⟩ := bind_run.1 run
    exact ⟨kind, string_eq_ok read, checkRecognized_eq_ok (lift_run.1 checked).1⟩

/-- What stands in place is interpreted, so it has only the attributes of its kind. -/
theorem recognized_of_within {name : String} {spec inner : Json} {attrs : Attributes}
    {type : TypeDef} {s s' : State} (within : Within name spec inner)
    (mapping : inner = .obj attrs) (run : specifiedType l name spec s = .ok (type, s')) :
    ∃ kind, attrs.get? "type" = some (.str kind) ∧
      ∀ key ∈ attrs.map Prod.fst, key = "type" ∨ key ∈ recognized kind := by
  induction within generalizing l s s' type with
  | self name spec =>
    subst mapping
    exact mappingType_recognized run
  | step place named _ ih =>
    obtain ⟨l', around⟩ := place.around (l := l)
    obtain ⟨c₁, a, s₁, c₂, -, here, -⟩ := around.split (isNull_of_companionName? named) run
    rw [reference_eq named] at here
    obtain ⟨type', s₂, specified, -⟩ := bind_run.1 here
    exact ih mapping specified

/-- Each of the types has been interpreted. -/
theorem exists_specifiedType {types : List (String × Json)} {s s' : State} {u : Unit}
    (run : (types.forM fun (name, spec) => loadType name spec) s = .ok (u, s')) :
    ∀ e ∈ types, ∃ s₁ type s₂, specifiedType (.ofType e.1) e.1 e.2 s₁ = .ok (type, s₂) := by
  induction types generalizing s with
  | nil => exact List.forall_mem_nil _
  | cons entry rest ih =>
    obtain ⟨_, s₁, one, others⟩ := bind_run.1 run
    obtain ⟨type, s₂, specified, -⟩ := bind_run.1 one
    exact List.forall_mem_cons.2 ⟨⟨s, type, s₂, specified⟩, ih others⟩

end Loading

/-! ## Documents -/

section Documents

variable {o : Outline} {d : Document} {t : Tree} {entries : List (Outline.Key × Outline)}

/-- A mapping that describes a node is read as one that is loaded. -/
theorem Outline.NodeIn.accepted (node : o.NodeIn entries) (read : Document.ofOutline? o = some d)
    (loads : Tree.ofDocument d = .ok t) :
    ∃ spec, Document.readNode? (.mapping entries) = some spec ∧ Accepted spec ∧
      ∃ r l parent children, loadNodes r l parent [] spec.nodes = .ok children := by
  induction node with
  | top mapping section_ named =>
    subst mapping
    obtain ⟨r, -, loads⟩ := bind_eq_ok.1 loads
    obtain ⟨_, -, loads⟩ := bind_eq_ok.1 loads
    obtain ⟨children, loaded, -⟩ := bind_eq_ok.1 loads
    obtain ⟨spec, mem, here⟩ :=
      Document.mem_of_readNodes? (Document.nodes_of_binds read section_) named
    obtain ⟨l, n, ok⟩ := exists_loadNode loaded _ mem
    obtain ⟨accepted, l', parent, below, loaded⟩ := loadNode_eq_ok ok
    exact ⟨spec, here, accepted, r, l', parent, below, loaded⟩
  | inside _ section_ named ih =>
    obtain ⟨above, given, -, r, l, parent, children, loaded⟩ := ih
    obtain ⟨spec, mem, here⟩ :=
      Document.mem_of_readNodes? (Document.readNodes?_of_binds given section_) named
    obtain ⟨l, n, ok⟩ := exists_loadNode loaded _ mem
    obtain ⟨accepted, l', parent', below, loaded⟩ := loadNode_eq_ok ok
    exact ⟨spec, here, accepted, r, l', parent', below, loaded⟩

theorem Outline.SpecIn.recognized {attrs : Attributes} (spec : o.SpecIn attrs)
    (read : Document.ofOutline? o = some d) (loads : Tree.ofDocument d = .ok t) :
    ∃ kind, attrs.get? "type" = some (.str kind) ∧
      ∀ key ∈ attrs.map Prod.fst, key = "type" ∨ key ∈ recognized kind := by
  obtain ⟨sections, types, name, value, whole, rfl, section_, named, plain, within⟩ := spec
  have mem := Document.mem_of_readTypes? (Document.types_of_binds read section_) named plain
  obtain ⟨r, types, -⟩ := bind_eq_ok.1 loads
  obtain ⟨declared, -, types⟩ := bind_eq_ok.1 types
  obtain ⟨⟨_, last⟩, run, -⟩ := bind_eq_ok.1 types
  obtain ⟨s, type, s', specified⟩ := exists_specifiedType run _ mem
  exact recognized_of_within within rfl specified

end Documents

end DeviceTree
