import DeviceTree.Proofs.EqualTypes
import DeviceTree.Style

/-!
# Style advice

What the checks of style advise can be done without a change for values. `Registry.Advises` says for
each issue what it reports of the registry and why it is safe to follow: nothing belongs to a union
without members, a union with one member is as good as an alias of it, and equal types can stand for
each other.

An alias takes the place of a union on the same level, so the levels of derivations stay
(`matches_redefine`). What could change is the meaning of bitfields, whose bits are assigned by
types at the end of aliases: but in a loaded registry every field has a type with a span, and unions
have none, so no field is of the union (`assigns_redefine`).

The checks report independently of each other, so disabling some leaves out their issues and no
others (`issues_eq_filter`).
-/

namespace DeviceTree

open Loading

/-! ## What is reported -/

namespace Style

/-- The unions that are reported have no member, or one. -/
theorem unionIssue?_eq_some {enabled : StyleCheck → Bool} {name : String} {type : TypeDef}
    {issue : Issue} (h : unionIssue? enabled name type = some issue) :
    (type = .union [] ∧ issue = emptyUnion name) ∨
      ∃ member, type = .union [member] ∧ issue = singleMember name := by
  unfold unionIssue? at h
  split at h
  · obtain ⟨-, ⟨⟩⟩ := Option.ite_none_right_eq_some.1 h
    exact .inl ⟨rfl, rfl⟩
  · obtain ⟨-, ⟨⟩⟩ := Option.ite_none_right_eq_some.1 h
    exact .inr ⟨_, rfl, rfl⟩
  · contradiction

/-- A disabled check drops its own issue of a union, and no other. -/
theorem unionIssue?_eq_filter (enabled : StyleCheck → Bool) (name : String) (type : TypeDef) :
    unionIssue? enabled name type =
      (unionIssue? (fun _ => true) name type).filter fun issue => enabled issue.check := by
  unfold unionIssue?
  split
  · rw [if_pos rfl, Option.filter_some]
    rfl
  · rw [if_pos rfl, Option.filter_some]
    rfl
  · rfl

/-- A type is reported with a later one that is equal to it, if it is no alias. -/
theorem mem_duplicates {types : List (String × TypeDef)} {issue : Issue}
    (h : issue ∈ duplicates types) :
    ∃ name type other type', [(name, type), (other, type')].Sublist types ∧
      (∀ target, type ≠ .alias target) ∧ (type == type') = true ∧
        issue = equalTypes name other := by
  induction types with
  | nil => contradiction
  | cons entry later ih =>
    obtain ⟨name, type⟩ := entry
    rcases List.mem_append.1 h with first | others
    · unfold duplicatesOf at first
      split at first
      · contradiction
      · next plain =>
        obtain ⟨⟨other, type'⟩, mem, rfl⟩ := List.mem_map.1 first
        obtain ⟨mem, equal⟩ := List.mem_filter.1 mem
        exact ⟨name, type, other, type', .cons_cons _ (List.singleton_sublist.2 mem), plain, equal,
          rfl⟩
    · obtain ⟨name, type, other, type', sub, found⟩ := ih others
      exact ⟨name, type, other, type', sub.cons _, found⟩

theorem check_of_mem_duplicates {types : List (String × TypeDef)} :
    ∀ issue ∈ duplicates types, issue.check = .duplicateType := by
  intro issue mem
  obtain ⟨_, _, _, _, -, -, -, rfl⟩ := mem_duplicates mem
  rfl

end Style

namespace Registry

open Style

/-- Disabling checks removes the issues of these checks and keeps the order of the others. -/
theorem issues_eq_filter (r : Registry) (disabled : List StyleCheck) :
    r.issues disabled = (r.issues []).filter fun issue => !disabled.contains issue.check := by
  rw [issues, issues, List.filter_append, List.filter_filterMap]
  congr 1
  · refine congrArg (List.filterMap · _) (funext fun entry => ?_)
    exact unionIssue?_eq_filter _ _ _
  · have all := @check_of_mem_duplicates r.customTypes
    show _ = (duplicates r.customTypes).filter _
    split
    · next enabled =>
      refine (List.filter_eq_self.2 fun issue mem => ?_).symm
      rwa [all issue mem]
    · next off =>
      refine (List.filter_eq_nil_iff.2 fun issue mem => ?_).symm
      rwa [all issue mem]

/-- What an issue says of the registry, and that it is safe to do what it advises. -/
inductive Advises (r : Registry) : Issue → Prop
  /-- The union has no valid value. -/
  | emptyUnion {name : String} :
    (name, .union []) ∈ r.customTypes → (∀ v, r.isValid name v = false) →
    r.Advises (emptyUnion name)
  /-- With an alias in place of the union, no verdict of any name changes. -/
  | singleMember {name member : String} :
    (name, .union [member]) ∈ r.customTypes →
    (∀ n v, (r.redefine name (.alias member)).isValid n v = r.isValid n v) →
    r.Advises (singleMember name)
  /-- The types have the same verdicts and the same sizes. -/
  | equalTypes {name other : String} {type type' : TypeDef} :
    name ≠ other → (name, type) ∈ r.customTypes → (other, type') ∈ r.customTypes →
    (type == type') = true → (∀ v, r.isValid name v = r.isValid other v) →
    r.packedSize? name = r.packedSize? other → r.bitSpan name = r.bitSpan other →
    r.Advises (equalTypes name other)

variable {r : Registry}

/-! ## Unions without members -/

theorem isValid_emptyUnion {name : String} (found : r.get? name = some (.union [])) (v : Value) :
    r.isValid name v = false := by
  rw [← Bool.not_eq_true, isValid_iff]
  rintro ⟨bound, accepts⟩
  cases found.symm.trans bound
  cases accepts with
  | union mem _ => contradiction

/-! ## Unions with one member -/

section SingleMember

variable {union member : String}

/-- What stands for a type that is no union does so without the union. -/
theorem resolveFrom_redefine {members : List String} {new type : TypeDef} {start name : String}
    {chain : List String} (found : r.get? union = some (.union members))
    (plain : ∀ members, type ≠ .union members)
    (ok : r.resolveFrom start chain name = .ok type) :
    (r.redefine union new).resolveFrom start chain name = .ok type := by
  obtain ⟨unseen, ⟨target, bound, next⟩ | ⟨bound, notAlias⟩⟩ := resolveFrom_eq_ok ok
  · have other : name ≠ union := by
      rintro rfl
      cases found.symm.trans bound
    rw [resolveFrom_alias ((r.get?_redefine_of_ne new other).trans bound) unseen]
    exact resolveFrom_redefine found plain next
  · have other : name ≠ union := by
      rintro rfl
      cases found.symm.trans bound
      exact plain members rfl
    exact resolveFrom_plain ((r.get?_redefine_of_ne new other).trans bound) unseen notAlias
termination_by r.unvisited chain
decreasing_by
  exact unvisited_lt (mem_names_of_get? bound) unseen (by simp [or_comm])

/-- No field of a bitfield is of a union, so the bits that hold data stay. -/
theorem assigns_redefine {members : List String} {new : TypeDef} {b : BitfieldShape}
    (found : r.get? union = some (.union members)) (laid : r.LaidOut b) (i : Nat) :
    (r.redefine union new).Assigns b i ↔ r.Assigns b i := by
  have same (f : BitField) (mem : f ∈ b.fields) :
      (r.redefine union new).resolve? f.typeName = r.resolve? f.typeName := by
    obtain ⟨type, resolved, span⟩ := Option.bind_eq_some_iff.1 (laid.widths f mem)
    rw [resolved, resolve?_eq_some]
    refine resolveFrom_redefine found ?_ (resolve?_eq_some.1 resolved)
    rintro _ rfl
    contradiction
  refine exists_congr fun f => and_congr_right fun mem => ?_
  rw [same f mem]

/-- The alias takes the level of the union, so derivations stay as deep as they are. -/
theorem matches_redefine {n : Nat} {name : String} {v : Value}
    (layouts : ∀ name b, r.get? name = some (.bitfield b) → r.LaidOut b)
    (found : r.get? union = some (.union [member])) :
    (r.redefine union (.alias member)).Matches n name v ↔ r.Matches n name v := by
  induction n generalizing name v with
  | zero => constructor <;> rintro ⟨-, ⟨⟩⟩
  | succ n ih =>
    by_cases self : name = union
    · subst self
      have found' := get?_redefine_self found (.alias member)
      constructor
      · rintro ⟨bound, accepts⟩
        cases found'.symm.trans bound
        cases accepts with
        | aliasTo matched => exact .named found (.union (List.mem_singleton_self _) (ih.1 matched))
      · rintro ⟨bound, accepts⟩
        cases found.symm.trans bound
        cases accepts with
        | union mem matched =>
          rw [List.mem_singleton.1 mem] at matched
          exact .named found' (.aliasTo (ih.2 matched))
    · have bound := r.get?_redefine_of_ne (.alias member) self
      constructor
      · rintro ⟨own, accepts⟩
        rw [bound] at own
        refine .named own (accepts.rebuild ?_ fun _ _ _ => ih.1)
        rintro b rfl i
        exact (assigns_redefine found (layouts name b own) i).1
      · rintro ⟨own, accepts⟩
        refine .named (bound.trans own) (accepts.rebuild ?_ fun _ _ _ => ih.2)
        rintro b rfl i
        exact (assigns_redefine found (layouts name b own) i).2

end SingleMember

/-! ## Equal types -/

section EqualTypes

variable {name other : String} {type type' : TypeDef}

theorem resolve?_of_plain (found : r.get? name = some type)
    (plain : ∀ target, type ≠ .alias target) : r.resolve? name = some type :=
  resolve?_eq_some.2 (resolveFrom_plain found List.not_mem_nil plain)

theorem matches_of_alike {n : Nat} {v : Value} (found : r.get? name = some type)
    (found' : r.get? other = some type') (alike : type.Alike type') :
    r.Matches n name v → r.Matches n other v := by
  rintro ⟨bound, accepts⟩
  cases found.symm.trans bound
  exact .named found' (alike.accepts accepts)

theorem isValid_of_alike (found : r.get? name = some type) (found' : r.get? other = some type')
    (alike : type.Alike type') (v : Value) : r.isValid name v = r.isValid other v := by
  rw [Bool.eq_iff_iff, isValid_iff, isValid_iff]
  exact ⟨matches_of_alike found found' alike, matches_of_alike found' found alike.symm⟩

theorem packedSize?_of_alike (acyclic : r.Acyclic) (found : r.get? name = some type)
    (found' : r.get? other = some type') (alike : type.Alike type') :
    r.packedSize? name = r.packedSize? other := by
  rw [packedSize?_eq_bodySize? acyclic found, packedSize?_eq_bodySize? acyclic found',
    alike.bodySize?_eq]

theorem bitSpan_of_alike (found : r.get? name = some type) (found' : r.get? other = some type')
    (plain : ∀ target, type ≠ .alias target) (alike : type.Alike type') :
    r.bitSpan name = r.bitSpan other := by
  have plain' (target : String) : type' ≠ .alias target := by
    rintro rfl
    cases alike with
    | same => exact plain target rfl
  rw [bitSpan, bitSpan, resolve?_of_plain found plain, resolve?_of_plain found' plain',
    Option.bind_some, Option.bind_some, alike.spanOf_eq]

end EqualTypes

/-! ## Registries of documents -/

theorem nodup_names_customTypes (r : Registry) : (r.customTypes.map Prod.fst).Nodup := by
  rw [customTypes, List.map_map]
  exact r.entries.distinct.sublist (List.filter_sublist.map Prod.fst)

theorem Loaded.advises (loaded : r.Loaded) {issue : Issue} (reported : issue ∈ r.issues []) :
    r.Advises issue := by
  rcases List.mem_append.1 reported with ofUnion | duplicate
  · obtain ⟨⟨name, type⟩, mem, found⟩ := List.mem_filterMap.1 ofUnion
    obtain ⟨rfl, rfl⟩ | ⟨member, rfl, rfl⟩ := unionIssue?_eq_some found
    · exact .emptyUnion mem (isValid_emptyUnion (get?_of_mem_customTypes mem))
    · refine .singleMember mem fun n v => ?_
      rw [Bool.eq_iff_iff, isValid_iff, isValid_iff]
      exact matches_redefine loaded.layouts (get?_of_mem_customTypes mem)
  · obtain ⟨name, type, other, type', sub, plain, equal, rfl⟩ := mem_duplicates duplicate
    have mem := sub.subset (List.mem_cons_self ..)
    have mem' := sub.subset (List.mem_cons_of_mem _ (List.mem_cons_self ..))
    have found := get?_of_mem_customTypes mem
    have found' := get?_of_mem_customTypes mem'
    have distinct : name ≠ other := by
      have := r.nodup_names_customTypes.sublist (sub.map Prod.fst)
      simpa using this
    have alike : type.Alike type' :=
      (loaded.specified name type (mem_customTypes.1 mem)).alike
        (loaded.specified other type' (mem_customTypes.1 mem')) equal
    exact .equalTypes distinct mem mem' equal (isValid_of_alike found found' alike)
      (packedSize?_of_alike loaded.acyclic found found' alike)
      (bitSpan_of_alike found found' plain alike)

/-- The advice for the types of a document is safe to follow, whichever checks are disabled, and
disabling checks removes their issues and nothing else. -/
theorem issues_advise {types : List (String × Json)} (loads : loadTypes types = .ok r)
    (disabled : List StyleCheck) :
    (∀ issue ∈ r.issues disabled, r.Advises issue) ∧
      r.issues disabled = (r.issues []).filter fun issue => !disabled.contains issue.check := by
  have kept := r.issues_eq_filter disabled
  refine ⟨fun issue mem => ?_, kept⟩
  rw [kept] at mem
  exact (loadTypes_loaded loads).advises (List.mem_filter.1 mem).1

/-- A union that nothing belongs to, one with a single member, and two enumerations with the same
aliases in another order. -/
def panelTypes : List (String × Json) :=
  [("none", .arr []), ("label", .arr [.str "String"]),
    ("lamp", .obj [("type", .str "Enum"), ("values", .arr [.str "off", .str "on"])]),
    ("relay", .obj [("type", .str "Enum"), ("values",
      .arr [.obj [("on", .int 1)], .obj [("off", .int 0)]])])]

/-- Without the check for empty unions, two issues are left. -/
theorem panelTypes_issues :
    ∃ r, loadTypes panelTypes = .ok r ∧
      r.issues [.emptyUnion] = [singleMember "label", equalTypes "lamp" "relay"] ∧
      (∀ issue ∈ r.issues [.emptyUnion], r.Advises issue) ∧
      r.issues [.emptyUnion] =
        (r.issues []).filter fun issue => ! [StyleCheck.emptyUnion].contains issue.check := by
  have run : (fun r : Registry => r.issues [.emptyUnion]) <$> loadTypes panelTypes =
      .ok [singleMember "label", equalTypes "lamp" "relay"] := by cbv
  obtain ⟨r, loads, issues⟩ := map_eq_ok.1 run
  exact ⟨r, loads, issues, issues_advise loads [.emptyUnion]⟩

end Registry

end DeviceTree
