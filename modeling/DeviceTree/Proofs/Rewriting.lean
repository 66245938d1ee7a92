import DeviceTree.Proofs.References

/-!
# Registries with other bodies

Completing what waits for other types gives some custom types another body. `Registry.Rewrites`
relates the registries before and after: the same names are bound, with the same origins, and a
relation ties each new body to the old one.

A rewriting that neither gives nor takes aliases keeps what names stand for (`Rewrites.resolve`).
-/

namespace DeviceTree.Registry

/-- The entry stays, or it is custom and gets a body that `P` ties to the old one. -/
def Entry.Becomes (P : TypeDef → TypeDef → Prop) (e e' : Entry) : Prop :=
  e = e' ∨ e.origin = .custom ∧ e'.origin = .custom ∧ P e.type e'.type

/-- Every entry stays or gets another body, and none is added or removed. -/
def Rewrites (P : TypeDef → TypeDef → Prop) (r r' : Registry) : Prop :=
  ∀ name, Option.Rel (Entry.Becomes P) (r.entry? name) (r'.entry? name)

namespace Rewrites

variable {P : TypeDef → TypeDef → Prop} {r r' : Registry} {name : String} {type : TypeDef}

theorem refl (P : TypeDef → TypeDef → Prop) (r : Registry) : r.Rewrites P r := by
  intro name
  cases r.entry? name with
  | none => exact .none
  | some e => exact .some (.inl rfl)

theorem symm (h : r.Rewrites P r') : r'.Rewrites (fun new old => P old new) r := by
  intro name
  have rel := h name
  revert rel
  cases r.entry? name <;> cases r'.entry? name <;> intro rel <;> cases rel
  · exact .none
  · next becomes =>
    refine .some ?_
    rcases becomes with rfl | ⟨old, new, fits⟩
    · exact .inl rfl
    · exact .inr ⟨new, old, fits⟩

/-- One more custom type gets a body that fits the one it had at first. -/
theorem redefine {new : TypeDef} (h : r.Rewrites P r')
    (found : r.entry? name = some ⟨type, .custom⟩) (fits : P type new) :
    r.Rewrites P (r'.redefine name new) := by
  intro n
  rw [entry?_redefine]
  split
  · next same =>
    have before := h name
    rw [same]
    rw [found] at before ⊢
    cases same' : r'.entry? name with
    | none =>
      rw [same'] at before
      cases before
    | some e' =>
      rw [same'] at before
      refine .some (.inr ⟨rfl, ?_, fits⟩)
      cases before with
      | some becomes =>
        rcases becomes with rfl | ⟨-, custom, -⟩
        · rfl
        · exact custom
  · exact h n

theorem entry_of_entry {e' : Entry} (h : r.Rewrites P r') (found : r'.entry? name = some e') :
    ∃ e, r.entry? name = some e ∧ e.Becomes P e' := by
  have rel := h name
  rw [found] at rel
  cases same : r.entry? name with
  | none =>
    rw [same] at rel
    cases rel
  | some e =>
    rw [same] at rel
    cases rel with
    | some becomes => exact ⟨e, rfl, becomes⟩

theorem entry_of_entry' {e : Entry} (h : r.Rewrites P r') (found : r.entry? name = some e) :
    ∃ e', r'.entry? name = some e' ∧ e.Becomes P e' := by
  have rel := h name
  rw [found] at rel
  cases same : r'.entry? name with
  | none =>
    rw [same] at rel
    cases rel
  | some e' =>
    rw [same] at rel
    cases rel with
    | some becomes => exact ⟨e', rfl, becomes⟩

/-- Core and predefined types stay. -/
theorem entry_core {e : Entry} (h : r.Rewrites P r') (core : e.origin ≠ .custom) :
    r'.entry? name = some e ↔ r.entry? name = some e := by
  constructor
  · intro found
    obtain ⟨e₁, found₁, rfl | ⟨-, custom, -⟩⟩ := h.entry_of_entry found
    · exact found₁
    · exact absurd custom core
  · intro found
    obtain ⟨e₁, found₁, rfl | ⟨custom, -, -⟩⟩ := h.entry_of_entry' found
    · exact found₁
    · exact absurd custom core

/-- A custom type was custom, and has its body or one that fits it. -/
theorem entry_custom (h : r.Rewrites P r') (found : r'.entry? name = some ⟨type, .custom⟩) :
    ∃ old, r.entry? name = some ⟨old, .custom⟩ ∧ (old = type ∨ P old type) := by
  obtain ⟨⟨old, origin⟩, found₁, same | ⟨custom, -, fits⟩⟩ := h.entry_of_entry found
  · cases same
    exact ⟨type, found₁, .inl rfl⟩
  · cases custom
    exact ⟨old, found₁, .inr fits⟩

theorem get?_of_get? (h : r.Rewrites P r') (found : r'.get? name = some type) :
    ∃ old, r.get? name = some old ∧ (old = type ∨ P old type) := by
  obtain ⟨e', found', rfl⟩ := Option.map_eq_some_iff.1 found
  obtain ⟨e, found₁, becomes⟩ := h.entry_of_entry found'
  refine ⟨e.type, get?_of_bound found₁, ?_⟩
  rcases becomes with rfl | ⟨-, -, fits⟩
  · exact .inl rfl
  · exact .inr fits

theorem get?_of_get?' (h : r.Rewrites P r') (found : r.get? name = some type) :
    ∃ new, r'.get? name = some new ∧ (type = new ∨ P type new) := by
  obtain ⟨e, found', rfl⟩ := Option.map_eq_some_iff.1 found
  obtain ⟨e', found₁, becomes⟩ := h.entry_of_entry' found'
  refine ⟨e'.type, get?_of_bound found₁, ?_⟩
  rcases becomes with rfl | ⟨-, -, fits⟩
  · exact .inl rfl
  · exact .inr fits

theorem contains_iff (h : r.Rewrites P r') : r'.contains name = true ↔ r.contains name = true := by
  rw [Registry.contains_iff, Registry.contains_iff]
  constructor
  · rintro ⟨type, found⟩
    obtain ⟨old, found, -⟩ := h.get?_of_get? found
    exact ⟨old, found⟩
  · rintro ⟨type, found⟩
    obtain ⟨new, found, -⟩ := h.get?_of_get?' found
    exact ⟨new, found⟩

/-- Where aliases stay and none is added, a name stands for its type or one that fits it. -/
theorem resolveFrom (h : r.Rewrites P r')
    (plain : ∀ {old new : TypeDef}, P old new → ∀ target, old ≠ .alias target ∧ new ≠ .alias target)
    {start name : String} {chain : List String} {type : TypeDef}
    (ok : r.resolveFrom start chain name = .ok type) :
    ∃ type', r'.resolveFrom start chain name = .ok type' ∧ (type = type' ∨ P type type') := by
  obtain ⟨unseen, ⟨target, found, next⟩ | ⟨found, notAlias⟩⟩ := resolveFrom_eq_ok ok
  · obtain ⟨new, found', rfl | fits⟩ := h.get?_of_get?' found
    · obtain ⟨type', ok', fits⟩ := h.resolveFrom plain next
      exact ⟨type', by rw [resolveFrom_alias found' unseen, ok'], fits⟩
    · exact absurd rfl (plain fits target).1
  · obtain ⟨new, found', fits⟩ := h.get?_of_get?' found
    refine ⟨new, resolveFrom_plain found' unseen fun target => ?_, fits⟩
    rcases fits with rfl | fits
    · exact notAlias target
    · exact (plain fits target).2
termination_by r.unvisited chain
decreasing_by
  exact unvisited_lt (mem_names_of_get? found) unseen (by simp [or_comm])

theorem resolve (h : r.Rewrites P r')
    (plain : ∀ {old new : TypeDef}, P old new → ∀ target, old ≠ .alias target ∧ new ≠ .alias target)
    (ok : r.resolve name = .ok type) :
    ∃ type', r'.resolve name = .ok type' ∧ (type = type' ∨ P type type') :=
  h.resolveFrom plain ok

/-- Where aliases stay and none is added, the chains of aliases are the same. -/
theorem aliases (h : r.Rewrites P r')
    (plain : ∀ {old new : TypeDef}, P old new → ∀ target, old ≠ .alias target ∧ new ≠ .alias target)
    (name : String) : r'.aliases name = r.aliases name := by
  refine aliasesFrom_congr fun n _ target => ⟨fun found => ?_, fun found => ?_⟩
  · obtain ⟨old, found₁, rfl | fits⟩ := h.get?_of_get? found
    · exact found₁
    · exact absurd rfl (plain fits target).2
  · obtain ⟨new, found₁, rfl | fits⟩ := h.get?_of_get?' found
    · exact found₁
    · exact absurd rfl (plain fits target).1

end Rewrites

end DeviceTree.Registry
