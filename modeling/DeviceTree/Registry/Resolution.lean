import DeviceTree.Registry.Basic

/-!
# Following aliases

`Registry.resolve` follows aliases from a name to the first type that is none. The chain of names
visited never repeats, so the walk ends: at that type, at a name that is not registered, or at a
name that is on the chain already.
-/

namespace DeviceTree.Registry

/-- The type at the end of the aliases from `name`, where `chain` has led to `name` from `start`. -/
def resolveFrom (r : Registry) (start : String) (chain : List String) (name : String) :
    Except LoadError TypeDef :=
  match _ : r.get? name with
  | none => .error ⟨.ofType (chain.getLast?.getD start), .unknownType name⟩
  | some type =>
    if _ : name ∈ chain then .error ⟨.ofType start, .cyclicType start (chain ++ [name])⟩
    else match type with
      | .alias target => r.resolveFrom start (chain ++ [name]) target
      | other => .ok other
termination_by r.unvisited chain
decreasing_by
  exact unvisited_lt (mem_names_of_get? ‹_›) ‹_› (by simp [or_comm])

section

variable {r : Registry} {start name target : String} {chain : List String} {type : TypeDef}

theorem resolveFrom_alias (found : r.get? name = some (.alias target)) (unseen : name ∉ chain) :
    r.resolveFrom start chain name = r.resolveFrom start (chain ++ [name]) target := by
  rw [resolveFrom]
  split
  · next absent =>
    rw [found] at absent
    contradiction
  · next type found' =>
    cases found.symm.trans found'
    rw [dif_neg unseen]

theorem resolveFrom_plain (found : r.get? name = some type) (unseen : name ∉ chain)
    (plain : ∀ target, type ≠ .alias target) : r.resolveFrom start chain name = .ok type := by
  rw [resolveFrom]
  split
  · next absent =>
    rw [found] at absent
    contradiction
  · next type' found' =>
    cases found.symm.trans found'
    rw [dif_neg unseen]
    split
    · exact absurd rfl (plain _)
    · rfl

/-- A name that stands for a type is registered and new on the chain; its type is an alias that
leads to the type, or the type itself. -/
theorem resolveFrom_eq_ok (ok : r.resolveFrom start chain name = .ok type) :
    name ∉ chain ∧
      ((∃ target, r.get? name = some (.alias target) ∧
        r.resolveFrom start (chain ++ [name]) target = .ok type) ∨
      r.get? name = some type ∧ ∀ target, type ≠ .alias target) := by
  rw [resolveFrom] at ok
  split at ok
  · contradiction
  · next found =>
    split at ok
    · contradiction
    · next unseen =>
      refine ⟨unseen, ?_⟩
      split at ok
      · exact .inl ⟨_, found, ok⟩
      · next plain =>
        cases ok
        exact .inr ⟨found, fun target same => plain target (same ▸ found) same (by subst same; rfl)⟩

end

/-- The type that a name stands for, aliases followed. -/
def resolve (r : Registry) (name : String) : Except LoadError TypeDef :=
  r.resolveFrom name [] name

/-- The type that a name stands for, if it stands for one. -/
def resolve? (r : Registry) (name : String) : Option TypeDef :=
  (r.resolve name).toOption

/-- The enumeration that a name used at `location` stands for. -/
def enumeration (r : Registry) (location : Location) (name : String) :
    Except LoadError Enumeration :=
  if r.contains name then
    match r.resolve name with
    | .error e => .error e
    | .ok (.enum e) => .ok e
    | .ok _ => .error (.invalid location (.notEnum name))
  else .error ⟨location, .unknownType name⟩

/-- The names on the chain of aliases through `name`, after those that have led to it. A name that
comes up again ends the chain. -/
def aliasesFrom (r : Registry) (chain : List String) (name : String) : List String :=
  if _ : name ∈ chain then chain
  else match _ : r.get? name with
    | some (.alias target) => r.aliasesFrom (chain ++ [name]) target
    | _ => chain ++ [name]
termination_by r.unvisited chain
decreasing_by
  exact unvisited_lt (mem_names_of_get? ‹_›) ‹_› (by simp [or_comm])

/-- The names on the chain of aliases that starts with `name`. -/
def aliases (r : Registry) (name : String) : List String :=
  r.aliasesFrom [] name

end DeviceTree.Registry
