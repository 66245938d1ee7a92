import DeviceTree.Proofs.References
import DeviceTree.Proofs.Stacks

/-!
# Where mismatches come from

A check against a type fails for a reason of its own, which is about the value, or for the reason of
a check against a type that it embeds: an alias has the error of its target as it is, and the error
of a part has the step to the part in front (`checkBody_failsWith`). So only registries with missing
references let validation fail for an unknown type (`validate_knows`).
-/

namespace DeviceTree

/-- Whether a mismatch is about the value alone, and not about the types it is checked against. -/
def Mismatch.aboutValue : Mismatch → Bool
  | unknownType _ | tooDeep _ => false
  | _ => true

/-- The step leads from the value to the part. -/
inductive Value.PartAt : Value → Step → Value → Prop
  | item {items : List Value} {i : Nat} {part : Value} :
    items[i]? = some part → PartAt (.list items) (.index i) part
  | entry {entries : List (String × Value)} {key : String} {part : Value} :
    (key, part) ∈ entries → PartAt (.map entries) (.key key) part
  | pair {entries : List (Int × Value)} {key : Int} {part : Value} :
    (key, part) ∈ entries → PartAt (.imap entries) (.ikey key) part

/-- An error of a part as one of the whole. -/
def ValidationError.below (step : Step) (e : ValidationError) : ValidationError :=
  { e with path := step :: e.path }

/-- If the verdict is a failure, the property holds of its error. -/
def Verdict.FailsWith (verdict : Verdict) (P : ValidationError → Prop) : Prop :=
  ∀ e, verdict = .error e → P e

/-- If the verdict is a failure, the property holds of its mismatch. -/
def Verdict.Fails (verdict : Verdict) (Q : Mismatch → Prop) : Prop :=
  ∀ e, verdict = .error e → Q e.mismatch

theorem Verdict.Fails.mismatch {Q : Mismatch → Prop} {name : String} {m : Mismatch} (h : Q m) :
    Verdict.Fails (DeviceTree.mismatch name m) Q := by
  rintro e ⟨⟩
  exact h

variable {P : ValidationError → Prop}

namespace Verdict.FailsWith

theorem ok : Verdict.FailsWith (.ok ()) P := nofun

theorem mismatch {name : String} {m : Mismatch} (h : P ⟨[], name, m⟩) :
    Verdict.FailsWith (DeviceTree.mismatch name m) P := by
  rintro e ⟨⟩
  exact h

theorem below {step : Step} {verdict : Verdict} (h : verdict.FailsWith fun e => P (e.below step)) :
    (verdict.below step).FailsWith P := by
  intro e failed
  cases verdict with
  | ok => contradiction
  | error e' =>
    cases failed
    exact h e' rfl

theorem andThen {x y : Verdict} (first : x.FailsWith P) (second : y.FailsWith P) :
    Verdict.FailsWith (do x; y) P := by
  intro e failed
  cases x with
  | ok => exact second e failed
  | error e' =>
    cases failed
    exact first e rfl

theorem ite {c : Prop} [Decidable c] {x y : Verdict} (first : c → x.FailsWith P)
    (second : ¬ c → y.FailsWith P) : Verdict.FailsWith (if c then x else y) P := by
  split
  · exact first ‹_›
  · exact second ‹_›

end Verdict.FailsWith

namespace Validation

open Verdict.FailsWith

theorem checkItems_failsWith {check : Value → Verdict} {i : Nat} {items : List Value}
    (parts : ∀ k part, items[k]? = some part →
      (check part).FailsWith fun e => P (e.below (.index (i + k)))) :
    (checkItems check i items).FailsWith P := by
  induction items generalizing i with
  | nil => exact ok
  | cons item rest ih =>
    refine andThen (below (parts 0 item rfl)) (ih fun k part at_k => ?_)
    rw [Nat.add_assoc, Nat.add_comm 1]
    exact parts (k + 1) part at_k

theorem checkPositions_failsWith {check : String → Value → Verdict} {types : List String} {i : Nat}
    {items : List Value}
    (parts : ∀ target ∈ types, ∀ k part, items[k]? = some part →
      (check target part).FailsWith fun e => P (e.below (.index (i + k)))) :
    (checkPositions check i types items).FailsWith P := by
  induction types generalizing i items with
  | nil => exact ok
  | cons typeName types ih =>
    cases items with
    | nil => exact ok
    | cons item items =>
      rw [List.forall_mem_cons] at parts
      refine andThen (below (parts.1 0 item rfl)) (ih fun target mem k part at_k => ?_)
      rw [Nat.add_assoc, Nat.add_comm 1]
      exact parts.2 target mem (k + 1) part at_k

section Own

variable {name : String} (own : ∀ m : Mismatch, m.aboutValue = true → P ⟨[], name, m⟩)

include own

theorem refuse_failsWith {α : Type} {violated : Option α} {m : α → Mismatch}
    (h : ∀ bound, (m bound).aboutValue = true) : (refuse name violated m).FailsWith P := by
  cases violated with
  | none => exact ok
  | some bound => exact .mismatch (own _ (h bound))

theorem checkLength_failsWith {length : Nat} {minimum maximum : Option Nat} :
    (checkLength name length minimum maximum).FailsWith P :=
  andThen (refuse_failsWith own fun _ => rfl) (refuse_failsWith own fun _ => rfl)

theorem checkInt_failsWith {range : IntRange} {n : Int} : (checkInt name range n).FailsWith P :=
  andThen (refuse_failsWith own fun _ => rfl) (andThen (refuse_failsWith own fun _ => rfl)
    (andThen (refuse_failsWith own fun _ => rfl) (refuse_failsWith own fun _ => rfl)))

theorem checkDouble_failsWith {range : DoubleRange} {x : Float} :
    (checkDouble name range x).FailsWith P :=
  andThen (refuse_failsWith own fun _ => rfl)
    (andThen (refuse_failsWith own fun _ => rfl) (refuse_failsWith own fun _ => rfl))

theorem checkDecimal_failsWith {range : DecimalRange} {d : Decimal} :
    (checkDecimal name range d).FailsWith P :=
  andThen (refuse_failsWith own fun _ => rfl) (refuse_failsWith own fun _ => rfl)

theorem checkString_failsWith {shape : StringShape} {s : String} :
    (checkString name shape s).FailsWith P :=
  andThen (checkLength_failsWith own) (refuse_failsWith own fun _ => rfl)

theorem checkEnum_failsWith {e : Enumeration} {v : Value} : (checkEnum name e v).FailsWith P := by
  unfold checkEnum
  split
  · exact .ite (fun _ => ok) fun _ => .mismatch (own _ rfl)
  · split
    · exact .ite (fun _ => ok) fun _ => .mismatch (own _ rfl)
    · exact .mismatch (own _ rfl)

theorem checkBitfield_failsWith {r : Registry} {b : BitfieldShape} {v : Value} :
    (checkBitfield r name b v).FailsWith P := by
  unfold checkBitfield
  split
  · exact .ite (fun _ => ok) fun _ => .mismatch (own _ rfl)
  · exact .mismatch (own _ rfl)

theorem checkEntries_failsWith {check : String → Value → Verdict} {fields : OrderedMap String}
    {entries : List (String × Value)}
    (parts : ∀ target ∈ fields.values, ∀ p ∈ entries,
      (check target p.2).FailsWith fun e => P (e.below (.key p.1))) :
    (checkEntries check name fields entries).FailsWith P := by
  induction entries with
  | nil => exact ok
  | cons entry rest ih =>
    rw [checkEntries]
    split
    · exact .mismatch (own _ rfl)
    · next typeName found =>
      have mem : typeName ∈ fields.values :=
        List.mem_map.2 ⟨_, OrderedMap.get?_eq_some.1 found, rfl⟩
      exact andThen (below (parts typeName mem entry (List.mem_cons_self ..)))
        (ih fun target mem' p later => parts target mem' p (List.mem_cons_of_mem _ later))

theorem checkPairs_failsWith {check : String → Value → Verdict} {fields : SortedMap String}
    {entries : List (Int × Value)}
    (parts : ∀ target ∈ fields.values, ∀ p ∈ entries,
      (check target p.2).FailsWith fun e => P (e.below (.ikey p.1))) :
    (checkPairs check name fields entries).FailsWith P := by
  induction entries with
  | nil => exact ok
  | cons entry rest ih =>
    rw [checkPairs]
    split
    · exact .mismatch (own _ rfl)
    · next typeName found =>
      have mem : typeName ∈ fields.values :=
        List.mem_map_of_mem (SortedMap.mem_of_get? found)
      exact andThen (below (parts typeName mem entry (List.mem_cons_self ..)))
        (ih fun target mem' p later => parts target mem' p (List.mem_cons_of_mem _ later))

/-- A check against a type fails for a reason of its own, as the check against the type it is
another name of, or as that of a part of the value. -/
theorem checkBody_failsWith {r : Registry} {check : String → Value → Verdict} {type : TypeDef}
    {v : Value} (renamed : ∀ target, type = .alias target → (check target v).FailsWith P)
    (parts : ∀ target ∈ type.embedded, ∀ step part, v.PartAt step part →
      (check target part).FailsWith fun e => P (e.below step)) :
    (checkBody r check name type v).FailsWith P := by
  cases type with
  | any => exact ok
  | null | bool | dateTime => cases v <;> first | exact ok | exact .mismatch (own _ rfl)
  | int range =>
    rw [checkBody]
    split
    · exact checkInt_failsWith own
    · exact .mismatch (own _ rfl)
  | double range =>
    cases v with
    | double => exact checkDouble_failsWith own
    | _ => exact .mismatch (own _ rfl)
  | decimal range =>
    cases v with
    | decimal => exact checkDecimal_failsWith own
    | _ => exact .mismatch (own _ rfl)
  | string shape =>
    cases v with
    | string => exact checkString_failsWith own
    | _ => exact .mismatch (own _ rfl)
  | blob shape =>
    cases v with
    | blob => exact checkLength_failsWith own
    | _ => exact .mismatch (own _ rfl)
  | enum e => exact checkEnum_failsWith own
  | bitfield b => exact checkBitfield_failsWith own
  | list shape =>
    cases v with
    | list items =>
      refine andThen (checkLength_failsWith own) ?_
      split
      · next typeName allowed =>
        refine checkItems_failsWith fun k part at_k => ?_
        rw [Nat.zero_add]
        exact parts typeName (Option.mem_toList.2 allowed) _ part (.item at_k)
      · exact ok
    | _ => exact .mismatch (own _ rfl)
  | tuple shape =>
    cases v with
    | list items =>
      refine .ite (fun _ => checkPositions_failsWith fun target mem k part at_k => ?_)
        fun _ => .mismatch (own _ rfl)
      rw [Nat.zero_add]
      exact parts target mem _ part (.item at_k)
    | _ => exact .mismatch (own _ rfl)
  | map shape =>
    cases v with
    | map entries =>
      rw [checkBody]
      split
      · next fields declared =>
        refine checkEntries_failsWith own fun target mem p entry => ?_
        exact parts target (by simpa [TypeDef.embedded, declared] using mem) _ p.2 (.entry entry)
      · exact ok
    | _ => exact .mismatch (own _ rfl)
  | imap shape =>
    cases v with
    | imap entries =>
      rw [checkBody]
      split
      · next fields declared =>
        refine checkPairs_failsWith own fun target mem p entry => ?_
        exact parts target (by simpa [TypeDef.embedded, declared] using mem) _ p.2 (.pair entry)
      · exact ok
    | _ => exact .mismatch (own _ rfl)
  | «alias» target => exact renamed target rfl
  | union members => exact .ite (fun _ => ok) fun _ => .mismatch (own _ rfl)
  | constant c => exact .ite (fun _ => ok) fun _ => .mismatch (own _ rfl)

end Own

/-- Where only the mismatches count, it does not matter which step leads to a part. -/
theorem checkBody_fails {Q : Mismatch → Prop} (own : ∀ m : Mismatch, m.aboutValue = true → Q m)
    {r : Registry} {check : String → Value → Verdict} {name : String} {type : TypeDef}
    (parts : ∀ target ∈ type.embedded, ∀ part, (check target part).Fails Q) {v : Value} :
    (checkBody r check name type v).Fails Q := by
  refine checkBody_failsWith (P := fun e => Q e.mismatch) own ?_ fun target mem _ part _ =>
    parts target mem part
  rintro target rfl
  exact parts target (List.mem_singleton.2 rfl) v

end Validation

/-! ## Unknown types -/

/-- The mismatch is not that a type is unknown. -/
def Mismatch.Knows (m : Mismatch) : Prop :=
  ∀ name, m ≠ .unknownType name

theorem Mismatch.knows_of_aboutValue (m : Mismatch) (h : m.aboutValue = true) : m.Knows := by
  rintro name rfl
  contradiction

namespace Registry

variable {r : Registry} {name : String}

/-- With all references registered, a check of any depth knows all types it meets. -/
theorem checkType_knows (closed : r.Closed) {levels : Nat} {type : TypeDef}
    (parts : ∀ target ∈ type.references, r.contains target = true) {v : Value} :
    (Validation.checkType r levels name type v).Fails Mismatch.Knows := by
  induction levels generalizing name type v with
  | zero => exact .mismatch fun _ => nofun
  | succ levels ih =>
    refine Validation.checkBody_fails Mismatch.knows_of_aboutValue fun target mem part => ?_
    obtain ⟨type', found⟩ := contains_iff.1
      (parts target (TypeDef.mem_references_of_mem_embedded mem))
    rw [found]
    exact ih fun target' mem' => closed target target' ⟨type', found, mem'⟩

theorem validate_knows (closed : r.Closed) (registered : r.contains name = true) (v : Value) :
    (r.validate name v).Fails Mismatch.Knows := by
  obtain ⟨type, found⟩ := contains_iff.1 registered
  rw [validate_eq, found]
  exact checkType_knows closed fun target mem => closed name target ⟨type, found, mem⟩

end Registry

end DeviceTree
