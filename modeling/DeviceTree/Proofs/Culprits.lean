import DeviceTree.Proofs.Nesting
import DeviceTree.Proofs.Sizes

/-!
# Culprits of validation errors

A validation error names a path, a type and a mismatch. `Registry.Blames` says that it names the
true culprit: the path leads to a part of the value, and the check of that part alone against that
type fails with this mismatch, at the part itself.

An error comes about at the part at hand, or it is that of a part further down (`checkBody_blames`).
The part is checked with fewer levels than it has when it is validated alone, and within the levels
that types nest this makes no difference (`checkType_levels`). Chains of references bound these
levels, so where no chain is longer than the checker goes deep, every error names its culprit
(`validate_blames`).
-/

namespace DeviceTree

/-! ## Paths into values -/

/-- With distinct keys, a look-up finds every entry. -/
theorem lookup_of_mem {κ α : Type} [BEq κ] [LawfulBEq κ] {key : κ} {value : α}
    {entries : List (κ × α)} (distinct : (entries.map Prod.fst).Nodup)
    (mem : (key, value) ∈ entries) : entries.lookup key = some value := by
  induction entries with
  | nil => contradiction
  | cons entry rest ih =>
    rw [List.map_cons, List.nodup_cons] at distinct
    rcases List.mem_cons.1 mem with rfl | later
    · rw [List.lookup_cons, beq_self_eq_true]
    · have other : (key == entry.1) = false := by
        rw [beq_eq_false_iff_ne]
        rintro rfl
        exact distinct.1 (List.mem_map.2 ⟨_, later, rfl⟩)
      rw [List.lookup_cons, other]
      exact ih distinct.2 later

namespace Value

/-- The part of a value that a step leads to. -/
def part? : Value → Step → Option Value
  | .list items, .index i => items[i]?
  | .map entries, .key name => entries.lookup name
  | .imap entries, .ikey n => entries.lookup n
  | _, _ => none

/-- The part of a value that the steps lead to, one after the other. -/
def follow? (v : Value) : List Step → Option Value
  | [] => some v
  | step :: path => do
    let part ← v.part? step
    part.follow? path

variable {v part : Value} {step : Step}

theorem Keyed.part?_eq (keyed : v.Keyed) (leads : v.PartAt step part) :
    v.part? step = some part := by
  obtain ⟨keys, -⟩ := keyed
  cases leads with
  | item at_i => exact at_i
  | entry mem => exact lookup_of_mem keys mem
  | pair mem => exact lookup_of_mem (keys.imp fun lt => ne_of_lt lt) mem

theorem Keyed.of_partAt (keyed : v.Keyed) (leads : v.PartAt step part) : part.Keyed := by
  obtain ⟨-, parts⟩ := keyed
  refine parts part ?_
  cases leads with
  | item at_i => exact List.mem_of_getElem? at_i
  | entry mem => exact List.mem_map_of_mem (f := Prod.snd) mem
  | pair mem => exact List.mem_map_of_mem (f := Prod.snd) mem

end Value

/-! ## Levels of checks -/

namespace Validation

variable {r : Registry} {check check' : String → Value → Verdict} {name : String}

theorem checkPositions_congr {types : List String}
    (same : ∀ target ∈ types, check target = check' target) (i : Nat) (items : List Value) :
    checkPositions check i types items = checkPositions check' i types items := by
  induction types generalizing i items with
  | nil => rfl
  | cons typeName types ih =>
    cases items with
    | nil => rfl
    | cons item items =>
      rw [List.forall_mem_cons] at same
      rw [checkPositions, checkPositions, same.1, ih same.2]

theorem checkEntries_congr {fields : OrderedMap String}
    (same : ∀ target ∈ fields.values, check target = check' target)
    (entries : List (String × Value)) :
    checkEntries check name fields entries = checkEntries check' name fields entries := by
  induction entries with
  | nil => rfl
  | cons entry rest ih =>
    rw [checkEntries, checkEntries]
    cases found : fields.get? entry.1 with
    | none => rfl
    | some typeName =>
      have mem : typeName ∈ fields.values :=
        List.mem_map.2 ⟨_, OrderedMap.get?_eq_some.1 found, rfl⟩
      show (do Verdict.below _ (check typeName entry.2); _) = _
      rw [same typeName mem, ih]

theorem checkPairs_congr {fields : SortedMap String}
    (same : ∀ target ∈ fields.values, check target = check' target)
    (entries : List (Int × Value)) :
    checkPairs check name fields entries = checkPairs check' name fields entries := by
  induction entries with
  | nil => rfl
  | cons entry rest ih =>
    rw [checkPairs, checkPairs]
    cases found : fields.get? entry.1 with
    | none => rfl
    | some typeName =>
      have mem : typeName ∈ fields.values := List.mem_map_of_mem (SortedMap.mem_of_get? found)
      show (do Verdict.below _ (check typeName entry.2); _) = _
      rw [same typeName mem, ih]

/-- A check depends only on the checks against the types that are embedded. -/
theorem checkBody_congr {type : TypeDef}
    (same : ∀ target ∈ type.embedded, check target = check' target) (v : Value) :
    checkBody r check name type v = checkBody r check' name type v := by
  cases type with
  | list shape =>
    cases v with
    | list items =>
      rw [checkBody, checkBody]
      cases allowed : shape.allowed with
      | none => rfl
      | some typeName =>
        have given : typeName ∈ (TypeDef.list shape).embedded := Option.mem_toList.2 allowed
        show (do _; checkItems (check typeName) 0 items) = _
        rw [same typeName given]
    | _ => rfl
  | tuple shape =>
    cases v with
    | list items =>
      rw [checkBody, checkBody]
      congr 1
      exact checkPositions_congr same 0 items
    | _ => rfl
  | map shape =>
    cases v with
    | map entries =>
      rw [checkBody, checkBody]
      cases declared : shape.fields with
      | none => rfl
      | some fields =>
        refine checkEntries_congr (fun target mem => same target ?_) entries
        simpa [TypeDef.embedded, declared] using mem
    | _ => rfl
  | imap shape =>
    cases v with
    | imap entries =>
      rw [checkBody, checkBody]
      cases declared : shape.fields with
      | none => rfl
      | some fields =>
        refine checkPairs_congr (fun target mem => same target ?_) entries
        simpa [TypeDef.embedded, declared] using mem
    | _ => rfl
  | «alias» target =>
    rw [checkBody, checkBody, same target (List.mem_singleton_self _)]
  | union members =>
    have verdicts : (members.any fun member => (check member v).isOk) =
        members.any fun member => (check' member v).isOk := by
      rw [Bool.eq_iff_iff, List.any_eq_true, List.any_eq_true]
      exact exists_congr fun member => and_congr_right fun mem => by rw [same member mem]
    rw [checkBody, checkBody, verdicts]
  | null | bool | dateTime | double | decimal | string | blob => cases v <;> rfl
  | any | int | enum | bitfield | constant => rfl

end Validation

namespace Registry

variable {r : Registry} {m n : Nat} {name : String} {type : TypeDef} {v : Value}

/-- Once there is a level for each nested type, more levels do not change a verdict. -/
theorem checkType_levels (nests : ∀ target ∈ type.embedded, r.NestsWithin n target) (le : n ≤ m)
    (v : Value) : Validation.checkType r (n + 1) name type v =
      Validation.checkType r (m + 1) name type v := by
  induction n generalizing m name type v with
  | zero => exact Validation.checkBody_congr (fun target mem => absurd (nests target mem) id) v
  | succ n ih =>
    obtain ⟨m, rfl⟩ : ∃ k, m = k + 1 := ⟨m - 1, by omega⟩
    refine Validation.checkBody_congr (fun target mem => ?_) v
    funext part
    cases found : r.get? target with
    | none => rfl
    | some type' =>
      exact ih (fun target' mem' => nests target mem target' ⟨type', found, mem'⟩) (by omega) part

/-! ## Culprits -/

/-- The error names the culprit: its path leads to a part that fails alone, against the same type,
with the same mismatch. -/
def Blames (r : Registry) (v : Value) (e : ValidationError) : Prop :=
  ∃ part, v.follow? e.path = some part ∧
    r.validate e.typeName part = .error ⟨[], e.typeName, e.mismatch⟩

/-- What is to blame for the error of a part is to blame for that of the whole. -/
theorem Blames.below {step : Step} {part : Value} {e : ValidationError} (keyed : v.Keyed)
    (leads : v.PartAt step part) (h : r.Blames part e) : r.Blames v (e.below step) := by
  obtain ⟨culprit, reached, failed⟩ := h
  refine ⟨culprit, ?_, failed⟩
  show (v.part? step).bind (·.follow? e.path) = some culprit
  rw [keyed.part?_eq leads, Option.bind_some, reached]

/-- An error of a check is one of the value itself, or blames the culprit that the check of a part
blames. -/
theorem checkBody_blames {check : String → Value → Verdict} (keyed : v.Keyed)
    (parts : ∀ target ∈ type.embedded, ∀ part : Value, part.Keyed →
      (check target part).FailsWith (r.Blames part)) :
    (Validation.checkBody r check name type v).FailsWith fun e =>
      (∃ m, e = ⟨[], name, m⟩) ∨ r.Blames v e := by
  refine Validation.checkBody_failsWith (fun m _ => .inl ⟨m, rfl⟩) ?_ ?_
  · rintro target rfl e failed
    exact .inr (parts target (List.mem_singleton_self _) v keyed e failed)
  · intro target mem step part leads e failed
    exact .inr ((parts target mem part (keyed.of_partAt leads) e failed).below keyed leads)

/-- A check with a level for each nested type blames the culprit. -/
theorem checkType_blames (nests : r.NestsWithin n name) (few : n ≤ Validation.depthLimit)
    (found : r.get? name = some type) (keyed : v.Keyed) :
    (Validation.checkType r n name type v).FailsWith (r.Blames v) := by
  induction n generalizing name type v with
  | zero => contradiction
  | succ n ih =>
    have embeds {target : String} (mem : target ∈ type.embedded) : r.NestsWithin n target :=
      nests target ⟨type, found, mem⟩
    intro e failed
    refine (checkBody_blames keyed (fun target mem part keyed => ?_) e failed).elim ?_ id
    · cases found' : r.get? target with
      | some type' => exact ih (embeds mem) (by omega) found' keyed
      | none =>
        refine .mismatch ⟨part, rfl, ?_⟩
        rw [validate_eq, found']
        rfl
    · -- The value itself is to blame: it is checked with more levels when it is validated.
      rintro ⟨m, rfl⟩
      refine ⟨v, rfl, ?_⟩
      have levels : n ≤ 63 := Nat.le_of_succ_le_succ few
      rw [validate_eq, found]
      exact (checkType_levels (fun target mem => embeds mem) levels v).symm.trans failed

/-- Where no chain of references visits more than 64 types, a validation error names the true
culprit: its path leads to a part of the value, and this part fails against the named type with the
same mismatch and an empty path. -/
theorem validate_blames (chains : r.ChainsWithin 64) (name : String) {v : Value}
    (keyed : v.Keyed) {e : ValidationError} (failed : r.validate name v = .error e) :
    ∃ part, v.follow? e.path = some part ∧
      r.validate e.typeName part = .error ⟨[], e.typeName, e.mismatch⟩ := by
  cases found : r.get? name with
  | some type =>
    refine checkType_blames (chains.nestsWithin name) (Nat.le_refl 64) found keyed e ?_
    rw [validate_eq, found] at failed
    exact failed
  | none =>
    have failed' := failed
    rw [validate_eq, found] at failed
    cases failed
    exact ⟨v, rfl, failed'⟩

/-- A table is a list of rows, a row a list of integers and truth values. -/
def tableTypes : List (String × Json) :=
  [("row", .obj [("type", .str "List"), ("allowed", .arr [.str "Int", .str "Bool"])]),
    ("table", .obj [("type", .str "List"), ("allowed", .str "row")])]

/-- A table with a text in its second row. -/
def brokenTable : Value :=
  .list [.list [.int 1], .list [.bool true, .string "x"]]

theorem brokenTable_keyed : brokenTable.Keyed := by
  have row {items : List Value} (cells : ∀ cell ∈ items, cell.Keyed) : (Value.list items).Keyed :=
    ⟨trivial, cells⟩
  have int : (Value.int 1).Keyed := .of_no_parts trivial rfl
  have bool : (Value.bool true).Keyed := .of_no_parts trivial rfl
  have text : (Value.string "x").Keyed := .of_no_parts trivial rfl
  exact row (by simp [row, int, bool, text])

/-- The text is to blame: as a cell of a row, it is neither an integer nor a truth value. -/
theorem brokenTable_blames :
    ∃ r e, Loading.loadTypes tableTypes = .ok r ∧ r.ChainsWithin 64 ∧
      r.validate "table" brokenTable = .error e ∧ e.path = [.index 1, .index 1] ∧
      e.typeName = "rowOneOf" ∧ ∃ part, brokenTable.follow? e.path = some part ∧
        r.validate e.typeName part = .error ⟨[], e.typeName, e.mismatch⟩ := by
  have run : (Loading.loadTypes tableTypes).toOption.map (fun r => (r.size,
      match r.validate "table" brokenTable with
        | .error e => some (e.path, e.typeName)
        | .ok _ => none)) = some (26, some ([.index 1, .index 1], "rowOneOf")) := by cbv
  rcases loads : Loading.loadTypes tableTypes with e | r
  · rw [loads] at run
    contradiction
  rw [loads] at run
  have run := Option.some.inj run
  rw [Prod.mk.injEq] at run
  obtain ⟨size, failed⟩ := run
  have chains : r.ChainsWithin 64 := by
    intro chain refers
    have few := chainsWithin_of_acyclic (Loading.loadTypes_loaded loads).acyclic chain refers
    omega
  rcases verdict : r.validate "table" brokenTable with e | _
  · rw [verdict] at failed
    have failed := Option.some.inj failed
    rw [Prod.mk.injEq] at failed
    exact ⟨r, e, rfl, chains, verdict, failed.1, failed.2,
      validate_blames chains "table" brokenTable_keyed verdict⟩
  · rw [verdict] at failed
    contradiction

end Registry

end DeviceTree
