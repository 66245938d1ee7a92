import DeviceTree.Proofs.Outcomes

/-!
# The stack of the validator

A check keeps the steps to the part at hand on a stack. `ComesTo check verdict` says that the check
has the verdict wherever it starts, told of that place, and that it leaves the stack as it was: when
it passes, when it fails, and when it is one of a union whose failures are dropped.

`trackType_comesTo` is the induction over the types entered. By it, `validate` is the check without
the stack (`validate_eq`), and no other proof has to know of one.
-/

namespace DeviceTree

namespace Validation

/-- Wherever it starts, the check has the verdict, told of that place, and restores the stack. -/
def ComesTo (check : Tracked Unit) (verdict : Verdict) : Prop :=
  ∀ steps, check.run.run steps = (verdict.under steps, steps)

namespace ComesTo

variable {check check' : Tracked Unit} {verdict verdict' : Verdict}

theorem ok : ComesTo (pure ()) (.ok ()) :=
  fun _ => rfl

theorem settle : ComesTo (settle verdict) verdict :=
  fun _ => rfl

theorem andThen (first : ComesTo check verdict) (second : ComesTo check' verdict') :
    ComesTo (do check; check') (do verdict; verdict') := by
  intro steps
  rw [ExceptT.run_bind, StateT.run_bind, first steps]
  cases verdict with
  | ok => exact second steps
  | error e => rfl

/-- The step is on the stack for the part, and off again whatever the verdict. -/
theorem descend (step : Step) (part : ComesTo check verdict) :
    ComesTo (descend step check) (verdict.below step) := by
  intro steps
  have run : (Validation.descend step check).run.run steps =
      ((check.run.run (step :: steps)).1, (check.run.run (step :: steps)).2.tail) := rfl
  rw [run, part (step :: steps)]
  cases verdict with
  | ok => rfl
  | error e => simp [Verdict.below, Verdict.under, Except.mapError]

theorem conclude (h : ComesTo check verdict) : conclude check = verdict := by
  rw [Validation.conclude, h []]
  cases verdict <;> rfl

end ComesTo

theorem trackItems_comesTo {track : Value → Tracked Unit} {check : Value → Verdict}
    (parts : ∀ part, ComesTo (track part) (check part)) (i : Nat) (items : List Value) :
    ComesTo (trackItems track i items) (checkItems check i items) := by
  induction items generalizing i with
  | nil => exact .ok
  | cons item rest ih => exact .andThen (.descend _ (parts item)) (ih (i + 1))

section Named

variable {r : Registry} {track : String → Value → Tracked Unit} {check : String → Value → Verdict}
  (parts : ∀ target part, ComesTo (track target part) (check target part)) (name : String)

include parts

theorem trackPositions_comesTo (i : Nat) (types : List String) (items : List Value) :
    ComesTo (trackPositions track i types items) (checkPositions check i types items) := by
  induction types generalizing i items with
  | nil => exact .ok
  | cons typeName types ih =>
    cases items with
    | nil => exact .ok
    | cons item items => exact .andThen (.descend _ (parts typeName item)) (ih (i + 1) items)

theorem trackEntries_comesTo (fields : OrderedMap String) (entries : List (String × Value)) :
    ComesTo (trackEntries track name fields entries) (checkEntries check name fields entries) := by
  induction entries with
  | nil => exact .ok
  | cons entry rest ih =>
    rw [trackEntries, checkEntries]
    split
    · exact .settle
    · exact .andThen (.descend _ (parts _ _)) ih

theorem trackPairs_comesTo (fields : SortedMap String) (entries : List (Int × Value)) :
    ComesTo (trackPairs track name fields entries) (checkPairs check name fields entries) := by
  induction entries with
  | nil => exact .ok
  | cons entry rest ih =>
    rw [trackPairs, checkPairs]
    split
    · exact .settle
    · exact .andThen (.descend _ (parts _ _)) ih

/-- The stack is the same after the members that failed as before them. -/
theorem run_trackMembers (v : Value) (members : List String) (steps : List Step) :
    (trackMembers (track · v) members).run.run steps =
      (.ok (members.any fun member => (check member v).isOk), steps) := by
  induction members with
  | nil => rfl
  | cons member rest ih =>
    have run : (trackMembers (track · v) (member :: rest)).run.run steps =
        (if ((track member v).run.run steps).1.isOk then pure true
          else trackMembers (track · v) rest).run.run ((track member v).run.run steps).2 := rfl
    rw [run, parts member v steps, List.any_cons]
    cases check member v with
    | ok => rfl
    | error e => exact ih

theorem trackBody_comesTo (type : TypeDef) (v : Value) :
    ComesTo (trackBody r track name type v) (checkBody r check name type v) := by
  cases type with
  | list shape =>
    cases v with
    | list items =>
      refine .andThen .settle ?_
      split
      · exact trackItems_comesTo (parts _) 0 items
      · exact .ok
    | _ => exact .settle
  | tuple shape =>
    cases v with
    | list items =>
      rw [trackBody, checkBody]
      split
      · exact trackPositions_comesTo parts 0 shape.items items
      · exact .settle
    | _ => exact .settle
  | map shape =>
    cases v with
    | map entries =>
      rw [trackBody, checkBody]
      split
      · exact trackEntries_comesTo parts name _ entries
      · exact .ok
    | _ => exact .settle
  | imap shape =>
    cases v with
    | imap entries =>
      rw [trackBody, checkBody]
      split
      · exact trackPairs_comesTo parts name _ entries
      · exact .ok
    | _ => exact .settle
  | «alias» target => exact parts target v
  | union members =>
    intro steps
    rw [trackBody, checkBody, ExceptT.run_bind, StateT.run_bind,
      run_trackMembers parts v members steps]
    cases members.any fun member => (check member v).isOk <;> rfl
  | null | bool | dateTime | double | decimal | string | blob => cases v <;> exact .settle
  | any | int | enum | bitfield | constant => exact .settle

end Named

/-- A check with a stack comes to the verdict of the check without one. -/
theorem trackType_comesTo (r : Registry) (levels : Nat) (name : String) (type : TypeDef)
    (v : Value) : ComesTo (trackType r levels name type v) (checkType r levels name type v) := by
  induction levels generalizing name type v with
  | zero => exact .settle
  | succ levels ih =>
    refine trackBody_comesTo (fun target part => ?_) name type v
    split
    · exact ih _ _ _
    · exact .settle

end Validation

theorem Registry.validate_eq (r : Registry) (name : String) (v : Value) :
    r.validate name v = match r.get? name with
      | some type => Validation.checkType r Validation.depthLimit name type v
      | none => mismatch name (.unknownType name) := by
  rw [validate]
  cases r.get? name with
  | none => rfl
  | some type => exact (Validation.trackType_comesTo r _ name type v).conclude

end DeviceTree
