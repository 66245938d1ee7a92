import DeviceTree.Proofs.Decimals
import DeviceTree.Proofs.GeneratedValues

/-!
# Constraints of loaded types

The readers of a specification refuse bounds that are the wrong way round. Companion types are read
by the same readers, and what loading completes later (integer maps and bitfields) has no bounds, so
the checks hold for all types of a registry that has been loaded (`loadTypes_bounded`).
-/

namespace DeviceTree

/-- The constraints of an integer type do not contradict each other. -/
@[mk_iff]
structure IntRange.Bounded (range : IntRange) : Prop where
  order : ∀ low ∈ range.minimum, ∀ high ∈ range.maximum, low ≤ high
  unit : ∀ unit ∈ range.multipleOf, 1 ≤ unit
  unsignedLow : range.unsigned = true → ∀ low ∈ range.minimum, 0 ≤ low
  unsignedHigh : range.unsigned = true → ∀ high ∈ range.maximum, 0 ≤ high

/-- The bounds of a type are in order, decimals as numbers. -/
def TypeDef.Bounded : TypeDef → Prop
  | .int range => range.Bounded
  | .decimal range => ∀ low ∈ range.minimum, ∀ high ∈ range.maximum, low.toRat ≤ high.toRat
  | .string shape => ∀ low ∈ shape.minLength, ∀ high ∈ shape.maxLength, low ≤ high
  | .blob shape => ∀ low ∈ shape.minLength, ∀ high ∈ shape.maxLength, low ≤ high
  | .list shape => ∀ high ∈ shape.maxLength, shape.minLength ≤ high
  | _ => True

theorem Loading.Specified.bounded {type : TypeDef} (h : Specified type) : type.Bounded := by
  have consistent := h.consistent
  cases type with
  | int range =>
    obtain ⟨l, attrs, read⟩ := h
    obtain ⟨sign, positive, order⟩ := intType_checked read
    exact ⟨order, positive, fun unsigned => (sign unsigned).1, fun unsigned => (sign unsigned).2⟩
  | decimal range =>
    intro low minimum high maximum
    exact not_lt.1 fun above => consistent low minimum high maximum (Decimal.lt_iff.2 above)
  | string | blob | list => exact consistent
  | _ => trivial

namespace Registry

theorem bounded_of_mem_builtin : ∀ p ∈ coreTypes ++ builtinTypes, p.2.Bounded := by
  simp [coreTypes, builtinTypes, IntRange.between, TypeDef.Bounded, IntRange.bounded_iff]

/-- Loaded types, those derived from parts of others included, have bounds in order. -/
theorem loadTypes_bounded {types : List (String × Json)} {r : Registry}
    (loads : Loading.loadTypes types = .ok r) {name : String} {type : TypeDef}
    (found : r.get? name = some type) : type.Bounded := by
  rcases (Loading.loadTypes_loaded loads).specified_or_builtin found with specified | builtin
  · exact specified.bounded
  · exact bounded_of_mem_builtin _ builtin

/-- A text with a length and a bound on its own, and a list of decimals given in place. -/
def tariffTypes : List (String × Json) :=
  [("code", .obj [("type", .str "String"), ("length", .int 8), ("minLength", .int 2)]),
    ("rates", .obj [("type", .str "List"), ("maxlen", .int 3), ("allowed",
      .obj [("type", .str "Decimal"), ("minimum", .str "0.5"), ("maximum", .int 2)])])]

/-- The length is the missing bound of the text, and the derived type is bounded as well. -/
theorem tariffTypes_bounded :
    ∃ r, Loading.loadTypes tariffTypes = .ok r ∧
      ∃ code rate : TypeDef, r.get? "code" = some code ∧ r.get? "ratesType" = some rate ∧
        code = .string { minLength := some 2, maxLength := some 8 } ∧ code.Bounded ∧
        rate = .decimal { minimum := some ⟨5, -1⟩, maximum := some ⟨2, 0⟩ } ∧ rate.Bounded := by
  have run : (fun r : Registry => (r.get? "code", r.get? "ratesType")) <$>
      Loading.loadTypes tariffTypes =
        .ok (some (.string { minLength := some 2, maxLength := some 8 }),
          some (.decimal { minimum := some ⟨5, -1⟩, maximum := some ⟨2, 0⟩ })) := by cbv
  obtain ⟨r, loads, shown⟩ := map_eq_ok.1 run
  obtain ⟨code, rate⟩ := Prod.mk.inj shown
  exact ⟨r, loads, _, _, code, rate, rfl, loadTypes_bounded loads code, rfl,
    loadTypes_bounded loads rate⟩

end Registry

end DeviceTree
