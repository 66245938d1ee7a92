import DeviceTree.Loading.Types
import DeviceTree.Proofs.Outcomes

/-!
# Where specifications stand

Readers take the location of what they read for the errors that they report. Whether they succeed,
and with what, does not depend on it: the results at two locations are the same once errors are
forgotten (`Except.toOption`). `eq_ok_of_toOption` is how a run uses that.
-/

namespace DeviceTree

section Forgetting

variable {ε α β : Type} {x y : Except ε α} {a : α}

@[simp]
theorem toOption_ok : (Except.ok a : Except ε α).toOption = some a :=
  rfl

@[simp]
theorem toOption_pure : (pure a : Except ε α).toOption = some a :=
  rfl

@[simp]
theorem toOption_error {e : ε} : (Except.error e : Except ε α).toOption = none :=
  rfl

@[simp]
theorem toOption_throw {e : ε} : (throw e : Except ε α).toOption = none :=
  rfl

@[simp]
theorem toOption_bind {f : α → Except ε β} :
    (x >>= f).toOption = x.toOption.bind fun a => (f a).toOption := by
  cases x <;> rfl

@[simp]
theorem toOption_map {f : α → β} : (x.map f).toOption = x.toOption.map f := by
  cases x <;> rfl

@[simp]
theorem toOption_functorMap {f : α → β} : (f <$> x).toOption = x.toOption.map f :=
  toOption_map

theorem toOption_eq_some : x.toOption = some a ↔ x = .ok a := by
  cases x <;> simp

theorem eq_ok_of_toOption (same : x.toOption = y.toOption) (ok : x = .ok a) : y = .ok a := by
  rw [← toOption_eq_some, ← same, ok, toOption_ok]

end Forgetting

namespace Loading

variable (l l' : Location)

/-! ## Attributes -/

section Attributes

variable {attrs : Attributes} {key : String}

namespace Attributes

theorem read_anywhere {α : Type} {what : String} {f : Json → Option α} :
    (attrs.read l key what f).toOption = (attrs.read l' key what f).toOption := by
  unfold read
  split
  · rfl
  · split <;> rfl

theorem int_anywhere : (attrs.int l key).toOption = (attrs.int l' key).toOption :=
  read_anywhere l l'

theorem size_anywhere : (attrs.size l key).toOption = (attrs.size l' key).toOption :=
  read_anywhere l l'

theorem float_anywhere : (attrs.float l key).toOption = (attrs.float l' key).toOption :=
  read_anywhere l l'

theorem decimal_anywhere : (attrs.decimal l key).toOption = (attrs.decimal l' key).toOption :=
  read_anywhere l l'

theorem boolean_anywhere : (attrs.boolean l key).toOption = (attrs.boolean l' key).toOption :=
  read_anywhere l l'

theorem string_anywhere : (attrs.string l key).toOption = (attrs.string l' key).toOption :=
  read_anywhere l l'

end Attributes

theorem checkOrder_anywhere {α : Type} {above : α → α → Bool} {minimum maximum : Option α} :
    (checkOrder above l minimum maximum).toOption =
      (checkOrder above l' minimum maximum).toOption := by
  unfold checkOrder
  split
  · split <;> rfl
  · rfl

theorem checkRecognized_anywhere {kind : String} :
    (checkRecognized l kind attrs).toOption = (checkRecognized l' kind attrs).toOption := by
  simp only [checkRecognized, apply_ite Except.toOption, toOption_ok, toOption_error]

end Attributes

/-! ## Numbered lists -/

section Numbering

theorem nonNegative_anywhere {v : Json} :
    (nonNegative l v).toOption = (nonNegative l' v).toOption := by
  unfold nonNegative
  split <;> rfl

theorem explicitAliases_anywhere {next : Int} {fields : List (String × Json)} :
    (explicitAliases l next fields).toOption = (explicitAliases l' next fields).toOption := by
  induction fields generalizing next with
  | nil => rfl
  | cons entry rest ih =>
    obtain ⟨name, v⟩ := entry
    cases given : v.asInt64? <;> simp [explicitAliases, given, ih]

theorem numberAliases_anywhere {next : Int} {items : List Json} :
    (numberAliases l next items).toOption = (numberAliases l' next items).toOption := by
  induction items generalizing next with
  | nil => rfl
  | cons item rest ih =>
    cases item <;>
      simp [numberAliases, ih, nonNegative_anywhere l l', explicitAliases_anywhere l l']

theorem distinctAliases_anywhere {acc : OrderedMap Int} {pairs : List (String × Int)} :
    (distinctAliases l acc pairs).toOption = (distinctAliases l' acc pairs).toOption := by
  induction pairs generalizing acc with
  | nil => rfl
  | cons pair rest ih => simp only [distinctAliases, apply_ite Except.toOption, toOption_error, ih]

theorem enumeration_anywhere {spec : Json} :
    (enumeration l spec).toOption = (enumeration l' spec).toOption := by
  cases spec <;>
    simp [enumeration, numberAliases_anywhere l l', distinctAliases_anywhere l l']

theorem explicitFields_anywhere {next : Int} {fields : List (String × Json)} :
    (explicitFields l next fields).toOption = (explicitFields l' next fields).toOption := by
  induction fields generalizing next with
  | nil => rfl
  | cons entry rest ih =>
    simp [explicitFields, ih, nonNegative_anywhere (l.join entry.1) (l'.join entry.1)]

theorem placeFields_anywhere {acc : SortedMap String} {fields : List (Int × String)} :
    (placeFields l acc fields).toOption = (placeFields l' acc fields).toOption := by
  induction fields generalizing acc with
  | nil => rfl
  | cons field rest ih => simp only [placeFields, apply_ite Except.toOption, toOption_error, ih]

theorem numberFields_anywhere {acc : SortedMap String} {next : Int} {position : Nat}
    {items : List Json} :
    (numberFields l acc next position items).toOption =
      (numberFields l' acc next position items).toOption := by
  induction items generalizing acc next position with
  | nil => rfl
  | cons item rest ih =>
    cases item with
    | obj explicit =>
      simp only [numberFields, toOption_bind, ih, placeFields_anywhere l l',
        explicitFields_anywhere (l.join s!"[{position}]") (l'.join s!"[{position}]")]
    | _ => simp [numberFields, ih, placeFields_anywhere l l']

theorem explicitSlots_anywhere {fields : List (String × Json)} :
    (explicitSlots l fields).toOption = (explicitSlots l' fields).toOption := by
  induction fields with
  | nil => rfl
  | cons entry rest ih =>
    simp [explicitSlots, ih, nonNegative_anywhere (l.join entry.1) (l'.join entry.1)]

theorem bitSlots_anywhere {items : List Json} :
    (bitSlots l items).toOption = (bitSlots l' items).toOption := by
  induction items with
  | nil => rfl
  | cons item rest ih =>
    cases item <;>
      simp [bitSlots, ih, nonNegative_anywhere l l', explicitSlots_anywhere l l']

theorem slotsAttribute_anywhere {attrs : Attributes} :
    (slotsAttribute l attrs).toOption = (slotsAttribute l' attrs).toOption := by
  unfold slotsAttribute
  split <;> simp [bitSlots_anywhere l l']

theorem add_anywhere {fields : IMapFields} {key typeName : String} :
    (fields.add l key typeName).toOption = (fields.add l' key typeName).toOption := by
  unfold IMapFields.add
  split <;> simp [placeFields_anywhere l l']

end Numbering

/-! ## Kinds without parts -/

section Kinds

variable {attrs : Attributes}

theorem intType_anywhere : (intType l attrs).toOption = (intType l' attrs).toOption := by
  simp [intType, Attributes.int_anywhere l l', Attributes.boolean_anywhere l l',
    checkOrder_anywhere l l', apply_ite Except.toOption]

theorem doubleType_anywhere : (doubleType l attrs).toOption = (doubleType l' attrs).toOption := by
  simp [doubleType, Attributes.float_anywhere l l', checkOrder_anywhere l l',
    apply_ite Except.toOption]

theorem decimalType_anywhere :
    (decimalType l attrs).toOption = (decimalType l' attrs).toOption := by
  simp [decimalType, Attributes.decimal_anywhere l l', checkOrder_anywhere l l']

theorem lengthBounds_anywhere :
    (lengthBounds l attrs).toOption = (lengthBounds l' attrs).toOption := by
  simp [lengthBounds, Attributes.size_anywhere l l', checkOrder_anywhere l l']

theorem stringType_anywhere : (stringType l attrs).toOption = (stringType l' attrs).toOption := by
  simp only [stringType, toOption_bind, lengthBounds_anywhere l l',
    Attributes.string_anywhere l l']
  refine Option.bind_congr fun bounds _ => Option.bind_congr fun source _ => ?_
  cases source with
  | none => rfl
  | some source => cases read : Pattern.ofSource? source <;> simp [read]

theorem blobType_anywhere : (blobType l attrs).toOption = (blobType l' attrs).toOption := by
  simp [blobType, lengthBounds_anywhere l l']

theorem enumType_anywhere : (enumType l attrs).toOption = (enumType l' attrs).toOption := by
  unfold enumType
  split
  · exact enumeration_anywhere ..
  · rfl

theorem constantType_anywhere :
    (constantType l attrs).toOption = (constantType l' attrs).toOption := by
  unfold constantType
  split <;> rfl

theorem plainType_anywhere {kind name : String} :
    (plainType l kind name attrs).toOption = (plainType l' kind name attrs).toOption := by
  unfold plainType
  split <;> simp [intType_anywhere l l', doubleType_anywhere l l', decimalType_anywhere l l',
    stringType_anywhere l l', blobType_anywhere l l', enumType_anywhere l l',
    constantType_anywhere l l']

end Kinds

/-! ## What is left to do -/

section Completion

/-- Whether places are good does not depend on where the bitfield is specified. -/
theorem checkPlaces_anywhere {start : Int} {placed : List PlacedField} :
    (checkPlaces l start placed).toOption = (checkPlaces l' start placed).toOption := by
  induction placed generalizing start with
  | nil => rfl
  | cons f rest ih => simp [checkPlaces, apply_ite Except.toOption, ih]

/-- Where a field can be placed does not depend on where the map is specified. -/
theorem placeNamed_anywhere {e : Enumeration} {acc : SortedMap String}
    {named : List (String × String)} :
    (placeNamed l e acc named).toOption = (placeNamed l' e acc named).toOption := by
  induction named generalizing acc with
  | nil => rfl
  | cons field rest ih =>
    cases value : e.value? field.1 <;> simp [placeNamed, value, ih, placeFields_anywhere l l']

end Completion

end Loading

end DeviceTree
