import DeviceTree.Proofs.Stacks

/-!
# Validity of values

What it means that a value belongs to a type, said without the checker: `Registry.Accepts` has one
rule for each kind of type, and `Registry.Matches` enters the type that a name is bound to. Both
carry the number of types that may be nested in a derivation.

`checkType_eq_ok` says that the checker with so many levels left decides `Accepts`, by one lemma for
each kind of type. `validate_ok_iff_matches` is the case of a whole value.
-/

namespace DeviceTree

/-! ## Rules for values without parts -/

/-- The integers of a range: both bounds are part of it. A unit of zero asks for nothing. -/
structure IntRange.Admits (range : IntRange) (n : Int) : Prop where
  minimum : ∀ low ∈ range.minimum, low ≤ n
  maximum : ∀ high ∈ range.maximum, n ≤ high
  unsigned : range.unsigned = true → 0 ≤ n
  multiple : ∀ unit ∈ range.multipleOf, unit ≠ 0 → unit ∣ n

/-- The doubles of a range. A bound holds unless the comparison says that it is violated: the
inclusive ones are violated beyond them, the exclusive ones from the bound on. -/
structure DoubleRange.Admits (range : DoubleRange) (x : Float) : Prop where
  minimum : ∀ low ∈ range.minimum, ¬ x < low
  exclusiveMinimum : ∀ low ∈ range.exclusiveMinimum, ¬ x ≤ low
  maximum : ∀ high ∈ range.maximum, ¬ high < x
  exclusiveMaximum : ∀ high ∈ range.exclusiveMaximum, ¬ high ≤ x
  multiple : ∀ unit ∈ range.multipleOf, Double.isMultiple x unit = true

/-- The decimals of a range: both bounds are part of it. -/
structure DecimalRange.Admits (range : DecimalRange) (d : Decimal) : Prop where
  minimum : ∀ low ∈ range.minimum, ¬ d < low
  maximum : ∀ high ∈ range.maximum, ¬ high < d

/-- A length between two optional bounds, both included. -/
structure LengthWithin (minimum maximum : Option Nat) (length : Nat) : Prop where
  minimum : ∀ low ∈ minimum, low ≤ length
  maximum : ∀ high ∈ maximum, length ≤ high

/-- The texts of a shape: the length counts characters. -/
structure StringShape.Admits (shape : StringShape) (s : String) : Prop where
  length : LengthWithin shape.minLength shape.maxLength s.length
  pattern : ∀ p ∈ shape.pattern, p.accepts s = true

/-- Bit `i` lies in a field whose type does not stand for null. -/
def Registry.Assigns (r : Registry) (b : BitfieldShape) (i : Nat) : Prop :=
  ∃ f ∈ b.fields, f.covers i = true ∧ r.resolve? f.typeName ≠ some .null

/-! ## Validity -/

mutual

/-- The value belongs to the named type, by a derivation with at most `n` nested types. -/
inductive Registry.Matches (r : Registry) : Nat → String → Value → Prop
  | named {n : Nat} {name : String} {type : TypeDef} {v : Value} :
    r.get? name = some type → r.Accepts n type v → r.Matches n name v

/-- The value belongs to the type, by a derivation with at most `n` nested types, this one
included. -/
inductive Registry.Accepts (r : Registry) : Nat → TypeDef → Value → Prop
  | any {n : Nat} {v : Value} : r.Accepts (n + 1) .any v
  | null {n : Nat} : r.Accepts (n + 1) .null .null
  | bool {n : Nat} {b : Bool} : r.Accepts (n + 1) .bool (.bool b)
  | dateTime {n : Nat} {t : Timestamp} : r.Accepts (n + 1) .dateTime (.dateTime t)
  | int {n : Nat} {range : IntRange} {v : Value} {k : Int} :
    v.asInteger? = some k → range.Admits k → r.Accepts (n + 1) (.int range) v
  | double {n : Nat} {range : DoubleRange} {x : Float} :
    range.Admits x → r.Accepts (n + 1) (.double range) (.double x)
  | decimal {n : Nat} {range : DecimalRange} {d : Decimal} :
    range.Admits d → r.Accepts (n + 1) (.decimal range) (.decimal d)
  | string {n : Nat} {shape : StringShape} {s : String} :
    shape.Admits s → r.Accepts (n + 1) (.string shape) (.string s)
  | blob {n : Nat} {shape : BlobShape} {bytes : List UInt8} :
    LengthWithin shape.minLength shape.maxLength bytes.length →
    r.Accepts (n + 1) (.blob shape) (.blob bytes)
  | enumValue {n : Nat} {e : Enumeration} {v : Value} {k : Int} :
    v.asInteger? = some k → k ∈ e.values.values → r.Accepts (n + 1) (.enum e) v
  | enumAlias {n : Nat} {e : Enumeration} {label : String} :
    label ∈ e.values.keys → r.Accepts (n + 1) (.enum e) (.string label)
  | bitfield {n : Nat} {b : BitfieldShape} {v : Value} {bits : Nat} :
    v.asInteger? = some (bits : Int) → (∀ i, bits.testBit i = true → r.Assigns b i) →
    r.Accepts (n + 1) (.bitfield b) v
  | list {n : Nat} {shape : ListShape} {items : List Value} :
    LengthWithin (some shape.minLength) shape.maxLength items.length →
    (∀ typeName ∈ shape.allowed, ∀ item ∈ items, r.Matches n typeName item) →
    r.Accepts (n + 1) (.list shape) (.list items)
  | tuple {n : Nat} {shape : TupleShape} {items : List Value} :
    items.length = shape.items.length →
    (∀ p ∈ shape.items.zip items, r.Matches n p.1 p.2) →
    r.Accepts (n + 1) (.tuple shape) (.list items)
  /-- Every key is declared; a declared one may be missing. -/
  | map {n : Nat} {shape : MapShape} {entries : List (String × Value)} :
    (∀ fields ∈ shape.fields, ∀ p ∈ entries, (fields.get? p.1).isSome = true) →
    (∀ fields ∈ shape.fields, ∀ p ∈ entries, ∀ typeName ∈ fields.get? p.1,
      r.Matches n typeName p.2) →
    r.Accepts (n + 1) (.map shape) (.map entries)
  /-- Every key is declared; a declared one may be missing. -/
  | imap {n : Nat} {shape : IMapShape} {entries : List (Int × Value)} :
    (∀ fields ∈ shape.fields, ∀ p ∈ entries, (fields.get? p.1).isSome = true) →
    (∀ fields ∈ shape.fields, ∀ p ∈ entries, ∀ typeName ∈ fields.get? p.1,
      r.Matches n typeName p.2) →
    r.Accepts (n + 1) (.imap shape) (.imap entries)
  | aliasTo {n : Nat} {target : String} {v : Value} :
    r.Matches n target v → r.Accepts (n + 1) (.alias target) v
  | union {n : Nat} {members : List String} {member : String} {v : Value} :
    member ∈ members → r.Matches n member v → r.Accepts (n + 1) (.union members) v
  | constant {n : Nat} {c v : Value} : (c == v) = true → r.Accepts (n + 1) (.constant c) v

end

/-! ## The checker -/

namespace Validation

theorem mismatch_ne_ok {name : String} {m : Mismatch} : ¬ mismatch name m = .ok () := by
  simp [mismatch]

theorem ite_eq_ok {c : Prop} [Decidable c] {name : String} {m : Mismatch} :
    (if c then .ok () else mismatch name m) = .ok () ↔ c := by
  split <;> simp [*, mismatch]

/-- Nothing is refused exactly when no bound is violated. -/
theorem refuse_eq_ok {α : Type} {name : String} {violated : Option α} {m : α → Mismatch} :
    refuse name violated m = .ok () ↔ violated = none := by
  cases violated <;> simp [refuse, mismatch]

theorem below_eq_ok {step : Step} {verdict : Verdict} :
    Verdict.below step verdict = .ok () ↔ verdict = .ok () :=
  mapError_eq_ok

/-! ### Kinds without parts -/

theorem checkLength_eq_ok {name : String} {length : Nat} {minimum maximum : Option Nat} :
    checkLength name length minimum maximum = .ok () ↔ LengthWithin minimum maximum length := by
  simp only [checkLength, andThen_eq_ok, refuse_eq_ok, Option.filter_eq_none_iff,
    decide_eq_true_eq, Nat.not_lt]
  exact ⟨fun ⟨low, high⟩ => ⟨low, high⟩, fun ⟨low, high⟩ => ⟨low, high⟩⟩

theorem checkInt_eq_ok {name : String} {range : IntRange} {n : Int} :
    checkInt name range n = .ok () ↔ range.Admits n := by
  simp only [checkInt, andThen_eq_ok, refuse_eq_ok, Option.filter_eq_none_iff, decide_eq_true_eq,
    Int.not_lt, Bool.and_eq_true, bne_iff_ne, not_and, Decidable.not_not]
  constructor
  · intro ⟨low, high, sign, unit⟩
    exact ⟨low, high, fun u => sign 0 (if_pos u),
      fun u hu ne => Int.dvd_of_emod_eq_zero (unit u hu ne)⟩
  · intro ⟨low, high, sign, unit⟩
    refine ⟨low, high, fun zero h => ?_, fun u hu ne => Int.emod_eq_zero_of_dvd (unit u hu ne)⟩
    obtain ⟨u, h⟩ := (Option.ite_none_right_eq_some).1 h
    cases h
    exact sign u

/-- No lower bound is violated: neither the inclusive nor the exclusive one. -/
theorem violatedMinimum?_eq_none {range : DoubleRange} {x : Float} :
    violatedMinimum? range x = none ↔
      (∀ low ∈ range.minimum, ¬ x < low) ∧ ∀ low ∈ range.exclusiveMinimum, ¬ x ≤ low := by
  simp [violatedMinimum?, Option.or_eq_none_iff]

theorem violatedMaximum?_eq_none {range : DoubleRange} {x : Float} :
    violatedMaximum? range x = none ↔
      (∀ high ∈ range.maximum, ¬ high < x) ∧ ∀ high ∈ range.exclusiveMaximum, ¬ high ≤ x := by
  simp [violatedMaximum?, Option.or_eq_none_iff]

theorem checkDouble_eq_ok {name : String} {range : DoubleRange} {x : Float} :
    checkDouble name range x = .ok () ↔ range.Admits x := by
  simp only [checkDouble, andThen_eq_ok, refuse_eq_ok, violatedMinimum?_eq_none,
    violatedMaximum?_eq_none, Option.filter_eq_none_iff, Bool.not_eq_true', Bool.not_eq_false]
  exact ⟨fun ⟨⟨low, low'⟩, ⟨high, high'⟩, unit⟩ => ⟨low, low', high, high', unit⟩,
    fun ⟨low, low', high, high', unit⟩ => ⟨⟨low, low'⟩, ⟨high, high'⟩, unit⟩⟩

theorem checkDecimal_eq_ok {name : String} {range : DecimalRange} {d : Decimal} :
    checkDecimal name range d = .ok () ↔ range.Admits d := by
  simp only [checkDecimal, andThen_eq_ok, refuse_eq_ok, Option.filter_eq_none_iff,
    decide_eq_true_eq]
  exact ⟨fun ⟨low, high⟩ => ⟨low, high⟩, fun ⟨low, high⟩ => ⟨low, high⟩⟩

theorem checkString_eq_ok {name : String} {shape : StringShape} {s : String} :
    checkString name shape s = .ok () ↔ shape.Admits s := by
  simp only [checkString, andThen_eq_ok, checkLength_eq_ok, refuse_eq_ok,
    Option.filter_eq_none_iff, Bool.not_eq_true', Bool.not_eq_false]
  exact ⟨fun ⟨length, pattern⟩ => ⟨length, pattern⟩, fun ⟨length, pattern⟩ => ⟨length, pattern⟩⟩

/-- A value of an enumeration is one of its aliases or one of its integers. -/
theorem checkEnum_eq_ok {name : String} {e : Enumeration} {v : Value} :
    checkEnum name e v = .ok () ↔
      (∃ label ∈ e.values.keys, v = .string label) ∨
        ∃ k ∈ e.values.values, v.asInteger? = some k := by
  cases v with
  | string label =>
    simp only [checkEnum, ite_eq_ok, Enumeration.value?, OrderedMap.isSome_get?, Value.asInteger?,
      Value.string.injEq, exists_eq_right', reduceCtorEq, and_false, exists_false, or_false]
  | int n =>
    simp only [checkEnum, Value.asInteger?, ite_eq_ok, Enumeration.containsValue,
      List.contains_iff_mem, Option.some.injEq, exists_eq_right', reduceCtorEq, and_false,
      exists_false, false_or]
  | uint n =>
    simp only [checkEnum, Value.asInteger?, ite_eq_ok, Enumeration.containsValue,
      List.contains_iff_mem, Option.some.injEq, exists_eq_right', reduceCtorEq, and_false,
      exists_false, false_or]
  | _ => simp [checkEnum, Value.asInteger?, mismatch_ne_ok]

/-- Joining single bits gives no bits only when there is none to join. -/
theorem joinBits_eq_zero {positions : List Nat} :
    positions.foldr (fun i word => 1 <<< i ||| word) 0 = 0 ↔ positions = [] := by
  cases positions with
  | nil => simp
  | cons i rest => simp [Nat.or_eq_zero_iff, Nat.shiftLeft_eq]

theorem isAssigned_eq_true {r : Registry} {b : BitfieldShape} {i : Nat} :
    isAssigned r b i = true ↔ r.Assigns b i := by
  simp only [isAssigned, Registry.Assigns, List.any_eq_true, Bool.and_eq_true, Bool.not_eq_true']
  constructor
  · rintro ⟨f, hf, covers, notNull⟩
    refine ⟨f, hf, covers, fun null => ?_⟩
    simp [null] at notNull
  · rintro ⟨f, hf, covers, notNull⟩
    refine ⟨f, hf, covers, ?_⟩
    split
    · contradiction
    · rfl

theorem lt_of_testBit {bits n i : Nat} (word : bits < 2 ^ n) (set : bits.testBit i = true) :
    i < n :=
  (Nat.pow_lt_pow_iff_right (by decide)).1
    (Nat.lt_of_le_of_lt (Nat.ge_two_pow_of_testBit set) word)

/-- A word leaves no bit unassigned when each of its set bits lies in a field that holds data. -/
theorem unassignedBits_eq_zero {r : Registry} {b : BitfieldShape} {bits : Nat}
    (word : bits < 2 ^ 64) :
    unassignedBits r b bits = 0 ↔ ∀ i, bits.testBit i = true → r.Assigns b i := by
  rw [unassignedBits, joinBits_eq_zero, List.filter_eq_nil_iff]
  constructor
  · intro h i set
    have := h i (List.mem_range.2 (lt_of_testBit word set))
    rw [set, Bool.true_and, Bool.not_eq_true', Bool.not_eq_false, isAssigned_eq_true] at this
    exact this
  · intro h i _ both
    rw [Bool.and_eq_true] at both
    simp [isAssigned_eq_true.2 (h i both.1)] at both

theorem asInteger?_lt {v : Value} {k : Int} (h : v.asInteger? = some k) : k < 2 ^ 64 := by
  cases v <;> simp only [Value.asInteger?, Option.some.injEq, reduceCtorEq] at h
  · rename_i n
    have := n.toInt_lt
    omega
  · rename_i n
    have := n.toNat_lt
    omega

theorem checkBitfield_eq_ok {r : Registry} {name : String} {b : BitfieldShape} {v : Value} :
    checkBitfield r name b v = .ok () ↔
      ∃ bits : Nat, v.asInteger? = some (bits : Int) ∧
        ∀ i, bits.testBit i = true → r.Assigns b i := by
  rw [checkBitfield]
  constructor
  · intro h
    split at h
    · rename_i k found
      obtain ⟨integer, range⟩ := Option.filter_eq_some_iff.1 found
      simp only [Bool.and_eq_true, decide_eq_true_eq] at range
      rw [ite_eq_ok, beq_iff_eq, unassignedBits_eq_zero (by omega)] at h
      exact ⟨k.toNat, by rw [integer, Int.toNat_of_nonneg range.1], h⟩
    · exact absurd h mismatch_ne_ok
  · rintro ⟨bits, integer, assigned⟩
    have word := asInteger?_lt integer
    rw [integer, Option.filter_some, if_pos (by simp; omega), ite_eq_ok, beq_iff_eq]
    exact (unassignedBits_eq_zero (by omega)).2 assigned

/-! ### Kinds with parts -/

theorem checkItems_eq_ok {check : Value → Verdict} {items : List Value} {i : Nat} :
    checkItems check i items = .ok () ↔ ∀ item ∈ items, check item = .ok () := by
  induction items generalizing i with
  | nil => simp [checkItems]
  | cons item rest ih =>
    rw [checkItems, andThen_eq_ok, below_eq_ok, ih, List.forall_mem_cons]

theorem checkPositions_eq_ok {check : String → Value → Verdict} {types : List String}
    {items : List Value} {i : Nat} :
    checkPositions check i types items = .ok () ↔
      ∀ p ∈ types.zip items, check p.1 p.2 = .ok () := by
  induction types generalizing i items with
  | nil => simp [checkPositions]
  | cons typeName types ih =>
    cases items with
    | nil => simp [checkPositions]
    | cons item items =>
      rw [checkPositions, andThen_eq_ok, below_eq_ok, ih, List.zip_cons_cons, List.forall_mem_cons]

theorem checkEntries_eq_ok {check : String → Value → Verdict} {name : String}
    {fields : OrderedMap String} {entries : List (String × Value)} :
    checkEntries check name fields entries = .ok () ↔
      ∀ p ∈ entries, (fields.get? p.1).isSome = true ∧
        ∀ typeName ∈ fields.get? p.1, check typeName p.2 = .ok () := by
  induction entries with
  | nil => simp [checkEntries]
  | cons entry rest ih =>
    obtain ⟨key, item⟩ := entry
    rw [checkEntries, List.forall_mem_cons]
    cases found : fields.get? key with
    | none => simp [mismatch_ne_ok]
    | some typeName =>
      simp only [andThen_eq_ok, below_eq_ok, ih, Option.isSome_some, true_and, Option.mem_some_iff,
        forall_eq']

theorem checkPairs_eq_ok {check : String → Value → Verdict} {name : String}
    {fields : SortedMap String} {entries : List (Int × Value)} :
    checkPairs check name fields entries = .ok () ↔
      ∀ p ∈ entries, (fields.get? p.1).isSome = true ∧
        ∀ typeName ∈ fields.get? p.1, check typeName p.2 = .ok () := by
  induction entries with
  | nil => simp [checkPairs]
  | cons entry rest ih =>
    obtain ⟨key, item⟩ := entry
    rw [checkPairs, List.forall_mem_cons]
    cases found : fields.get? key with
    | none => simp [mismatch_ne_ok]
    | some typeName =>
      simp only [andThen_eq_ok, below_eq_ok, ih, Option.isSome_some, true_and, Option.mem_some_iff,
        forall_eq']

section Body

variable {r : Registry} {check : String → Value → Verdict} {name : String} {n : Nat}

theorem checkList_eq_ok {shape : ListShape} {items : List Value} :
    checkBody r check name (.list shape) (.list items) = .ok () ↔
      LengthWithin (some shape.minLength) shape.maxLength items.length ∧
        ∀ typeName ∈ shape.allowed, ∀ item ∈ items, check typeName item = .ok () := by
  rw [checkBody, andThen_eq_ok, checkLength_eq_ok]
  cases shape.allowed with
  | none => simp
  | some typeName => simp [checkItems_eq_ok]

theorem checkTuple_eq_ok {shape : TupleShape} {items : List Value} :
    checkBody r check name (.tuple shape) (.list items) = .ok () ↔
      items.length = shape.items.length ∧
        ∀ p ∈ shape.items.zip items, check p.1 p.2 = .ok () := by
  rw [checkBody]
  split
  · rename_i arity
    rw [checkPositions_eq_ok, and_iff_right arity]
  · rename_i arity
    simp [arity, mismatch_ne_ok]

theorem checkMap_eq_ok {shape : MapShape} {entries : List (String × Value)} :
    checkBody r check name (.map shape) (.map entries) = .ok () ↔
      ∀ fields ∈ shape.fields, ∀ p ∈ entries, (fields.get? p.1).isSome = true ∧
        ∀ typeName ∈ fields.get? p.1, check typeName p.2 = .ok () := by
  rw [checkBody]
  cases shape.fields with
  | none => simp
  | some fields => simp only [checkEntries_eq_ok, Option.mem_some_iff, forall_eq']

theorem checkIMap_eq_ok {shape : IMapShape} {entries : List (Int × Value)} :
    checkBody r check name (.imap shape) (.imap entries) = .ok () ↔
      ∀ fields ∈ shape.fields, ∀ p ∈ entries, (fields.get? p.1).isSome = true ∧
        ∀ typeName ∈ fields.get? p.1, check typeName p.2 = .ok () := by
  rw [checkBody]
  cases shape.fields with
  | none => simp
  | some fields => simp only [checkPairs_eq_ok, Option.mem_some_iff, forall_eq']

theorem checkUnion_eq_ok {members : List String} {v : Value} :
    checkBody r check name (.union members) v = .ok () ↔
      ∃ member ∈ members, check member v = .ok () := by
  simp only [checkBody, ite_eq_ok, List.any_eq_true, isOk_eq_true]

/-! ### All kinds -/

/-- What passes the check of a body is valid, with one more nested type than its parts. -/
theorem accepts_of_checkBody
    (parts : ∀ target part, check target part = .ok () → r.Matches n target part)
    {type : TypeDef} {v : Value} (h : checkBody r check name type v = .ok ()) :
    r.Accepts (n + 1) type v := by
  cases type with
  | any => exact .any
  | null => cases v <;> first | exact .null | exact absurd h mismatch_ne_ok
  | bool => cases v <;> first | exact .bool | exact absurd h mismatch_ne_ok
  | dateTime => cases v <;> first | exact .dateTime | exact absurd h mismatch_ne_ok
  | int range =>
    simp only [checkBody] at h
    split at h
    · rename_i found
      exact .int found (checkInt_eq_ok.1 h)
    · exact absurd h mismatch_ne_ok
  | double range =>
    cases v <;> first | exact .double (checkDouble_eq_ok.1 h) | exact absurd h mismatch_ne_ok
  | decimal range =>
    cases v <;> first | exact .decimal (checkDecimal_eq_ok.1 h) | exact absurd h mismatch_ne_ok
  | string shape =>
    cases v <;> first | exact .string (checkString_eq_ok.1 h) | exact absurd h mismatch_ne_ok
  | blob shape =>
    cases v <;> first | exact .blob (checkLength_eq_ok.1 h) | exact absurd h mismatch_ne_ok
  | enum e =>
    obtain ⟨label, member, rfl⟩ | ⟨k, member, found⟩ := checkEnum_eq_ok.1 h
    · exact .enumAlias member
    · exact .enumValue found member
  | bitfield b =>
    obtain ⟨bits, found, assigned⟩ := checkBitfield_eq_ok.1 h
    exact .bitfield found assigned
  | list shape =>
    cases v with
    | list items =>
      obtain ⟨length, passed⟩ := checkList_eq_ok.1 h
      exact .list length fun typeName allowed item mem =>
        parts typeName item (passed typeName allowed item mem)
    | _ => exact absurd h mismatch_ne_ok
  | tuple shape =>
    cases v with
    | list items =>
      obtain ⟨arity, passed⟩ := checkTuple_eq_ok.1 h
      exact .tuple arity fun p mem => parts p.1 p.2 (passed p mem)
    | _ => exact absurd h mismatch_ne_ok
  | map shape =>
    cases v with
    | map entries =>
      have passed := checkMap_eq_ok.1 h
      exact .map (fun fields declared p mem => (passed fields declared p mem).1)
        fun fields declared p mem typeName found =>
          parts typeName p.2 ((passed fields declared p mem).2 typeName found)
    | _ => exact absurd h mismatch_ne_ok
  | imap shape =>
    cases v with
    | imap entries =>
      have passed := checkIMap_eq_ok.1 h
      exact .imap (fun fields declared p mem => (passed fields declared p mem).1)
        fun fields declared p mem typeName found =>
          parts typeName p.2 ((passed fields declared p mem).2 typeName found)
    | _ => exact absurd h mismatch_ne_ok
  | «alias» target => exact .aliasTo (parts target v h)
  | union members =>
    obtain ⟨member, mem, passed⟩ := checkUnion_eq_ok.1 h
    exact .union mem (parts member v passed)
  | constant c =>
    rw [checkBody, ite_eq_ok] at h
    exact .constant h

/-- What is valid passes the check of its body, if its parts do. -/
theorem checkBody_of_accepts
    (parts : ∀ target part, r.Matches n target part → check target part = .ok ())
    {type : TypeDef} {v : Value} (h : r.Accepts (n + 1) type v) :
    checkBody r check name type v = .ok () := by
  cases h with
  | any | null | bool | dateTime => rfl
  | int found admits =>
    simp only [checkBody, found]
    exact checkInt_eq_ok.2 admits
  | double admits => exact checkDouble_eq_ok.2 admits
  | decimal admits => exact checkDecimal_eq_ok.2 admits
  | string admits => exact checkString_eq_ok.2 admits
  | blob length => exact checkLength_eq_ok.2 length
  | enumValue found member => exact checkEnum_eq_ok.2 (.inr ⟨_, member, found⟩)
  | enumAlias member => exact checkEnum_eq_ok.2 (.inl ⟨_, member, rfl⟩)
  | bitfield found assigned => exact checkBitfield_eq_ok.2 ⟨_, found, assigned⟩
  | list length items =>
    exact checkList_eq_ok.2 ⟨length, fun typeName allowed item mem =>
      parts typeName item (items typeName allowed item mem)⟩
  | tuple arity items =>
    exact checkTuple_eq_ok.2 ⟨arity, fun p mem => parts p.1 p.2 (items p mem)⟩
  | map declared items =>
    exact checkMap_eq_ok.2 fun fields given p mem => ⟨declared fields given p mem,
      fun typeName found => parts typeName p.2 (items fields given p mem typeName found)⟩
  | imap declared items =>
    exact checkIMap_eq_ok.2 fun fields given p mem => ⟨declared fields given p mem,
      fun typeName found => parts typeName p.2 (items fields given p mem typeName found)⟩
  | aliasTo ok => exact parts _ _ ok
  | union mem ok => exact checkUnion_eq_ok.2 ⟨_, mem, parts _ _ ok⟩
  | constant same => rw [checkBody, ite_eq_ok, same]

/-- The check of a body decides validity with one more nested type than the check of its parts. -/
theorem checkBody_eq_ok (parts : ∀ target part, check target part = .ok () ↔ r.Matches n target part)
    {type : TypeDef} {v : Value} :
    checkBody r check name type v = .ok () ↔ r.Accepts (n + 1) type v :=
  ⟨accepts_of_checkBody fun target part => (parts target part).1,
    checkBody_of_accepts fun target part => (parts target part).2⟩

end Body

/-- The check with `n` levels left decides derivations with at most `n` nested types. -/
theorem checkType_eq_ok (r : Registry) (n : Nat) (name : String) (type : TypeDef) (v : Value) :
    checkType r n name type v = .ok () ↔ r.Accepts n type v := by
  induction n generalizing name type v with
  | zero => exact ⟨fun h => absurd h mismatch_ne_ok, nofun⟩
  | succ n ih =>
    rw [checkType]
    refine checkBody_eq_ok fun target part => ?_
    constructor
    · intro h
      split at h
      · rename_i found
        exact .named found ((ih _ _ _).1 h)
      · exact absurd h mismatch_ne_ok
    · rintro ⟨found, accepts⟩
      rw [found]
      exact (ih _ _ _).2 accepts

end Validation

namespace Registry

theorem validate_eq_ok {r : Registry} {name : String} {v : Value} :
    r.validate name v = .ok () ↔ r.Matches Validation.depthLimit name v := by
  rw [validate_eq]
  constructor
  · intro h
    split at h
    · rename_i found
      exact .named found ((Validation.checkType_eq_ok ..).1 h)
    · exact absurd h Validation.mismatch_ne_ok
  · rintro ⟨found, accepts⟩
    rw [found]
    exact (Validation.checkType_eq_ok ..).2 accepts

theorem isValid_iff {r : Registry} {name : String} {v : Value} :
    r.isValid name v = true ↔ r.Matches Validation.depthLimit name v := by
  rw [isValid, isOk_eq_true, validate_eq_ok]

/-- What belongs to a name belongs to the type that the name stands for, and with the levels that
are left there, what belongs to the type belongs to the name. The induction is on the aliases. -/
theorem Matches.through_aliases {r : Registry} {start name : String} {chain : List String}
    {type : TypeDef} {n : Nat} {v : Value} (resolved : r.resolveFrom start chain name = .ok type)
    (h : r.Matches n name v) :
    ∃ m, r.Accepts m type v ∧ ∀ w, r.Accepts m type w → r.Matches n name w := by
  induction n generalizing chain name with
  | zero =>
    obtain ⟨-, accepts⟩ := h
    cases accepts
  | succ n ih =>
    obtain ⟨found, accepts⟩ := h
    obtain ⟨-, ⟨target, bound, next⟩ | ⟨bound, -⟩⟩ := resolveFrom_eq_ok resolved
    · cases found.symm.trans bound
      cases accepts with
      | aliasTo inner =>
        obtain ⟨m, accepts, others⟩ := ih next inner
        exact ⟨m, accepts, fun w inside => .named bound (.aliasTo (others w inside))⟩
    · cases found.symm.trans bound
      exact ⟨n + 1, accepts, fun w inside => .named bound inside⟩

/-- A value is valid for a name exactly when it belongs to the type of that name by a derivation
with at most 64 nested types. -/
theorem validate_ok_iff_matches (r : Registry) (name : String) (v : Value) :
    r.validate name v = .ok () ↔ r.Matches 64 name v :=
  validate_eq_ok

end Registry

end DeviceTree
