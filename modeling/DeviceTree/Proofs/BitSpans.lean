import DeviceTree.Proofs.Bitfields
import DeviceTree.Proofs.SizeBounds

/-!
# Integers inside bitfields

The span of a type is computed from its largest integer, so what has to be seen is that the integers
of the type are not negative and not above that one. `Accepts.fitsBits` says so of the integers that
a type with a span accepts, by cases on the rule; a name accepts what the type that it stands for
does (`Matches.of_resolve`).

The bounds of a range and the bits of a word are never negative, but the integers of an enumeration
may be, and its span looks at the largest only. So spans are wide enough exactly for the types that
stand for no enumeration with a negative integer (`bitSpan_wide_iff`).
-/

namespace DeviceTree

open Loading

/-! ## Words and their fields -/

/-- The word with the low bits of an integer in the field, which has been empty. -/
def BitField.store (f : BitField) (word : UInt64) (k : Int) : UInt64 :=
  word ||| .ofNat ((k % 2 ^ f.width).toNat <<< f.offset)

namespace BitField

variable {f : BitField} {word : UInt64} {k : Int}

theorem testBit_of_extract_eq_zero (empty : f.extract word = 0) {i : Nat} (inside : i < f.width) :
    word.toNat.testBit (f.offset + i) = false := by
  have bit := testBit_extract f word i
  rw [empty, Nat.zero_testBit, decide_eq_true inside, Bool.true_and] at bit
  exact bit.symm

/-- An empty field gives back what is stored in it, if the bits of the field are enough. -/
theorem extract_store (inWord : f.offset + f.width ≤ 64) (empty : f.extract word = 0)
    (natural : 0 ≤ k) (few : k < 2 ^ f.width) : (f.extract (f.store word k) : Int) = k := by
  obtain ⟨n, rfl⟩ := Int.eq_ofNat_of_zero_le natural
  have few : n < 2 ^ f.width := by exact_mod_cast few
  have low : ((n : Int) % 2 ^ f.width).toNat = n := by
    rw [Int.emod_eq_of_lt natural (by exact_mod_cast few), Int.toNat_natCast]
  have fits : n <<< f.offset < 2 ^ 64 := by
    rw [Nat.shiftLeft_eq]
    calc n * 2 ^ f.offset
      _ < 2 ^ f.width * 2 ^ f.offset := Nat.mul_lt_mul_of_pos_right few (Nat.two_pow_pos _)
      _ = 2 ^ (f.offset + f.width) := by rw [← Nat.pow_add, Nat.add_comm]
      _ ≤ 2 ^ 64 := Nat.pow_le_pow_right (by decide) inWord
  have same : f.extract (f.store word n) = n := by
    refine Nat.eq_of_testBit_eq fun i => ?_
    rw [testBit_extract, store, low, UInt64.toNat_or, UInt64.toNat_ofNat_of_lt' fits,
      Nat.testBit_or, Nat.testBit_shiftLeft, Nat.add_sub_cancel_left]
    by_cases inside : i < f.width
    · simp [inside, testBit_of_extract_eq_zero empty inside]
    · have beyond : n < 2 ^ i := few.trans_le (Nat.pow_le_pow_right (by decide) (by omega))
      simp [inside, Nat.testBit_lt_two_pow beyond]
  rw [same]

end BitField

namespace Registry

variable {r : Registry} {name : String} {width : Nat} {k : Int}

/-! ## Integers of a type -/

/-- An integer that belongs to the named type: a valid one, or that of an alias. -/
inductive IntegerOf (r : Registry) (name : String) (k : Int) : Prop
  | valid {v : Value} : v.asInteger? = some k → r.validate name v = .ok () → r.IntegerOf name k
  | aliased {e : Enumeration} {label : String} :
    r.resolve name = .ok (.enum e) → e.value? label = some k → r.IntegerOf name k

/-- The integer takes at most that many bits, so every field of the type keeps it. -/
structure KeepsBits (r : Registry) (name : String) (width : Nat) (k : Int) : Prop where
  natural : 0 ≤ k
  lt : k < 2 ^ width
  kept : ∀ owner b, r.get? owner = some (.bitfield b) → ∀ f ∈ b.fields, f.typeName = name →
    ∀ word, f.extract word = 0 → (f.extract (f.store word k) : Int) = k

/-- A name accepts what the type does that it stands for. -/
theorem Matches.of_resolve {type : TypeDef} {start : String} {chain : List String} {n : Nat}
    {v : Value} (resolved : r.resolveFrom start chain name = .ok type) (h : r.Matches n name v) :
    ∃ m, r.Accepts m type v := by
  obtain ⟨m, accepts, -⟩ := h.through_aliases resolved
  exact ⟨m, accepts⟩

theorem lt_two_pow_bitLength {high : Int} (le : k ≤ high) (natural : 0 ≤ high) :
    k < 2 ^ bitLength high.toNat := by
  have few : high.toNat < 2 ^ bitLength high.toNat := Nat.lt_log2_self
  have few : ((high.toNat : Nat) : Int) < 2 ^ bitLength high.toNat := by exact_mod_cast few
  omega

theorem enum_lt_of_spanOf {e : Enumeration} (span : spanOf (.enum e) = some width)
    (mem : k ∈ e.values.values) : k < 2 ^ width := by
  rw [spanOf] at span
  split at span
  · next largest max =>
    split at span
    · next natural =>
      cases span
      exact lt_two_pow_bitLength ((List.max?_eq_some_iff.1 max).2 k mem) natural
    · contradiction
  · contradiction

theorem int_of_spanOf {range : IntRange} (span : spanOf (.int range) = some width)
    (admits : range.Admits k) : 0 ≤ k ∧ k < 2 ^ width := by
  rw [spanOf] at span
  split at span
  · next low high minimum maximum =>
    split at span
    · next natural =>
      cases span
      have above := admits.minimum low minimum
      exact ⟨natural.1.trans above,
        lt_two_pow_bitLength (admits.maximum high maximum) natural.2⟩
    · contradiction
  · contradiction

theorem bits_lt_of_spanOf {b : BitfieldShape} (span : spanOf (.bitfield b) = some width)
    {bits : Nat} (assigned : ∀ i, bits.testBit i = true → r.Assigns b i) : bits < 2 ^ width := by
  cases span
  refine Nat.lt_pow_two_of_testBit bits fun i beyond => ?_
  by_contra set
  have inside := (assigned i (by simpa using set)).lt_bitSize
  omega

/-- The integers that a type with a span accepts, where the type has no negative alias. -/
theorem Accepts.fitsBits {type : TypeDef} {n : Nat} {v : Value} (span : spanOf type = some width)
    (naturals : ∀ e, type = .enum e → ∀ k ∈ e.values.values, 0 ≤ k)
    (accepts : r.Accepts n type v) (number : v.asInteger? = some k) : 0 ≤ k ∧ k < 2 ^ width := by
  cases accepts with
  | int number' admits =>
    cases number.symm.trans number'
    exact int_of_spanOf span admits
  | enumValue number' mem =>
    cases number.symm.trans number'
    exact ⟨naturals _ rfl k mem, enum_lt_of_spanOf span mem⟩
  | bitfield number' assigned =>
    cases number.symm.trans number'
    have few := bits_lt_of_spanOf span assigned
    exact ⟨Int.natCast_nonneg _, by exact_mod_cast few⟩
  | null | bool | enumAlias => contradiction
  | _ => cases span

/-! ## Spans are wide enough -/

/-- The fields of a type keep the integers that fit its span. -/
theorem Loaded.keepsBits (loaded : r.Loaded) (span : r.bitSpan name = some width)
    (natural : 0 ≤ k) (lt : k < 2 ^ width) : r.KeepsBits name width k := by
  refine ⟨natural, lt, fun owner b found f mem named word empty => ?_⟩
  have laid := loaded.layouts owner b found
  have same := laid.widths f mem
  rw [named, span, Option.some.injEq] at same
  exact BitField.extract_store (laid.inWord f mem) empty natural (same ▸ lt)

/-- In a loaded registry, the span of a name is enough for all integers of the type, and its fields
keep them, exactly when the name does not stand for an enumeration with a negative integer. -/
theorem bitSpan_wide_iff {types : List (String × Json)} (loads : loadTypes types = .ok r)
    (span : r.bitSpan name = some width) :
    (∀ k, r.IntegerOf name k → r.KeepsBits name width k) ↔
      ∀ e, r.resolve name = .ok (.enum e) → ∀ k ∈ e.values.values, 0 ≤ k := by
  obtain ⟨type, resolved, spans⟩ := Option.bind_eq_some_iff.1 span
  have resolved := resolve?_eq_some.1 resolved
  constructor
  · intro wide e enum k mem
    obtain ⟨⟨label, _⟩, held, rfl⟩ := List.mem_map.1 mem
    exact (wide _ (.aliased enum (OrderedMap.get?_eq_some.2 held))).natural
  · intro naturals k integer
    have naturals : ∀ e, type = .enum e → ∀ k ∈ e.values.values, 0 ≤ k := by
      rintro e rfl
      exact naturals e resolved
    suffices 0 ≤ k ∧ k < 2 ^ width from
      (loadTypes_loaded loads).keepsBits span this.1 this.2
    cases integer with
    | valid number valid =>
      obtain ⟨m, accepts⟩ := (validate_eq_ok.1 valid).of_resolve resolved
      exact accepts.fitsBits spans naturals number
    | @aliased e label enum value =>
      cases resolved.symm.trans enum
      have mem : k ∈ e.values.values := List.mem_map.2 ⟨_, OrderedMap.get?_eq_some.1 value, rfl⟩
      exact ⟨naturals _ rfl k mem, enum_lt_of_spanOf spans mem⟩

/-- An enumeration under another name, and a bitfield with a field of that name. -/
def gearTypes (values : List Json) : List (String × Json) :=
  [("gear", .obj [("type", .str "Enum"), ("values", .arr values)]), ("shift", .str "gear"),
    ("car", .obj [("type", .str "Bitfield"), ("types", .arr [.str "Bool", .str "shift"])])]

/-- The gears from zero to three fit two bits, and the field of the car keeps them. -/
theorem gearTypes_wide :
    ∃ r, loadTypes (gearTypes [.str "n", .str "low", .obj [("high", .int 3)]]) = .ok r ∧
      r.bitSpan "shift" = some 2 ∧ ∀ k, r.IntegerOf "shift" k → r.KeepsBits "shift" 2 k := by
  have run : (fun r : Registry => (r.bitSpan "shift", r.resolve? "shift")) <$>
      loadTypes (gearTypes [.str "n", .str "low", .obj [("high", .int 3)]]) =
        .ok (some 2, some (.enum ⟨⟨[("n", 0), ("low", 1), ("high", 3)], by decide⟩⟩)) := by cbv
  obtain ⟨r, loads, shown⟩ := map_eq_ok.1 run
  obtain ⟨span, gears⟩ := Prod.mk.inj shown
  refine ⟨r, loads, span, (bitSpan_wide_iff loads span).2 fun e enum k mem => ?_⟩
  rw [resolve?_eq_some.2 enum] at gears
  cases gears
  have mem : k ∈ [(0 : Int), 1, 3] := mem
  simp only [List.mem_cons, List.not_mem_nil, or_false] at mem
  omega

/-- With a reverse gear of -1 the span is one bit, though -1 is valid. -/
theorem gearTypes_not_wide :
    ∃ r, loadTypes (gearTypes [.obj [("reverse", .int (-1))], .str "n", .str "low"]) = .ok r ∧
      r.bitSpan "shift" = some 1 ∧ r.validate "shift" (.int (-1)) = .ok () ∧
      r.IntegerOf "shift" (-1) ∧ ¬ r.KeepsBits "shift" 1 (-1) := by
  have run : (fun r : Registry => (r.bitSpan "shift", (r.validate "shift" (.int (-1))).isOk)) <$>
      loadTypes (gearTypes [.obj [("reverse", .int (-1))], .str "n", .str "low"]) =
        .ok (some 1, true) := by cbv
  obtain ⟨r, loads, shown⟩ := map_eq_ok.1 run
  obtain ⟨span, valid⟩ := Prod.mk.inj shown
  have valid := isOk_eq_true.1 valid
  exact ⟨r, loads, span, valid, .valid rfl valid, fun keeps => absurd keeps.natural (by decide)⟩

end Registry

end DeviceTree
