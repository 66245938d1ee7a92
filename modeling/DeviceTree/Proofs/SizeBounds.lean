import DeviceTree.Proofs.Completion
import DeviceTree.Proofs.Sizes
import DeviceTree.Proofs.Validity

/-!
# Bounds for the values of types

The estimate of a type bounds the encoded size of its values up to two kinds of leaves. A text is
limited in characters and estimated in bytes, and an enumeration is estimated by its largest value,
although its aliases and negative values are valid too. `TypeDef.Measured` says that the estimate
of a leaf is right all the same.

`bodySize?_atMost` is the bound of one type from the bounds of those it embeds, and
`sizeFrom?_atMost` that of a name, by induction on the nesting of types. `packedSize?_bounds_iff`
says that the estimates hold from a name on exactly when its leaves are measured.
-/

namespace DeviceTree

open Size

/-! ## Leaves that the estimates do not fit -/

/-- No text of the shape has more bytes than the shape allows characters. -/
def StringShape.Measured (shape : StringShape) : Prop :=
  ∀ high, shape.maxLength = some high → ∀ s, shape.Admits s → s.utf8ByteSize ≤ high

/-- What is reserved for the largest value is enough for the aliases and for negative values. -/
structure Enumeration.Measured (e : Enumeration) : Prop where
  aliases : ∀ largest, e.maxValue? = some largest → ∀ label ∈ e.values.keys,
    AtMost (ofText? label) (int? 0 largest true)
  negatives : ∀ largest, e.maxValue? = some largest → ∀ n : Int64, n.toInt < 0 →
    n.toInt ∈ e.values.values → AtMost (ofInt? n.toInt) (int? 0 largest true)

theorem utf8ByteSize_replicate (n : Nat) (c : Char) :
    (String.ofList (List.replicate n c)).utf8ByteSize = n * c.utf8Size := by
  induction n with
  | zero => simp
  | succ n ih =>
    rw [List.replicate_succ, String.ofList_cons, String.utf8ByteSize_append,
      String.utf8ByteSize_singleton, ih, Nat.succ_mul, Nat.add_comm]

/-- A shape that asks for nothing but lengths is measured only if its texts are empty: a text of
letters that take two bytes is as long as any. -/
theorem StringShape.measured_iff {shape : StringShape} {high : Nat} (pattern : shape.pattern = none)
    (maximum : shape.maxLength = some high)
    (order : ∀ low, shape.minLength = some low → low ≤ high) : shape.Measured ↔ high = 0 := by
  constructor
  · intro measured
    have fits := measured high maximum (String.ofList (List.replicate high 'é'))
      { length :=
          { minimum := fun low minimum => by simpa using order low minimum
            maximum := fun high' maximum' => by
              cases maximum.symm.trans maximum'
              simp }
        pattern := by simp [pattern] }
    rw [utf8ByteSize_replicate, show 'é'.utf8Size = 2 by decide] at fits
    omega
  · rintro rfl high' maximum' s admits
    cases maximum.symm.trans maximum'
    have empty := admits.length.maximum 0 maximum
    rw [String.length_eq_zero_iff.1 (Nat.le_zero.1 empty)]
    exact Nat.le_refl _

/-- An enumeration whose values are estimated by one byte is not measured, unless it is empty: no
alias takes less than two. -/
theorem Enumeration.not_measured {e : Enumeration} {largest : Int}
    (max : e.maxValue? = some largest) (small : largest < 64) : ¬ e.Measured := by
  intro measured
  have member := (List.max?_eq_some_iff.1 max).1
  obtain ⟨⟨label, value⟩, mem, -⟩ := List.mem_map.1 member
  obtain ⟨m, size, le⟩ := measured.aliases largest max label (List.mem_map_of_mem mem) 1
    (by simp [int?, small])
  obtain ⟨length, found, rfl⟩ := sequence?_eq_some.1 size
  have := one_le_of_int? found
  omega

namespace TypeDef

/-- The estimate of the type is right where it does not depend on other types. -/
def Measured : TypeDef → Prop
  | .string shape => shape.Measured
  | .enum e => e.Measured
  | _ => True

end TypeDef

/-! ## Types without parts -/

namespace Registry

variable {r : Registry} {size : String → Option Nat} {n : Nat} {v : Value}

theorem int_atMost {range : IntRange} {k : Int} (h : range.Admits k) :
    AtMost (ofInt? k) (bodySize? size (.int range)) := by
  rw [bodySize?]
  split
  · next low high minimum maximum =>
    exact ofInt?_atMost (h.minimum low minimum) (h.maximum high maximum) h.unsigned
  · exact atMost_none

theorem sequence_atMost {minimum maximum : Option Nat} {bytes : Nat}
    (few : ∀ high, maximum = some high → bytes ≤ high) :
    AtMost (sequence? bytes bytes) (maximum.bind (sequence? (minimum.getD 0))) := by
  cases maximum with
  | none => exact atMost_none
  | some high => exact sequence?_mono (Nat.le_refl _) (few high rfl)

theorem enumValue_atMost {e : Enumeration} {k : Int} (measured : e.Measured)
    (found : v.asInteger? = some k) (member : k ∈ e.values.values) :
    AtMost v.encodedSize? (bodySize? size (.enum e)) := by
  rw [Value.encodedSize?_of_asInteger? found, bodySize?]
  cases largest : e.maxValue? with
  | none => exact atMost_none
  | some n =>
    by_cases sign : 0 ≤ k
    · exact ofInt?_atMost sign ((List.max?_eq_some_iff.1 largest).2 k member) fun _ => sign
    · cases v with
      | int n =>
        cases found
        exact measured.negatives _ largest n (by omega) member
      | uint n =>
        cases found
        omega
      | _ => contradiction

theorem enumAlias_atMost {e : Enumeration} {label : String} (measured : e.Measured)
    (member : label ∈ e.values.keys) :
    AtMost (Value.string label).encodedSize? (bodySize? size (.enum e)) := by
  rw [Value.encodedSize?, bodySize?]
  cases largest : e.maxValue? with
  | none => exact atMost_none
  | some n => exact measured.aliases _ largest label member

/-- Fields end within the bits that are counted. -/
theorem Assigns.lt_bitSize {b : BitfieldShape} {i : Nat} (h : r.Assigns b i) : i < b.bitSize := by
  obtain ⟨f, mem, covers, -⟩ := h
  have mem : f.offset + f.width ∈ b.fields.map fun f => f.offset + f.width :=
    List.mem_map_of_mem mem
  obtain ⟨last, found⟩ := Option.isSome_iff_exists.1 (List.isSome_max?_of_mem mem)
  have := (List.max?_eq_some_iff.1 found).2 _ mem
  simp only [BitField.covers, Bool.and_eq_true, decide_eq_true_eq] at covers
  rw [BitfieldShape.bitSize, found, Option.getD_some]
  omega

theorem bitfield_atMost {b : BitfieldShape} {bits : Nat} (found : v.asInteger? = some (bits : Int))
    (assigned : ∀ i, bits.testBit i = true → r.Assigns b i) :
    AtMost v.encodedSize? (bodySize? size (.bitfield b)) := by
  have word : bits < 2 ^ 64 := by exact_mod_cast Validation.asInteger?_lt found
  have small : bits < 2 ^ min b.bitSize 64 := by
    refine Nat.lt_pow_two_of_testBit _ fun i large => ?_
    rw [← Bool.not_eq_true]
    intro set
    have inside := (assigned i set).lt_bitSize
    have := Validation.lt_of_testBit word set
    omega
  rw [Value.encodedSize?_of_asInteger? found, bodySize?, Nat.one_shiftLeft]
  exact ofInt?_atMost (by omega) (by omega) fun _ => by omega

/-! ## Types with parts -/

/-- The sizes bound the values of the types that a type embeds, where these match with at most `n`
nested types. -/
def PartsBounded (r : Registry) (size : String → Option Nat) (n : Nat) (type : TypeDef) : Prop :=
  ∀ target ∈ type.embedded, ∀ part, r.Matches n target part → part.Keyed →
    AtMost part.encodedSize? (size target)

theorem list_atMost {shape : ListShape} {items : List Value}
    (parts : r.PartsBounded size n (.list shape)) (keyed : (Value.list items).Keyed)
    (length : LengthWithin (some shape.minLength) shape.maxLength items.length)
    (each : ∀ typeName ∈ shape.allowed, ∀ item ∈ items, r.Matches n typeName item) :
    AtMost (Value.list items).encodedSize? (bodySize? size (.list shape)) := by
  obtain ⟨-, keyed⟩ := keyed
  rw [Value.encodedSize?, Value.itemsSize?_eq, bodySize?]
  split
  · next none =>
    have := length.maximum 0 none
    rw [List.eq_nil_of_length_eq_zero (Nat.le_zero.1 this)]
    exact .refl _
  · next count allowed _ most given =>
    cases bound : size allowed with
    | none => exact atMost_none
    | some n =>
      have items : AtMost (sumSizes? (items.map Value.encodedSize?)) (some (count * n)) := by
        refine sumSizes?_atMost_mul ?_ ?_
        · rw [List.length_map]
          exact length.maximum count most
        · intro _ mem
          obtain ⟨item, inside, rfl⟩ := List.mem_map.1 mem
          rw [← bound]
          exact parts _ (Option.mem_toList.2 given) _ (each _ given item inside) (keyed item inside)
      exact (AtMost.refl (some framing)).plus items
  · exact atMost_none

theorem tuple_atMost {shape : TupleShape} {items : List Value}
    (parts : r.PartsBounded size n (.tuple shape)) (keyed : (Value.list items).Keyed)
    (arity : items.length = shape.items.length)
    (each : ∀ p ∈ shape.items.zip items, r.Matches n p.1 p.2) :
    AtMost (Value.list items).encodedSize? (bodySize? size (.tuple shape)) := by
  obtain ⟨-, keyed⟩ := keyed
  rw [Value.encodedSize?, Value.itemsSize?_eq, bodySize?]
  refine (AtMost.refl _).plus (sumSizes?_atMost_of_zip arity fun p mem => ?_)
  obtain ⟨declared, inside⟩ := List.of_mem_zip mem
  exact parts _ declared _ (each p mem) (keyed _ inside)

theorem map_atMost {shape : MapShape} {entries : List (String × Value)}
    (parts : r.PartsBounded size n (.map shape)) (keyed : (Value.map entries).Keyed)
    (declared : ∀ fields ∈ shape.fields, ∀ p ∈ entries, (fields.get? p.1).isSome = true)
    (each : ∀ fields ∈ shape.fields, ∀ p ∈ entries, ∀ typeName ∈ fields.get? p.1,
      r.Matches n typeName p.2) :
    AtMost (Value.map entries).encodedSize? (bodySize? size (.map shape)) := by
  obtain ⟨distinct, keyed⟩ := keyed
  rw [Value.encodedSize?, Value.entriesSize?_eq, bodySize?]
  cases given : shape.fields with
  | none => exact atMost_none
  | some fields =>
    refine (AtMost.refl _).plus
      (sumSizes?_atMost_of_keys ofText? Value.encodedSize? size distinct fun p mem => ?_)
    obtain ⟨typeName, found⟩ := Option.isSome_iff_exists.1 (declared fields given p mem)
    have field := OrderedMap.get?_eq_some.1 found
    exact ⟨typeName, field, parts _ (TypeDef.mem_embedded_map given found) _
      (each fields given p mem typeName found) (keyed _ (List.mem_map_of_mem mem))⟩

theorem imap_atMost {shape : IMapShape} {entries : List (Int × Value)}
    (parts : r.PartsBounded size n (.imap shape)) (keyed : (Value.imap entries).Keyed)
    (declared : ∀ fields ∈ shape.fields, ∀ p ∈ entries, (fields.get? p.1).isSome = true)
    (each : ∀ fields ∈ shape.fields, ∀ p ∈ entries, ∀ typeName ∈ fields.get? p.1,
      r.Matches n typeName p.2) :
    AtMost (Value.imap entries).encodedSize? (bodySize? size (.imap shape)) := by
  obtain ⟨ascending, keyed⟩ := keyed
  rw [Value.encodedSize?, Value.pairsSize?_eq, bodySize?]
  cases given : shape.fields with
  | none => exact atMost_none
  | some fields =>
    refine (AtMost.refl _).plus (sumSizes?_atMost_of_keys ofInt? Value.encodedSize? size
      (ascending.imp Int.ne_of_lt) fun p mem => ?_)
    obtain ⟨typeName, found⟩ := Option.isSome_iff_exists.1 (declared fields given p mem)
    have field := SortedMap.mem_of_get? found
    exact ⟨typeName, field, parts _ (TypeDef.mem_embedded_imap given found) _
      (each fields given p mem typeName found) (keyed _ (List.mem_map_of_mem mem))⟩

/-- The estimate of a type bounds its values, if the sizes it is computed from bound their parts. -/
theorem bodySize?_atMost {type : TypeDef} (parts : r.PartsBounded size n type)
    (measured : type.Measured) (plain : ∀ c, type = .constant c → c.Plain)
    (accepts : r.Accepts (n + 1) type v) (keyed : v.Keyed) :
    AtMost v.encodedSize? (bodySize? size type) := by
  cases accepts with
  | any | decimal => exact atMost_none
  | null | bool | dateTime | double => exact .refl _
  | int found admits =>
    rw [Value.encodedSize?_of_asInteger? found]
    exact int_atMost admits
  | string admits =>
    exact sequence_atMost fun high maximum => measured high maximum _ admits
  | blob length => exact sequence_atMost length.maximum
  | enumValue found member => exact enumValue_atMost measured found member
  | enumAlias member => exact enumAlias_atMost measured member
  | bitfield found assigned => exact bitfield_atMost found assigned
  | list length items => exact list_atMost parts keyed length items
  | tuple arity items => exact tuple_atMost parts keyed arity items
  | map declared items => exact map_atMost parts keyed declared items
  | imap declared items => exact imap_atMost parts keyed declared items
  | aliasTo matched => exact parts _ (List.mem_singleton_self _) _ matched keyed
  | union mem matched =>
    exact (parts _ mem _ matched keyed).trans (atMost_maxSize? _ (List.mem_map_of_mem mem))
  | constant same => exact (plain _ rfl).atMost_of_same keyed same

/-! ## Names -/

theorem packedSize?_eq {name : String} {type : TypeDef} (found : r.get? name = some type) :
    r.packedSize? name = bodySize? (fun target => r.sizeFrom? [name] target) type :=
  sizeFrom?_eq found List.not_mem_nil

/-- A type that has an estimate on some path is measured, if it is when it has one of its own. -/
theorem measured_of_bodySize? {name : String} {type : TypeDef} {m : Nat}
    (found : r.get? name = some type)
    (measured : ∀ n, r.packedSize? name = some n → type.Measured)
    (bound : bodySize? size type = some m) : type.Measured := by
  rw [packedSize?_eq found] at measured
  cases type with
  | string | enum => exact measured m bound
  | _ => trivial

/-- The estimate of a name bounds its values, if the leaves that its type embeds are measured. -/
theorem sizeFrom?_atMost (plain : ∀ name c, r.get? name = some (.constant c) → c.Plain)
    {path : List String} {name : String}
    (measured : ∀ target type n, Relation.ReflTransGen r.Embeds name target →
      r.get? target = some type → r.packedSize? target = some n → type.Measured)
    (matched : r.Matches n name v) (keyed : v.Keyed) :
    AtMost v.encodedSize? (r.sizeFrom? path name) := by
  induction n generalizing path name v with
  | zero =>
    obtain ⟨-, accepts⟩ := matched
    cases accepts
  | succ n ih =>
    obtain ⟨found, accepts⟩ := matched
    rw [sizeFrom?]
    split
    · exact atMost_none
    · split
      · exact atMost_none
      · next type bound =>
        cases found.symm.trans bound
        intro m size
        have leaf := measured_of_bodySize? found (fun n => measured _ _ n .refl found) size
        refine bodySize?_atMost ?_ leaf ?_ accepts keyed m size
        · intro target embedded part matched keyed
          refine ih (fun reached type' n steps => measured reached type' n ?_) matched keyed
          exact steps.head ⟨_, found, embedded⟩
        · rintro c rfl
          exact plain _ _ found

/-! ## What the bound says of leaves -/

/-- The estimate of the name is an upper bound for the encoded size of all its valid values. -/
def Bounds (r : Registry) (name : String) : Prop :=
  ∀ n, r.packedSize? name = some n → ∀ v : Value, v.Keyed → r.validate name v = .ok () →
    ∃ m, v.encodedSize? = some m ∧ m ≤ n

/-- A valid value without parts takes no more than the estimate. -/
theorem Bounds.le_of_accepts {name : String} {type : TypeDef} (h : r.Bounds name)
    (found : r.get? name = some type) {n : Nat} (bound : r.packedSize? name = some n)
    (accepts : r.Accepts Validation.depthLimit type v) (keyed : v.Keyed) :
    ∃ m, v.encodedSize? = some m ∧ m ≤ n :=
  h n bound v keyed (validate_eq_ok.2 (.named found accepts))

theorem Bounds.measured {name : String} {type : TypeDef} (h : r.Bounds name)
    (found : r.get? name = some type) {n : Nat} (bound : r.packedSize? name = some n) :
    type.Measured := by
  have estimate := packedSize?_eq found ▸ bound
  cases type with
  | string shape =>
    intro high maximum s admits
    obtain ⟨m, size, le⟩ := h.le_of_accepts found bound (.string admits) (.of_no_parts trivial rfl)
    rw [bodySize?, maximum] at estimate
    refine le_of_sequence?_le ?_ size estimate le
    have most := admits.length.maximum high maximum
    cases minimum : shape.minLength with
    | none => exact Nat.zero_le _
    | some low => exact Nat.le_trans (admits.length.minimum low minimum) most
  | enum e =>
    rw [bodySize?] at estimate
    constructor
    · intro largest max label member m reserved
      rw [max, Option.bind_some, reserved] at estimate
      cases estimate
      exact h.le_of_accepts found bound (.enumAlias member) (.of_no_parts trivial rfl)
    · intro largest max n negative member m reserved
      rw [max, Option.bind_some, reserved] at estimate
      cases estimate
      exact h.le_of_accepts (v := .int n) found bound (.enumValue rfl member)
        (.of_no_parts trivial rfl)
  | _ => trivial

/-! ## Loaded registries -/

/-- Constants of loaded registries are plain data. -/
theorem Loaded.plain (loaded : r.Loaded) {name : String} {c : Value}
    (found : r.get? name = some (.constant c)) : c.Plain := by
  obtain ⟨⟨type, origin⟩, entry, rfl⟩ := Option.map_eq_some_iff.1 found
  by_cases custom : origin = .custom
  · subst custom
    obtain ⟨spec, rfl⟩ := loaded.specified name _ entry
    exact Value.ofJson_plain spec
  · have none : ∀ p ∈ Registry.fresh.entries.entries, p.2.type.kind ≠ "Constant" := by decide
    have fresh := (loaded.core name ⟨_, origin⟩ custom).1 entry
    exact absurd rfl (none _ (OrderedMap.get?_eq_some.1 fresh))

/-- The estimates hold for a name and for all whose values can be inside its values, exactly when
every text and every enumeration among them that has an estimate is measured. -/
theorem packedSize?_bounds_iff {types : List (String × Json)} {r : Registry}
    (loads : Loading.loadTypes types = .ok r) (name : String) :
    (∀ target, Relation.ReflTransGen r.Embeds name target → r.Bounds target) ↔
      ∀ target type n, Relation.ReflTransGen r.Embeds name target → r.get? target = some type →
        r.packedSize? target = some n → type.Measured := by
  constructor
  · intro bounds target type n reached found bound
    exact (bounds target reached).measured found bound
  · intro measured target reached n bound v keyed valid
    refine sizeFrom?_atMost (fun _ _ => (Loading.loadTypes_loaded loads).plain)
      (fun target' type n steps => measured target' type n (reached.trans steps))
      (validate_eq_ok.1 valid) keyed n bound

/-- A list of up to four blocks of up to eight bytes. -/
def bufferTypes : List (String × Json) :=
  [("block", .obj [("type", .str "Blob"), ("maxLength", .int 8)]),
    ("buffer", .obj [("type", .str "List"), ("allowed", .str "block"), ("maxlen", .int 4)])]

/-- The types of the buffer load, and no text or enumeration is among them. -/
theorem bufferTypes_bounds :
    ∃ r, Loading.loadTypes bufferTypes = .ok r ∧ r.packedSize? "buffer" = some 42 ∧
      r.Bounds "buffer" ∧ r.Bounds "block" := by
  have run : (Loading.loadTypes bufferTypes).toOption.map
      (fun r => (r.get? "buffer", r.get? "block", r.packedSize? "buffer")) =
        some (some (.list { allowed := some "block", maxLength := some 4 }),
          some (.blob { maxLength := some 8 }), some 42) := by cbv
  rcases loads : Loading.loadTypes bufferTypes with e | r
  · rw [loads] at run
    contradiction
  rw [loads] at run
  have run := Option.some.inj run
  simp only [Prod.mk.injEq] at run
  obtain ⟨buffer, block, size⟩ := run
  have bounds := (packedSize?_bounds_iff loads "buffer").2 ?_
  · refine ⟨r, rfl, size, bounds _ .refl, bounds _ (.single ⟨_, buffer, ?_⟩)⟩
    exact List.mem_singleton_self _
  · intro target type _ reached found _
    rcases reached.cases_head with rfl | ⟨_, ⟨_, found', embedded⟩, rest⟩
    · cases buffer.symm.trans found
      trivial
    cases buffer.symm.trans found'
    cases List.mem_singleton.1 embedded
    rcases rest.cases_head with rfl | ⟨_, ⟨_, found', embedded⟩, _⟩
    · cases block.symm.trans found
      trivial
    cases block.symm.trans found'
    contradiction

/-- Texts of at most one character. -/
def letterTypes : List (String × Json) :=
  [("letter", .obj [("type", .str "String"), ("maxLength", .int 1)])]

/-- Three bytes are estimated for a letter, of which there are some that take four. -/
theorem letterTypes_not_bounds :
    ∃ r, Loading.loadTypes letterTypes = .ok r ∧ r.packedSize? "letter" = some 3 ∧
      r.validate "letter" (.string "é") = .ok () ∧ (Value.string "é").encodedSize? = some 4 ∧
      ¬ r.Bounds "letter" := by
  have run : (Loading.loadTypes letterTypes).toOption.map
      (fun r => (r.packedSize? "letter", (r.validate "letter" (.string "é")).isOk)) =
        some (some 3, true) := by cbv
  rcases loads : Loading.loadTypes letterTypes with e | r
  · rw [loads] at run
    contradiction
  rw [loads] at run
  have run := Option.some.inj run
  simp only [Prod.mk.injEq] at run
  obtain ⟨estimate, valid⟩ := run
  have valid := isOk_eq_true.1 valid
  have size : (Value.string "é").encodedSize? = some 4 := by decide
  refine ⟨r, rfl, estimate, valid, size, fun bounds => ?_⟩
  obtain ⟨m, size', le⟩ := bounds 3 estimate (.string "é") (.of_no_parts trivial rfl) valid
  cases size.symm.trans size'
  contradiction

end Registry

end DeviceTree
