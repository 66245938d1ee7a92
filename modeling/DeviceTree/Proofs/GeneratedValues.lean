import DeviceTree.Proofs.Draws
import DeviceTree.Proofs.Nesting
import DeviceTree.Proofs.SizeBounds

/-!
# Values that are generated

A generated value is valid for its type. It is so by the derivation that follows the levels of the
generator (`atLevel_gives`): the generator picks for each kind of type what the rule for that kind
admits, and enters fewer types than the checker.

There is one exception. An integer is drawn without regard to what a value can hold, and then cut
to 64 bits, which can lead out of the range that it was drawn for. `TypeDef.Fits` says that it does
not, and `generate_valid_iff` that valid values are generated exactly where this is so.
-/

namespace DeviceTree

open Generation

/-! ## Constants -/

/-- No double in the value is NaN. -/
@[mk_iff]
inductive Value.HasNoNaN : Value → Prop
  | intro {v : Value} : (∀ x, v = .double x → x ≠ Float.nan) → (∀ part ∈ v.parts, part.HasNoNaN) →
    v.HasNoNaN

theorem Value.sameItems_self {items : List Value} :
    sameItems items items = true ↔ ∀ item ∈ items, item.same item = true := by
  induction items with
  | nil => simp [sameItems]
  | cons item rest ih => rw [sameItems, Bool.and_eq_true, ih, List.forall_mem_cons]

theorem Value.allBound_self {entries : List (String × Value)}
    (distinct : (entries.map Prod.fst).Nodup) :
    allBound entries entries = true ↔ ∀ p ∈ entries, p.2.same p.2 = true := by
  rw [allBound_iff]
  refine forall₂_congr fun p mem => ?_
  rw [(lookup_eq_some_iff_mem distinct).2 mem]
  simp

/-- Plain data equals itself unless there is NaN in it. -/
theorem Value.Plain.same_self {c : Value} (h : c.Plain) : c.same c = true ↔ c.HasNoNaN := by
  induction h with
  | null | bool | int | uint | string | double =>
    rw [hasNoNaN_iff]
    simp [Value.same, Value.parts]
  | @list items _ ih =>
    rw [hasNoNaN_iff, Value.same, sameItems_self, forall₂_congr ih]
    simp [Value.parts]
  | @map entries distinct _ ih =>
    rw [hasNoNaN_iff, Value.same, beq_self_eq_true, Bool.true_and, allBound_self distinct,
      forall₂_congr ih]
    simp only [Value.parts, List.forall_mem_map, reduceCtorEq, false_implies, implies_true,
      true_and]

/-! ## What loading checks -/

namespace TypeDef

/-- No bound of the type is beyond its other one. -/
def Consistent : TypeDef → Prop
  | .int range => range.Consistent
  | .decimal range => ∀ low ∈ range.minimum, ∀ high ∈ range.maximum, ¬ high < low
  | .string shape => ∀ low ∈ shape.minLength, ∀ high ∈ shape.maxLength, low ≤ high
  | .blob shape => ∀ low ∈ shape.minLength, ∀ high ∈ shape.maxLength, low ≤ high
  | .list shape => ∀ high ∈ shape.maxLength, shape.minLength ≤ high
  | _ => True

/-- What is drawn for the type is still in it when it has become a value. -/
def Fits : TypeDef → Prop
  | .int range => ∀ n, range.Draws n → range.Admits (cut n)
  | .enum e => ∀ n ∈ e.values.values, cut n ∈ e.values.values
  | .constant c => c.HasNoNaN
  | _ => True

/-- Ranges from which only integers of 64 bits are drawn. -/
theorem fits_int {range : IntRange} (consistent : range.Consistent)
    (low : -0x8000000000000000 ≤ (integerBounds range).1)
    (high : (integerBounds range).2 ≤ 0xFFFFFFFFFFFFFFFF) : (int range).Fits := by
  intro n drawn
  rw [cut_of_word (low.trans drawn.low) (drawn.high.trans high)]
  exact drawn.admits consistent

end TypeDef

namespace Loading

variable {l : Location} {attrs : Attributes}

theorem checkOrder_eq_ok {α : Type} {above : α → α → Bool} {minimum maximum : Option α}
    (h : checkOrder above l minimum maximum = .ok ()) :
    ∀ low ∈ minimum, ∀ high ∈ maximum, above low high = false := by
  rintro low ⟨⟩ high ⟨⟩
  rw [checkOrder] at h
  split at h
  · contradiction
  · next below => exact Bool.eq_false_iff.2 below

/-- What the checks on an integer type leave. -/
theorem intType_checked {range : IntRange} (h : intType l attrs = .ok range) :
    (range.unsigned = true →
      (∀ low ∈ range.minimum, 0 ≤ low) ∧ ∀ high ∈ range.maximum, 0 ≤ high) ∧
    (∀ unit ∈ range.multipleOf, 0 < unit) ∧
    ∀ low ∈ range.minimum, ∀ high ∈ range.maximum, low ≤ high := by
  obtain ⟨minimum, -, h⟩ := bind_eq_ok.1 h
  obtain ⟨maximum, -, h⟩ := bind_eq_ok.1 h
  obtain ⟨multipleOf, -, h⟩ := bind_eq_ok.1 h
  obtain ⟨unsigned, -, h⟩ := bind_eq_ok.1 h
  dsimp only at h
  split at h
  · obtain ⟨_, thrown, -⟩ := bind_eq_ok.1 h
    contradiction
  · next sign =>
    split at h
    · obtain ⟨_, thrown, -⟩ := bind_eq_ok.1 h
      contradiction
    · next positive =>
      obtain ⟨_, ordered, h⟩ := bind_eq_ok.1 h
      cases h
      simp only [Option.any_eq_true, Bool.and_eq_true, Bool.or_eq_true, decide_eq_true_eq,
        not_exists, not_and, not_or, Int.not_lt, Int.not_le] at sign positive
      exact ⟨sign, positive, by simpa using checkOrder_eq_ok ordered⟩

theorem intType_consistent {range : IntRange} (h : intType l attrs = .ok range) :
    range.Consistent := by
  obtain ⟨sign, positive, -⟩ := intType_checked h
  exact ⟨fun unsigned => (sign unsigned).1, positive⟩

theorem decimalType_order {range : DecimalRange} (h : decimalType l attrs = .ok range) :
    ∀ low ∈ range.minimum, ∀ high ∈ range.maximum, ¬ high < low := by
  obtain ⟨minimum, -, h⟩ := bind_eq_ok.1 h
  obtain ⟨maximum, -, h⟩ := bind_eq_ok.1 h
  obtain ⟨_, ordered, h⟩ := bind_eq_ok.1 h
  cases h
  simpa using checkOrder_eq_ok ordered

theorem lengthBounds_order {minimum maximum : Option Nat}
    (h : lengthBounds l attrs = .ok (minimum, maximum)) :
    ∀ low ∈ minimum, ∀ high ∈ maximum, low ≤ high := by
  obtain ⟨length, -, h⟩ := bind_eq_ok.1 h
  obtain ⟨minLength, -, h⟩ := bind_eq_ok.1 h
  obtain ⟨maxLength, -, h⟩ := bind_eq_ok.1 h
  obtain ⟨_, ordered, h⟩ := bind_eq_ok.1 h
  cases h
  simpa using checkOrder_eq_ok ordered

theorem Specified.consistent {type : TypeDef} (h : Specified type) : type.Consistent := by
  cases type with
  | int range =>
    obtain ⟨l, attrs, read⟩ := h
    exact intType_consistent read
  | decimal range =>
    obtain ⟨l, attrs, read⟩ := h
    exact decimalType_order read
  | string shape =>
    obtain ⟨l, attrs, read⟩ := h
    obtain ⟨⟨minimum, maximum⟩, bounds, read⟩ := bind_eq_ok.1 read
    obtain ⟨pattern, -, read⟩ := bind_eq_ok.1 read
    have order := lengthBounds_order bounds
    cases pattern with
    | none =>
      cases read
      exact order
    | some source =>
      dsimp only at read
      split at read
      · cases read
        exact order
      · contradiction
  | blob shape =>
    obtain ⟨l, attrs, read⟩ := h
    obtain ⟨⟨minimum, maximum⟩, bounds, read⟩ := bind_eq_ok.1 read
    cases read
    exact lengthBounds_order bounds
  | list shape => exact h
  | _ => trivial

end Loading

theorem consistent_of_mem_builtin :
    ∀ p ∈ Registry.coreTypes ++ Registry.builtinTypes, p.2.Consistent := by
  simp [Registry.coreTypes, Registry.builtinTypes, IntRange.between, TypeDef.Consistent,
    IntRange.consistent_iff]

/-- The types of a loaded registry come from specifications or are built in. -/
theorem Registry.Loaded.specified_or_builtin {r : Registry} (loaded : r.Loaded) {name : String}
    {type : TypeDef} (found : r.get? name = some type) :
    Loading.Specified type ∨ (name, type) ∈ Registry.coreTypes ++ Registry.builtinTypes := by
  obtain ⟨⟨type, origin⟩, entry, rfl⟩ := Option.map_eq_some_iff.1 found
  by_cases custom : origin = .custom
  · subst custom
    exact .inl (loaded.specified name _ entry)
  · have fresh := OrderedMap.get?_eq_some.1 ((loaded.core name ⟨_, origin⟩ custom).1 entry)
    right
    rcases List.mem_append.1 (mem_mergeEntries fresh) with mem | mem
    · obtain ⟨p, inside, ⟨⟩⟩ := List.mem_map.1 mem
      exact List.mem_append_left _ inside
    · obtain ⟨p, inside, ⟨⟩⟩ := List.mem_map.1 mem
      exact List.mem_append_right _ inside

theorem Registry.Loaded.consistent {r : Registry} (loaded : r.Loaded) {name : String}
    {type : TypeDef} (found : r.get? name = some type) : type.Consistent := by
  rcases loaded.specified_or_builtin found with specified | builtin
  · exact specified.consistent
  · exact consistent_of_mem_builtin _ builtin

/-! ## Values with parts -/

namespace Generation

variable {σ : Type} {r : Registry} {source : Source σ} {value : String → GenM σ Value} {n : Nat}

theorem positions_gives {items : List String}
    (parts : ∀ target ∈ items, Gives (value target) (r.Matches n target)) :
    Gives (items.mapM value) fun values =>
      values.length = items.length ∧ ∀ p ∈ items.zip values, r.Matches n p.1 p.2 := by
  induction items with
  | nil => exact .pure ⟨rfl, by simp⟩
  | cons target rest ih =>
    rw [List.forall_mem_cons] at parts
    rw [List.mapM_cons]
    refine parts.1.bind fun v here => (ih parts.2).bind fun values later => .pure ⟨?_, ?_⟩
    · rw [List.length_cons, List.length_cons, later.1]
    · rw [List.zip_cons_cons]
      exact List.forall_mem_cons.2 ⟨here, later.2⟩

/-- Each key is declared, and has a value of the type that it is declared with. -/
theorem keyed_gives {κ : Type} {fields : List (κ × String)} {get : κ → Option String}
    (declared : ∀ p ∈ fields, get p.1 = some p.2)
    (parts : ∀ p ∈ fields, Gives (value p.2) (r.Matches n p.2)) :
    Gives (keyed value fields) fun entries =>
      (∀ p ∈ entries, (get p.1).isSome = true) ∧
        ∀ p ∈ entries, ∀ typeName ∈ get p.1, r.Matches n typeName p.2 := by
  induction fields with
  | nil => exact .pure ⟨List.forall_mem_nil _, List.forall_mem_nil _⟩
  | cons field rest ih =>
    rw [List.forall_mem_cons] at declared parts
    refine parts.1.bind fun v here => (ih declared.2 parts.2).bind fun entries later => .pure ?_
    constructor
    · refine List.forall_mem_cons.2 ⟨?_, later.1⟩
      rw [declared.1, Option.isSome_some]
    · refine List.forall_mem_cons.2 ⟨fun typeName found => ?_, later.2⟩
      cases declared.1.symm.trans found
      exact here

theorem firstOf_gives {members : List String} {last : GenerateError}
    (parts : ∀ member ∈ members, Gives (value member) (r.Matches n member)) :
    Gives (firstOf value last members) fun v => ∃ member ∈ members, r.Matches n member v := by
  induction members generalizing last with
  | nil => exact .throw
  | cons member rest ih =>
    rw [List.forall_mem_cons] at parts
    refine .tryCatch (parts.1.mono fun v here => ⟨member, List.mem_cons_self .., here⟩) fun e => ?_
    exact (ih parts.2).mono fun v ⟨other, mem, later⟩ => ⟨other, List.mem_cons_of_mem _ mem, later⟩

theorem covers_of_testBit {f : BitField} {raw i : Nat}
    (set : ((raw % (1 <<< min f.width 64)) <<< f.offset).testBit i = true) :
    f.covers i = true := by
  rw [Nat.one_shiftLeft, Nat.testBit_shiftLeft, Nat.testBit_mod_two_pow] at set
  simp only [Bool.and_eq_true, decide_eq_true_eq] at set
  simp only [BitField.covers, Bool.and_eq_true, decide_eq_true_eq]
  omega

/-- The bits that are set lie in fields whose type does not stand for null. -/
theorem packFields_gives {fields : List BitField}
    (nulls : ∀ target, r.resolve? target = some .null → Gives (value target) (· = .null)) :
    Gives (packFields value fields) fun bits => ∀ i, bits.testBit i = true →
      ∃ f ∈ fields, f.covers i = true ∧ r.resolve? f.typeName ≠ some .null := by
  induction fields with
  | nil => exact .pure (by simp)
  | cons f rest ih =>
    have here : Gives (value f.typeName) fun v =>
        r.resolve? f.typeName = some .null → v = .null := by
      by_cases null : r.resolve? f.typeName = some .null
      · exact (nulls _ null).mono fun v same _ => same
      · exact fun w v w' _ null' => absurd null' null
    refine here.bind fun v null => ih.bind fun bits later => .pure fun i set => ?_
    rw [Nat.testBit_or, Bool.or_eq_true] at set
    rcases set with set | set
    · refine ⟨f, List.mem_cons_self .., covers_of_testBit set, fun same => ?_⟩
      rw [null same] at set
      simp [rawBits] at set
    · obtain ⟨g, mem, assigned⟩ := later i set
      exact ⟨g, List.mem_cons_of_mem _ mem, assigned⟩

/-- A word with all its bits in the fields has 64 bits. -/
theorem lt_of_covered {b : BitfieldShape} (laidOut : r.LaidOut b) {bits : Nat}
    (covered : ∀ i, bits.testBit i = true → r.Assigns b i) : bits < 2 ^ 64 := by
  refine Nat.lt_pow_two_of_testBit bits fun i beyond => ?_
  by_contra set
  obtain ⟨f, mem, covers, -⟩ := covered i (by simpa using set)
  have inWord := laidOut.inWord f mem
  simp only [BitField.covers, Bool.and_eq_true, decide_eq_true_eq] at covers
  omega

/-! ## Generated values are accepted -/

/-- What is known of the types of a registry that hold values to generate. -/
structure Generable (r : Registry) (type : TypeDef) : Prop where
  consistent : type.Consistent
  fits : type.Fits
  layout : ∀ b, type = .bitfield b → r.LaidOut b
  plain : ∀ c, type = .constant c → c.Plain
  noDouble : ∀ range, type ≠ .double range

/-- The generator gives what the rule for the kind of the type admits. -/
theorem ofType_gives {type : TypeDef} {name : String} (inRange : source.InRange)
    (h : Generable r type)
    (parts : ∀ target ∈ type.embedded, Gives (value target) (r.Matches n target))
    (nulls : ∀ target, r.resolve? target = some .null → Gives (value target) (· = .null)) :
    Gives (ofType source value name type) (r.Accepts (n + 1) type) := by
  obtain ⟨consistent, fits, layout, plain, noDouble⟩ := h
  cases type with
  | any => exact .pure .any
  | null => exact .pure .null
  | bool => exact .map (.lift fun w b w' _ => .bool)
  | int range =>
    refine .map ((integer_gives inRange).mono fun k drawn => ?_)
    have sign := (drawn.admits consistent).unsigned
    exact .int (asInteger?_integerValue sign) (fits k drawn)
  | double range => exact absurd rfl (noDouble range)
  | decimal range => exact .map ((decimal_gives consistent).mono fun d => .decimal)
  | string shape =>
    rw [ofType]
    split
    · exact Gives.throw_bind
    · next free =>
      refine (length_gives inRange consistent).bind fun count within => ?_
      refine (repeated_gives (.trivial (letter source)) count).bind fun text given =>
        .pure (.string ⟨?_, fun p some => ?_⟩)
      · rwa [String.length_ofList, given.1]
      · rw [Option.mem_def.1 some] at free
        exact absurd rfl free
  | blob shape =>
    refine (length_gives inRange consistent).bind fun count within => ?_
    refine (repeated_gives (.trivial (liftM source.byte)) count).bind fun bytes given =>
      .pure (.blob ?_)
    rwa [given.1]
  | dateTime => exact .map (.lift fun w t w' _ => .dateTime)
  | enum e =>
    rw [ofType]
    split
    · exact Gives.throw_bind
    · next some =>
      have positive : 0 < e.values.values.length := List.length_pos_iff.2 (by simpa using some)
      refine .bind (.lift fun w i w' => index_lt inRange positive) fun i below => .pure ?_
      refine .enumValue (Value.asInteger?_ofInteger _) (fits _ ?_)
      rw [List.getD_eq_getElem _ _ below]
      exact List.getElem_mem below
  | bitfield b =>
    refine (packFields_gives nulls).bind fun bits covered => .pure (.bitfield ?_ covered)
    have word := lt_of_covered (layout b rfl) covered
    rw [Value.asInteger?, UInt64.toNat_ofNat_of_lt' word]
  | list shape =>
    refine .map ((repeated_gives (P := fun v => ∀ target ∈ shape.allowed, r.Matches n target v) ?_
      shape.minLength).mono fun items given => ?_)
    · split
      · next target allowed =>
        refine (parts target (Option.mem_toList.2 allowed)).mono fun v matched target' same => ?_
        cases allowed.symm.trans same
        exact matched
      · next none => exact .pure (by simp [none])
    · refine .list ?_ fun target allowed v mem => given.2 v mem target allowed
      rw [given.1]
      exact ⟨by simp, consistent⟩
  | tuple shape =>
    exact .map ((positions_gives parts).mono fun items given => .tuple given.1 given.2)
  | map shape =>
    rcases shape with ⟨_ | fields⟩
    · exact .pure (.map (by simp) (by simp))
    · refine (keyed_gives (fun p => OrderedMap.get?_eq_some.2) fun p mem =>
        parts p.2 (List.mem_map_of_mem mem)).bind fun entries given => .pure (.map ?_ ?_)
      · rintro _ ⟨⟩
        exact given.1
      · rintro _ ⟨⟩
        exact given.2
  | imap shape =>
    rcases shape with ⟨_ | fields, enumName⟩
    · exact .pure (.imap (by simp) (by simp))
    · refine (keyed_gives (fun p => SortedMap.get?_eq_some.2) fun p mem =>
        parts p.2 (List.mem_map_of_mem mem)).bind fun entries given => .pure (.imap ?_ ?_)
      · rintro _ ⟨⟩
        exact given.1
      · rintro _ ⟨⟩
        exact given.2
  | «alias» target => exact (parts target (List.mem_singleton_self _)).mono fun v => .aliasTo
  | union members =>
    refine .bind (.lift fun w order w' => perm_of_shuffle) fun order perm => ?_
    refine (firstOf_gives fun member mem => parts member (perm.mem_iff.1 mem)).mono ?_
    rintro v ⟨member, mem, matched⟩
    exact .union (perm.mem_iff.1 mem) matched
  | constant c =>
    exact .pure (.constant ((plain c rfl).same_self.2 fits))

/-- What stands for null is generated as null. -/
theorem atLevel_null {levels : Nat} {start name : String} {chain : List String}
    (resolved : r.resolveFrom start chain name = .ok .null) :
    Gives (atLevel r source levels name) (· = .null) := by
  induction levels generalizing name chain with
  | zero => exact .throw
  | succ levels ih =>
    obtain ⟨-, ⟨target, found, rest⟩ | ⟨found, -⟩⟩ := Registry.resolveFrom_eq_ok resolved
    · rw [atLevel, found]
      exact ih rest
    · rw [atLevel, found]
      exact .pure rfl

/-- The levels of the generator are those of the derivation. -/
theorem atLevel_gives (inRange : source.InRange) {levels : Nat} {name : String}
    (generable : ∀ target type, Relation.ReflTransGen r.Embeds name target →
      r.get? target = some type → Generable r type) :
    Gives (atLevel r source levels name) (r.Matches levels name) := by
  induction levels generalizing name with
  | zero => exact .throw
  | succ levels ih =>
    rw [atLevel]
    split
    · next type found =>
      have parts (target : String) (mem : target ∈ type.embedded) :
          Gives (atLevel r source levels target) (r.Matches levels target) :=
        ih fun target' type' reached => generable target' type' (.head ⟨type, found, mem⟩ reached)
      refine (ofType_gives inRange (generable name type .refl found) parts fun target null => ?_).mono
        fun v => .named found
      exact atLevel_null (Registry.resolve?_eq_some.1 null)
    · exact .throw

/-- Each integer of an enumeration is generated by some source. -/
theorem near_enum {e : Enumeration} {i : Nat} (below : i < e.values.values.length)
    (value : String → GenM Unit Value) (name : String) :
    (ofType (.near i) value name (.enum e)).run.run () =
      (.ok (.ofInteger e.values.values[i]), ()) := by
  have some : e.values.values.isEmpty = false := by
    rw [List.isEmpty_eq_false_iff]
    exact List.ne_nil_of_length_pos (by omega)
  have position : ((Source.near i).index e.values.values.length).run () = (i, ()) := by
    show ((if (0 : Int) ≤ i ∧ i ≤ (e.values.values.length : Int) - 1 then (i : Int) else 0).toNat,
      ()) = _
    rw [if_pos (by omega), Int.toNat_natCast]
  rw [ofType, some, if_neg (by decide)]
  show (Except.ok (Value.ofInteger (e.values.values.getD
    (((Source.near i).index e.values.values.length).run ()).1 0)),
    (((Source.near i).index e.values.values.length).run ()).2) = _
  rw [position, List.getD_eq_getElem _ _ below]

end Generation

namespace Registry

variable {r : Registry} {name : String} {type : TypeDef}

/-- From a type without parts, no other is reached. -/
theorem eq_of_reached {target : String} (found : r.get? name = some type)
    (leaf : type.embedded = []) (reached : Relation.ReflTransGen r.Embeds name target) :
    target = name := by
  rcases reached.cases_head with same | ⟨_, ⟨type', found', embedded⟩, -⟩
  · exact same.symm
  · cases found.symm.trans found'
    rw [leaf] at embedded
    contradiction

/-- Whatever is generated for the name is valid for it, whatever is drawn. -/
def GeneratesValid (r : Registry) (name : String) : Prop :=
  ∀ (σ : Type) (source : Source σ), source.InRange → ∀ w v w',
    (r.generate source name).run.run w = (.ok v, w') → r.validate name v = .ok ()

theorem GeneratesValid.accepts (h : r.GeneratesValid name) (found : r.get? name = some type)
    {σ : Type} {source : Source σ} (inRange : source.InRange) {w w' : σ} {v : Value}
    (run : (ofType source (atLevel r source deepestLevel) name type).run.run w = (.ok v, w')) :
    r.Accepts 64 type v := by
  have generated : (r.generate source name).run.run w = (.ok v, w') := by
    rw [generate, atLevel, found]
    exact run
  obtain ⟨found', accepts⟩ := validate_eq_ok.1 (h σ source inRange w v w' generated)
  cases found.symm.trans found'
  exact accepts

/-- Where only valid values are generated, what is drawn still fits when it has become a value. -/
theorem GeneratesValid.fits (h : r.GeneratesValid name) (found : r.get? name = some type)
    (consistent : type.Consistent) (plain : ∀ c, type = .constant c → c.Plain) : type.Fits := by
  cases type with
  | int range =>
    intro n drawn
    obtain ⟨source, inRange, run⟩ := exists_integer drawn name
    cases h.accepts found inRange (map_run (integerValue range) run) with
    | int found admits =>
      cases (asInteger?_integerValue (drawn.admits consistent).unsigned).symm.trans found
      exact admits
  | enum e =>
    intro n mem
    obtain ⟨i, below, rfl⟩ := List.getElem_of_mem mem
    have integer := Value.asInteger?_ofInteger e.values.values[i]
    have run := near_enum below (atLevel r (.near i) deepestLevel) name
    generalize Value.ofInteger e.values.values[i] = v at run integer
    cases h.accepts found Source.near_inRange run with
    | enumValue found member =>
      cases integer.symm.trans found
      exact member
    | enumAlias => contradiction
  | constant c =>
    have value : (ofType (.near 0) (atLevel r (.near 0) deepestLevel) name (.constant c)).run.run
        () = (.ok c, ()) := rfl
    cases h.accepts found Source.near_inRange value with
    | constant same => exact (plain c rfl).same_self.1 same
  | _ => trivial

/-- Where no double is embedded, whatever is generated for a name and for those embedded in it is
valid, exactly when their types fit: no integer is drawn that is cut to one out of its range or its
enumeration, and no constant holds NaN. -/
theorem generate_valid_iff {types : List (String × Json)} (loads : Loading.loadTypes types = .ok r)
    (noDouble : ∀ target range, Relation.ReflTransGen r.Embeds name target →
      r.get? target ≠ some (.double range)) :
    (∀ target, Relation.ReflTransGen r.Embeds name target → r.GeneratesValid target) ↔
      ∀ target type, Relation.ReflTransGen r.Embeds name target → r.get? target = some type →
        type.Fits := by
  have loaded := Loading.loadTypes_loaded loads
  have plain (target : String) (type : TypeDef) (found : r.get? target = some type) (c : Value)
      (constant : type = .constant c) : c.Plain := loaded.plain (constant ▸ found)
  constructor
  · intro valid target type reached found
    exact (valid target reached).fits found (loaded.consistent found) (plain target type found)
  · intro fits target reached σ source inRange w v w' run
    have generable (target' : String) (type : TypeDef)
        (further : Relation.ReflTransGen r.Embeds target target')
        (found : r.get? target' = some type) : Generable r type :=
      { consistent := loaded.consistent found
        fits := fits target' type (reached.trans further) found
        layout := fun b bitfield => loaded.layouts target' b (bitfield ▸ found)
        plain := plain target' type found
        noDouble := fun range double =>
          noDouble target' range (reached.trans further) (double ▸ found) }
    have matched := atLevel_gives inRange generable w v w' run
    exact validate_eq_ok.2 (matched.mono (by decide))

/-- A reading of a dial, and a depth that is at most the least integer with a sign. -/
def meterTypes : List (String × Json) :=
  [("dial", .obj [("type", .str "Int"), ("minimum", .int 0), ("maximum", .int 100)]),
    ("depth", .obj [("type", .str "Int"), ("maximum", .int (-0x8000000000000000))])]

theorem loadTypes_meterTypes :
    ∃ r, Loading.loadTypes meterTypes = .ok r ∧
      r.get? "dial" = some (.int { minimum := some 0, maximum := some 100, unsigned := true }) ∧
      r.get? "depth" = some (.int { maximum := some (-0x8000000000000000) }) := by
  have run : (Loading.loadTypes meterTypes).toOption.map
      (fun r => (r.get? "dial", r.get? "depth")) =
        some (some (.int { minimum := some 0, maximum := some 100, unsigned := true }),
          some (.int { maximum := some (-0x8000000000000000) })) := by cbv
  rcases loads : Loading.loadTypes meterTypes with e | r
  · rw [loads] at run
    contradiction
  rw [loads] at run
  have run := Option.some.inj run
  simp only [Prod.mk.injEq] at run
  exact ⟨r, rfl, run.1, run.2⟩

/-- Readings are valid. Depths are drawn below what a value can hold, where zero is left of them. -/
theorem meterTypes_generatesValid :
    ∃ r, Loading.loadTypes meterTypes = .ok r ∧ r.GeneratesValid "dial" ∧
      ¬ r.GeneratesValid "depth" := by
  obtain ⟨r, loads, dial, depth⟩ := loadTypes_meterTypes
  have noDouble {name : String} {range : IntRange} (found : r.get? name = some (.int range))
      (target : String) (range' : DoubleRange)
      (reached : Relation.ReflTransGen r.Embeds name target) :
      r.get? target ≠ some (.double range') := by
    rw [eq_of_reached found rfl reached, found]
    simp
  refine ⟨r, loads, ?_, fun valid => ?_⟩
  · refine (generate_valid_iff loads (noDouble dial)).2 (fun target type reached found => ?_) _ .refl
    cases eq_of_reached dial rfl reached
    cases dial.symm.trans found
    have consistent := (Loading.loadTypes_loaded loads).consistent dial
    exact TypeDef.fits_int consistent (by decide) (by decide)
  · have fits := (generate_valid_iff loads (noDouble depth)).1 (fun target reached => ?_) _ _ .refl
      depth
    · have below := fits (-0x8000000000000001) ⟨by decide, by decide, nofun⟩
      exact absurd (below.maximum _ rfl) (by decide)
    · cases eq_of_reached depth rfl reached
      exact valid

/-- The least source gives zero as a depth, which is no depth. -/
theorem meterTypes_least :
    ∃ r, Loading.loadTypes meterTypes = .ok r ∧ ∀ time,
      (Source.least time : Source Unit).InRange ∧
        (r.generate (.least time) "depth").run.run () = (.ok (.uint 0), ()) ∧
        r.validate "depth" (.uint 0) =
          .error ⟨[], "depth", .aboveMaximum (.integer 0) (.integer (-0x8000000000000000))⟩ := by
  obtain ⟨r, loads, -, depth⟩ := loadTypes_meterTypes
  refine ⟨r, loads, fun time => ⟨Source.least_inRange, ?_, ?_⟩⟩
  · rw [generate, atLevel, depth]
    rfl
  · rw [validate, depth]
    rfl

end Registry

end DeviceTree
