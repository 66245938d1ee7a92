import DeviceTree.Proofs.Decimals
import DeviceTree.Proofs.Doubles
import DeviceTree.Proofs.Nesting
import DeviceTree.Proofs.Sizes

/-!
# Equal values

Equality of values is looser than being the same: integers agree across signedness, decimals as
numbers, timestamps as instants and maps whatever the order of their entries, at every depth. It is
transitive (`same_trans`) and, for maps that bind each key once, symmetric (`same_symm`).

No type tells equal values apart: each rule of validity carries over (`Accepts.of_same`), by
induction on the levels whole derivations do (`Matches.of_same`), and so does the verdict of the
checker (`isValid_eq_of_same`).
-/

namespace DeviceTree

/-! ## Values and their parts -/

namespace Value

theorem sizeOf_snd_lt {κ : Type} [SizeOf κ] {entries : List (κ × Value)} {part : Value}
    (h : part ∈ entries.map Prod.snd) : sizeOf part < sizeOf entries := by
  obtain ⟨⟨key, item⟩, mem, rfl⟩ := List.mem_map.1 h
  have inside := List.sizeOf_lt_of_mem mem
  rw [Prod.mk.sizeOf_spec] at inside
  show sizeOf item < _
  omega

theorem sizeOf_lt_of_mem_parts {v part : Value} (h : part ∈ v.parts) : sizeOf part < sizeOf v := by
  cases v with
  | list items =>
    have : sizeOf part < sizeOf items := List.sizeOf_lt_of_mem h
    rw [list.sizeOf_spec]
    omega
  | map entries =>
    have := sizeOf_snd_lt h
    rw [map.sizeOf_spec]
    omega
  | imap entries =>
    have := sizeOf_snd_lt h
    rw [imap.sizeOf_spec]
    omega
  | _ => contradiction

/-- What holds of a value when it holds of its parts holds of every value. -/
theorem induction_parts {P : Value → Prop} (step : ∀ v, (∀ part ∈ v.parts, P part) → P v)
    (v : Value) : P v :=
  step v fun part _ => induction_parts step part
termination_by v
decreasing_by exact sizeOf_lt_of_mem_parts ‹_›

/-! ## Rules of equality -/

/-- When two values are equal, with one rule for each kind. Parts are compared as the program does
it. -/
inductive Agrees : Value → Value → Prop
  | null : Agrees .null .null
  | bool {b : Bool} : Agrees (.bool b) (.bool b)
  /-- Signed or not. -/
  | integer {v w : Value} {k : Int} :
    v.asInteger? = some k → w.asInteger? = some k → Agrees v w
  | double {x y : Float} : (x == y) = true → Agrees (.double x) (.double y)
  /-- As numbers. -/
  | decimal {d e : Decimal} : d.toRat = e.toRat → Agrees (.decimal d) (.decimal e)
  | string {s : String} : Agrees (.string s) (.string s)
  | blob {bytes : List UInt8} : Agrees (.blob bytes) (.blob bytes)
  /-- As instants. -/
  | dateTime {t u : Timestamp} :
    t.seconds = u.seconds → t.nanos = u.nanos → Agrees (.dateTime t) (.dateTime u)
  | list {items items' : List Value} :
    sameItems items items' = true → Agrees (.list items) (.list items')
  /-- Whatever the order of the entries. -/
  | map {entries entries' : List (String × Value)} : entries.length = entries'.length →
    allBound entries entries' = true → Agrees (.map entries) (.map entries')
  | imap {pairs pairs' : List (Int × Value)} :
    pairs'.map Prod.fst = pairs.map Prod.fst →
    sameItems (pairs.map Prod.snd) (pairs'.map Prod.snd) = true →
    Agrees (.imap pairs) (.imap pairs')

theorem samePairs_iff {pairs pairs' : List (Int × Value)} :
    samePairs pairs pairs' = true ↔
      pairs'.map Prod.fst = pairs.map Prod.fst ∧
        sameItems (pairs.map Prod.snd) (pairs'.map Prod.snd) = true := by
  induction pairs generalizing pairs' with
  | nil => cases pairs' <;> simp [samePairs, sameItems]
  | cons pair rest ih =>
    obtain ⟨key, item⟩ := pair
    cases pairs' with
    | nil => simp [samePairs]
    | cons pair' rest' =>
      obtain ⟨key', item'⟩ := pair'
      simp only [samePairs, sameItems, List.map_cons, Bool.and_eq_true, beq_iff_eq, ih,
        List.cons.injEq]
      constructor
      · rintro ⟨⟨rfl, item⟩, keys, items⟩
        exact ⟨⟨rfl, keys⟩, item, items⟩
      · rintro ⟨⟨rfl, keys⟩, item, items⟩
        exact ⟨⟨rfl, item⟩, keys, items⟩

theorem same_iff_agrees {a b : Value} : a.same b = true ↔ a.Agrees b := by
  constructor
  · intro h
    cases a with
    | int n => exact .integer rfl (asInteger?_of_same rfl h)
    | uint n => exact .integer rfl (asInteger?_of_same rfl h)
    | null =>
      cases b <;> simp only [same, Bool.false_eq_true] at h
      exact .null
    | bool value =>
      cases b <;> simp only [same, Bool.false_eq_true, beq_iff_eq] at h
      subst h
      exact .bool
    | double x =>
      cases b <;> simp only [same, Bool.false_eq_true] at h
      exact .double h
    | decimal d =>
      cases b <;> simp only [same, Bool.false_eq_true] at h
      exact .decimal (Decimal.beq_iff.1 h)
    | string s =>
      cases b <;> simp only [same, Bool.false_eq_true, beq_iff_eq] at h
      subst h
      exact .string
    | blob bytes =>
      cases b <;> simp only [same, Bool.false_eq_true, beq_iff_eq] at h
      subst h
      exact .blob
    | dateTime t =>
      cases b <;> simp only [same, Bool.false_eq_true] at h
      obtain ⟨seconds, nanos⟩ := Bool.and_eq_true_iff.1 h
      exact .dateTime (eq_of_beq seconds) (eq_of_beq nanos)
    | list items =>
      cases b <;> simp only [same, Bool.false_eq_true] at h
      exact .list h
    | map entries =>
      cases b <;> simp only [same, Bool.false_eq_true, Bool.and_eq_true, beq_iff_eq] at h
      exact .map h.1 h.2
    | imap pairs =>
      cases b <;> simp only [same, Bool.false_eq_true, samePairs_iff] at h
      exact .imap h.1 h.2
  · rintro h
    cases h with
    | integer h h' => cases a <;> cases h <;> cases b <;> simp_all [asInteger?, same]
    | null => rw [same]
    | bool | string | blob => rw [same, beq_self_eq_true]
    | double h => rwa [same]
    | decimal h =>
      rw [same]
      exact Decimal.beq_iff.2 h
    | dateTime seconds nanos =>
      rw [same]
      exact Bool.and_eq_true_iff.2 ⟨beq_iff_eq.2 seconds, beq_iff_eq.2 nanos⟩
    | list h => rwa [same]
    | map length bound =>
      rw [same, Bool.and_eq_true, beq_iff_eq]
      exact ⟨length, bound⟩
    | imap keys items =>
      rw [same, samePairs_iff]
      exact ⟨keys, items⟩

/-! ## Transitivity -/

theorem sameItems_nil_iff {bs : List Value} : sameItems [] bs = true ↔ bs = [] := by
  cases bs <;> simp [sameItems]

theorem sameItems_cons_iff {a : Value} {as bs : List Value} :
    sameItems (a :: as) bs = true ↔
      ∃ b rest, bs = b :: rest ∧ a.same b = true ∧ sameItems as rest = true := by
  cases bs with
  | nil => simp [sameItems]
  | cons b rest => simp [sameItems, and_assoc]

theorem sameItems_trans {as bs cs : List Value}
    (trans : ∀ a ∈ as, ∀ b c, a.same b = true → b.same c = true → a.same c = true)
    (h : sameItems as bs = true) (k : sameItems bs cs = true) : sameItems as cs = true := by
  induction as generalizing bs cs with
  | nil =>
    rw [sameItems_nil_iff] at h
    subst h
    exact k
  | cons a as ih =>
    rw [List.forall_mem_cons] at trans
    obtain ⟨b, bs, rfl, first, others⟩ := sameItems_cons_iff.1 h
    obtain ⟨c, cs, rfl, first', others'⟩ := sameItems_cons_iff.1 k
    have same : a.same c = true := trans.1 b c first first'
    exact sameItems_cons_iff.2 ⟨c, cs, rfl, same, ih trans.2 others others'⟩

theorem mem_of_lookup {entries : List (String × Value)} {key : String} {v : Value}
    (h : entries.lookup key = some v) : (key, v) ∈ entries := by
  obtain ⟨before, after, rfl, -⟩ := List.lookup_eq_some_iff.1 h
  exact List.mem_append_right _ (List.mem_cons_self ..)

theorem allBound_trans {as bs cs : List (String × Value)}
    (trans : ∀ a ∈ as.map Prod.snd, ∀ b c, a.same b = true → b.same c = true → a.same c = true)
    (h : allBound as bs = true) (k : allBound bs cs = true) : allBound as cs = true := by
  refine allBound_iff.2 fun p mem => ?_
  obtain ⟨b, found, same⟩ := allBound_iff.1 h p mem
  obtain ⟨c, found', same'⟩ := allBound_iff.1 k (p.1, b) (mem_of_lookup found)
  exact ⟨c, found', trans p.2 (List.mem_map_of_mem mem) b c same same'⟩

/-- Values equal to one value are equal to each other. -/
theorem same_trans {a b c : Value} (h : a.same b = true) (k : b.same c = true) :
    a.same c = true := by
  induction a using induction_parts generalizing b c with
  | step a ih =>
    have parts (part : Value) (mem : part ∈ a.parts) (b c : Value) (h : part.same b = true)
      (k : b.same c = true) : part.same c = true := ih part mem h k
    -- both equalities go by the same rule, or both are of integers
    refine same_iff_agrees.2 ?_
    cases same_iff_agrees.1 h with
    | integer h h' => exact .integer h (asInteger?_of_same h' k)
    | null | bool | string | blob => exact same_iff_agrees.1 k
    | double equal =>
      cases same_iff_agrees.1 k with
      | double equal' => exact .double (Double.beq_trans equal equal')
      | integer => contradiction
    | decimal number =>
      cases same_iff_agrees.1 k with
      | decimal number' => exact .decimal (number.trans number')
      | integer => contradiction
    | dateTime seconds nanos =>
      cases same_iff_agrees.1 k with
      | dateTime seconds' nanos' => exact .dateTime (seconds.trans seconds') (nanos.trans nanos')
      | integer => contradiction
    | list items =>
      cases same_iff_agrees.1 k with
      | list items' => exact .list (sameItems_trans parts items items')
      | integer => contradiction
    | map length bound =>
      cases same_iff_agrees.1 k with
      | map length' bound' => exact .map (length.trans length') (allBound_trans parts bound bound')
      | integer => contradiction
    | imap keys items =>
      cases same_iff_agrees.1 k with
      | imap keys' items' => exact .imap (keys'.trans keys) (sameItems_trans parts items items')
      | integer => contradiction

/-! ## Symmetry -/

theorem sameItems_symm {as bs : List Value}
    (symm : ∀ a ∈ as, ∀ b, a.same b = true → b.same a = true) (h : sameItems as bs = true) :
    sameItems bs as = true := by
  induction as generalizing bs with
  | nil =>
    rw [sameItems_nil_iff] at h
    subst h
    exact sameItems_nil_iff.2 rfl
  | cons a as ih =>
    rw [List.forall_mem_cons] at symm
    obtain ⟨b, bs, rfl, first, others⟩ := sameItems_cons_iff.1 h
    exact sameItems_cons_iff.2 ⟨a, as, rfl, symm.1 b first, ih symm.2 others⟩

theorem allBound_symm {as bs : List (String × Value)} (distinct : (as.map Prod.fst).Nodup)
    (length : as.length = bs.length)
    (symm : ∀ a ∈ as.map Prod.snd, ∀ b, a.same b = true → b.same a = true)
    (bound : allBound as bs = true) : allBound bs as = true := by
  refine allBound_iff.2 fun p mem => ?_
  obtain ⟨a, mem', same⟩ := exists_mem_of_allBound distinct length bound p mem
  exact ⟨a, (lookup_eq_some_iff_mem distinct).2 mem', symm a (List.mem_map_of_mem mem') _ same⟩

/-- Equality is symmetric for maps that bind each key once. -/
theorem same_symm {a b : Value} (keyed : a.Keyed) (h : a.same b = true) : b.same a = true := by
  induction keyed generalizing b with
  | @intro a keys _ ih =>
    have parts (part : Value) (mem : part ∈ a.parts) (b : Value) (h : part.same b = true) :
      b.same part = true := ih part mem h
    refine same_iff_agrees.2 ?_
    cases same_iff_agrees.1 h with
    | integer found found' => exact .integer found' found
    | null => exact .null
    | bool => exact .bool
    | string => exact .string
    | blob => exact .blob
    | double equal => exact .double (Double.beq_symm equal)
    | decimal number => exact .decimal number.symm
    | dateTime seconds nanos => exact .dateTime seconds.symm nanos.symm
    | list items => exact .list (sameItems_symm parts items)
    | map length bound => exact .map length.symm (allBound_symm keys length parts bound)
    | imap order items => exact .imap order.symm (sameItems_symm parts items)

/-! ## Parts of equal values -/

theorem same_getElem_of_sameItems {as bs : List Value} (h : sameItems as bs = true) {i : Nat}
    (left : i < as.length) (right : i < bs.length) : as[i].same bs[i] = true := by
  refine (sameItems_iff.1 h).2 (as[i], bs[i]) ?_
  rw [List.mem_iff_getElem]
  exact ⟨i, by rw [List.length_zip]; omega, List.getElem_zip⟩

theorem exists_of_mem_sameItems {as bs : List Value} (h : sameItems as bs = true) :
    ∀ b ∈ bs, ∃ a ∈ as, a.same b = true := by
  have length := (sameItems_iff.1 h).1
  intro b mem
  obtain ⟨i, right, rfl⟩ := List.mem_iff_getElem.1 mem
  have left : i < as.length := by omega
  exact ⟨as[i], List.getElem_mem left, same_getElem_of_sameItems h left right⟩

/-- What holds of the items of one list, each with what belongs to its position, holds of those of
an equal list. -/
theorem forall_zip_of_sameItems {α : Type} {P : α → Value → Prop} {names : List α}
    {as bs : List Value} (congr : ∀ a ∈ as, ∀ x b, a.same b = true → P x a → P x b)
    (same : sameItems as bs = true) (h : ∀ p ∈ names.zip as, P p.1 p.2) :
    ∀ p ∈ names.zip bs, P p.1 p.2 := by
  induction as generalizing names bs with
  | nil =>
    rw [sameItems_nil_iff] at same
    subst same
    exact h
  | cons a as ih =>
    obtain ⟨b, bs, rfl, first, others⟩ := sameItems_cons_iff.1 same
    cases names with
    | nil => simp
    | cons x names =>
      rw [List.forall_mem_cons] at congr
      rw [List.zip_cons_cons, List.forall_mem_cons] at h ⊢
      exact ⟨congr.1 x b first h.1, ih congr.2 others h.2⟩

/-- Each entry of an integer map is one of a map equal to it. -/
theorem exists_mem_of_samePairs {pairs pairs' : List (Int × Value)}
    (keys : pairs'.map Prod.fst = pairs.map Prod.fst)
    (items : sameItems (pairs.map Prod.snd) (pairs'.map Prod.snd) = true) :
    ∀ p ∈ pairs', ∃ v, (p.1, v) ∈ pairs ∧ v.same p.2 = true := by
  intro p mem
  obtain ⟨i, right, rfl⟩ := List.mem_iff_getElem.1 mem
  have length : pairs'.length = pairs.length := by
    rw [← List.length_map Prod.fst, keys, List.length_map]
  have left : i < pairs.length := by omega
  have key := List.getElem_of_eq keys (i := i) (by rwa [List.length_map])
  have same := same_getElem_of_sameItems items (i := i) (by rwa [List.length_map])
    (by rwa [List.length_map])
  rw [List.getElem_map, List.getElem_map] at key same
  refine ⟨pairs[i].2, ?_, same⟩
  rw [key]
  exact List.getElem_mem left

/-- Each part of a value equals one of an equal value. -/
theorem exists_part_of_same {a b : Value} (keys : a.KeysInOrder) (h : a.same b = true) :
    ∀ part ∈ b.parts, ∃ part' ∈ a.parts, part'.same part = true := by
  cases same_iff_agrees.1 h with
  | integer _ found => cases b <;> cases found <;> nofun
  | list items => exact exists_of_mem_sameItems items
  | map length bound =>
    intro part mem
    obtain ⟨p, inside, rfl⟩ := List.mem_map.1 mem
    obtain ⟨v, inside', same⟩ := exists_mem_of_allBound keys length bound p inside
    exact ⟨v, List.mem_map_of_mem inside', same⟩
  | imap _ items => exact exists_of_mem_sameItems items
  | _ => nofun

/-- Equal values have their keys as maps do together. -/
theorem Keyed.of_same {a b : Value} (keyed : a.Keyed) (h : a.same b = true) : b.Keyed := by
  induction keyed generalizing b with
  | @intro a keys _ ih =>
    refine ⟨?_, fun part mem => ?_⟩
    · cases same_iff_agrees.1 h with
      | integer _ found => cases b <;> cases found <;> trivial
      | map length bound => exact (perm_keys_of_allBound keys length bound).nodup keys
      | imap order _ =>
        rw [KeysInOrder, order]
        exact keys
      | _ => trivial
    · obtain ⟨part', mem', same⟩ := exists_part_of_same keys h part mem
      exact ih part' mem' same

end Value

/-! ## Ranges -/

theorem DoubleRange.Admits.of_beq {range : DoubleRange} {x y : Float} (admits : range.Admits x)
    (h : (x == y) = true) : range.Admits y where
  minimum low mem less := admits.minimum low mem ((Double.order_congr h low).1.2 less)
  exclusiveMinimum low mem le :=
    admits.exclusiveMinimum low mem ((Double.order_congr h low).2.2.1.2 le)
  maximum high mem greater := admits.maximum high mem ((Double.order_congr h high).2.1.2 greater)
  exclusiveMaximum high mem ge :=
    admits.exclusiveMaximum high mem ((Double.order_congr h high).2.2.2.2 ge)
  multiple unit mem := by
    rw [← Double.isMultiple_congr h unit]
    exact admits.multiple unit mem

/-- Bounds of decimals see the number only. -/
theorem DecimalRange.Admits.of_toRat_eq {range : DecimalRange} {d e : Decimal}
    (admits : range.Admits d) (h : d.toRat = e.toRat) : range.Admits e where
  minimum low mem less := by
    refine admits.minimum low mem ?_
    rw [Decimal.lt_iff, h]
    exact Decimal.lt_iff.1 less
  maximum high mem greater := by
    refine admits.maximum high mem ?_
    rw [Decimal.lt_iff, h]
    exact Decimal.lt_iff.1 greater

/-! ## Validity -/

namespace Registry

open Value

variable {r : Registry} {n : Nat} {name : String} {type : TypeDef} {a b : Value}

/-- A type that one value belongs to has the values equal to it, where this is so for the types it
refers to. -/
theorem Accepts.of_same
    (below : ∀ target {v w : Value}, v.Keyed → v.same w = true → r.Matches n target v →
      r.Matches n target w)
    (keyed : a.Keyed) (same : a.same b = true) (h : r.Accepts (n + 1) type a) :
    r.Accepts (n + 1) type b := by
  obtain ⟨keys, inside⟩ := keyed
  cases h with
  | any => exact .any
  | int found admits => exact .int (asInteger?_of_same found same) admits
  | enumValue found member => exact .enumValue (asInteger?_of_same found same) member
  | bitfield found assigned => exact .bitfield (asInteger?_of_same found same) assigned
  | aliasTo matched => exact .aliasTo (below _ ⟨keys, inside⟩ same matched)
  | union mem matched => exact .union mem (below _ ⟨keys, inside⟩ same matched)
  | constant equal => exact .constant (same_trans equal same)
  | null =>
    cases same_iff_agrees.1 same with
    | null => exact .null
    | integer => contradiction
  | bool =>
    cases same_iff_agrees.1 same with
    | bool => exact .bool
    | integer => contradiction
  | dateTime =>
    cases same_iff_agrees.1 same with
    | dateTime => exact .dateTime
    | integer => contradiction
  | double admits =>
    cases same_iff_agrees.1 same with
    | double equal => exact .double (admits.of_beq equal)
    | integer => contradiction
  | decimal admits =>
    cases same_iff_agrees.1 same with
    | decimal number => exact .decimal (admits.of_toRat_eq number)
    | integer => contradiction
  | string admits =>
    cases same_iff_agrees.1 same with
    | string => exact .string admits
    | integer => contradiction
  | blob length =>
    cases same_iff_agrees.1 same with
    | blob => exact .blob length
    | integer => contradiction
  | enumAlias member =>
    cases same_iff_agrees.1 same with
    | string => exact .enumAlias member
    | integer => contradiction
  | list length matched =>
    cases same_iff_agrees.1 same with
    | list items =>
      refine .list ?_ fun typeName given w mem => ?_
      · rwa [(sameItems_iff.1 items).1]
      · obtain ⟨v, mem', equal⟩ := exists_of_mem_sameItems items w mem
        exact below typeName (inside v mem') equal (matched typeName given v mem')
    | integer => contradiction
  | tuple arity matched =>
    cases same_iff_agrees.1 same with
    | list items =>
      refine .tuple ?_ fun p mem => ?_
      · rwa [(sameItems_iff.1 items).1]
      · exact forall_zip_of_sameItems (fun v mem typeName w => below typeName (inside v mem)) items
          matched p mem
    | integer => contradiction
  | map declared matched =>
    cases same_iff_agrees.1 same with
    | map length bound =>
      have entry := exists_mem_of_allBound keys length bound
      refine .map (fun fields given p mem => ?_) fun fields given p mem typeName found => ?_
      · obtain ⟨v, mem', -⟩ := entry p mem
        exact declared fields given (p.1, v) mem'
      · obtain ⟨v, mem', equal⟩ := entry p mem
        exact below typeName (inside v (List.mem_map_of_mem mem')) equal
          (matched fields given _ mem' typeName found)
    | integer => contradiction
  | imap declared matched =>
    cases same_iff_agrees.1 same with
    | imap order items =>
      have entry := exists_mem_of_samePairs order items
      refine .imap (fun fields given p mem => ?_) fun fields given p mem typeName found => ?_
      · obtain ⟨v, mem', -⟩ := entry p mem
        exact declared fields given (p.1, v) mem'
      · obtain ⟨v, mem', equal⟩ := entry p mem
        exact below typeName (inside v (List.mem_map_of_mem mem')) equal
          (matched fields given _ mem' typeName found)
    | integer => contradiction

theorem Matches.of_same (keyed : a.Keyed) (same : a.same b = true) (h : r.Matches n name a) :
    r.Matches n name b := by
  induction n generalizing name a b with
  | zero =>
    obtain ⟨-, accepts⟩ := h
    cases accepts
  | succ n ih =>
    obtain ⟨found, accepts⟩ := h
    exact .named found (accepts.of_same (fun _ _ _ => ih) keyed same)

/-- A type does not tell equal values apart. -/
theorem matches_congr (keyed : a.Keyed) (same : a.same b = true) :
    r.Matches n name a ↔ r.Matches n name b :=
  ⟨.of_same keyed same, .of_same (keyed.of_same same) (same_symm keyed same)⟩

/-- The checker does not tell equal values apart, whatever the registry and the type. Values bind
each key of a map once. -/
theorem isValid_eq_of_same (r : Registry) (name : String) (keyed : a.Keyed)
    (same : (a == b) = true) : r.isValid name a = r.isValid name b := by
  rw [Bool.eq_iff_iff, isValid, isValid, isOk_eq_true, isOk_eq_true, validate_eq_ok,
    validate_eq_ok]
  exact matches_congr keyed same

/-- Hours of a day and a price for them. -/
def flatRate : Value :=
  .map [("hours", .list [.int 8, .int 20]), ("price", .decimal ⟨150, -2⟩)]

/-- The same with the price first, and written otherwise. -/
def flatRateRestated : Value :=
  .map [("price", .decimal ⟨15, -1⟩), ("hours", .list [.uint 8, .uint 20])]

/-- A registry with the rate as a constant. -/
def tariffs : Registry :=
  ⟨fresh.entries.insert "flat" ⟨.constant flatRate, .custom⟩⟩

theorem flatRate_keyed : flatRate.Keyed := by
  have hour (n : Int64) : (Value.int n).Keyed := .of_no_parts trivial rfl
  have hours : (Value.list [.int 8, .int 20]).Keyed :=
    ⟨trivial, by simp [Value.parts, hour]⟩
  have price : (Value.decimal ⟨150, -2⟩).Keyed := .of_no_parts trivial rfl
  exact ⟨by simp [KeysInOrder, flatRate], by simp [Value.parts, flatRate, hours, price]⟩

theorem flatRate_restated : (flatRate == flatRateRestated) = true := by
  have number : (⟨150, -2⟩ : Decimal).toRat = (⟨15, -1⟩ : Decimal).toRat := by
    show (150 : ℚ) * 10 ^ (-2 : ℤ) = (15 : ℚ) * 10 ^ (-1 : ℤ)
    norm_num
  have price : (Value.decimal ⟨150, -2⟩).same (.decimal ⟨15, -1⟩) = true :=
    same_iff_agrees.2 (.decimal number)
  have hours : (Value.list [.int 8, .int 20]).same (.list [.uint 8, .uint 20]) = true := by
    simp [Value.same, sameItems]
  show flatRate.same flatRateRestated = true
  rw [flatRate, flatRateRestated, Value.same]
  simp [allBound, List.lookup, price, hours]

theorem tariffs_flat : flatRate.Keyed ∧ (flatRate == flatRateRestated) = true ∧
    tariffs.isValid "flat" flatRate = tariffs.isValid "flat" flatRateRestated :=
  ⟨flatRate_keyed, flatRate_restated,
    isValid_eq_of_same tariffs "flat" flatRate_keyed flatRate_restated⟩

end Registry

end DeviceTree
