import DeviceTree.Loading.Numbering
import DeviceTree.Proofs.Outcomes

/-!
# The slots of numbered lists

The number of a name in a list depends on all entries before it. `nextSlot` says how, without a
counter: one more than the last explicit number, and then a slot for each name and each hole and as
many as a count says. `slotNumbers` are the names of a list with these numbers.

The counter of the loader is `nextSlot` of the entries that it has read (`numberAliases_eq_ok`,
`numberFields_slots`), so enumerations have the names in order with these numbers
(`enumeration_eq_ok`).
-/

namespace DeviceTree.Loading

/-! ## The rule -/

/-- The names that an entry of a list brings. -/
def namesIn : Json → List String
  | .str name => [name]
  | .obj fields => fields.map Prod.fst
  | _ => []

/-- The names with numbers of their own. -/
def explicitPairs (fields : List (String × Json)) : List (String × Int) :=
  fields.filterMap fun p => p.2.asInt64?.map (p.1, ·)

/-- The numbers that an entry sets. -/
def explicitNumbers : Json → List Int
  | .obj fields => (explicitPairs fields).map Prod.snd
  | _ => []

/-- The slots that an entry takes after the last explicit number. -/
def slotsTaken : Json → Int
  | .null | .str _ => 1
  | .int n => n
  | _ => 0

/-- The number of the slot after the entries: the last explicit number and one, or zero, and the
slots of the entries that come after it. -/
def nextSlot (before : List Json) : Int :=
  (before.flatMap explicitNumbers).getLast?.elim 0 (· + 1) +
    ((before.rtakeWhile fun item => (explicitNumbers item).isEmpty).map slotsTaken).sum

/-- The names of an entry that comes after others, with their numbers. -/
def numbersAfter (before : List Json) : Json → List (String × Int)
  | .str name => [(name, nextSlot before)]
  | .obj fields => explicitPairs fields
  | _ => []

/-- The names of entries that come after others, with their numbers. -/
def slotNumbers (before : List Json) : List Json → List (String × Int)
  | [] => []
  | item :: rest => numbersAfter before item ++ slotNumbers (before ++ [item]) rest

/-- A name, a hole, a count of slots, or names with numbers. -/
def IsSlot : Json → Prop
  | .null | .str _ => True
  | .int n => 0 ≤ n ∧ n < 0x8000000000000000
  | .obj fields => ∀ p ∈ fields, p.2.asInt64?.isSome = true
  | _ => False

/-- What the numbers of a list are by the rule of slots: every name is there, in order, with the
number of its slot, or with its own. -/
structure SlotRule (items : List Json) (pairs : List (String × Int)) : Prop where
  names : pairs.map Prod.fst = items.flatMap namesIn
  plain : ∀ before name after, items = before ++ .str name :: after →
    (name, nextSlot before) ∈ pairs
  explicit : ∀ fields, .obj fields ∈ items → ∀ p ∈ fields, ∃ n, p.2.asInt64? = some n ∧
    (p.1, n) ∈ pairs

section Rule

variable {before items : List Json} {item v : Json} {fields : List (String × Json)} {name : String}
  {n : Int}

theorem explicitPairs_cons (given : v.asInt64? = some n) :
    explicitPairs ((name, v) :: fields) = (name, n) :: explicitPairs fields :=
  List.filterMap_cons_some (by rw [given, Option.map_some])

/-- An entry with numbers of its own sets the next slot, and other entries take slots. -/
theorem nextSlot_snoc (before : List Json) (item : Json) : nextSlot (before ++ [item]) =
    (explicitNumbers item).getLast?.elim (nextSlot before + slotsTaken item) (· + 1) := by
  cases last : (explicitNumbers item).getLast? with
  | none =>
    have plain : explicitNumbers item = [] := List.getLast?_eq_none_iff.1 last
    rw [nextSlot, List.rtakeWhile_concat_pos _ _ _ (by simp [plain])]
    simp [plain, nextSlot, add_assoc]
  | some n =>
    have some : explicitNumbers item ≠ [] := by
      rintro none
      simp [none] at last
    rw [nextSlot, List.rtakeWhile_concat_neg _ _ _ (by simpa using some)]
    simp [List.flatMap_append, List.getLast?_append, last]

theorem nextSlot_obj : nextSlot (before ++ [.obj fields]) =
    (explicitNumbers (.obj fields)).getLast?.elim (nextSlot before) (· + 1) := by
  rw [nextSlot_snoc, show slotsTaken (.obj fields) = 0 from rfl, add_zero]

/-- The counter after names with numbers of their own. -/
theorem explicitNumbers_cons (given : v.asInt64? = some n) (next : Int) :
    (explicitNumbers (.obj ((name, v) :: fields))).getLast?.elim next (· + 1) =
      (explicitNumbers (.obj fields)).getLast?.elim (n + 1) (· + 1) := by
  rw [explicitNumbers, explicitNumbers, explicitPairs_cons given, List.map_cons, List.getLast?_cons]
  cases ((explicitPairs fields).map Prod.snd).getLast? <;> rfl

theorem names_numbersAfter (slot : IsSlot item) :
    (numbersAfter before item).map Prod.fst = namesIn item := by
  cases item with
  | obj fields =>
    rw [numbersAfter, namesIn]
    induction fields with
    | nil => rfl
    | cons p rest ih =>
      rw [IsSlot, List.forall_mem_cons] at slot
      obtain ⟨n, given⟩ := Option.isSome_iff_exists.1 slot.1
      rw [explicitPairs_cons given, List.map_cons, List.map_cons, ih slot.2]
  | _ => rfl

theorem names_slotNumbers (slots : ∀ item ∈ items, IsSlot item) :
    (slotNumbers before items).map Prod.fst = items.flatMap namesIn := by
  induction items generalizing before with
  | nil => rfl
  | cons item rest ih =>
    rw [List.forall_mem_cons] at slots
    rw [slotNumbers, List.map_append, names_numbersAfter slots.1, ih slots.2, List.flatMap_cons]

theorem mem_slotNumbers {after : List Json} {p : String × Int}
    (mem : p ∈ numbersAfter (before ++ items) item) :
    p ∈ slotNumbers before (items ++ item :: after) := by
  induction items generalizing before with
  | nil =>
    rw [List.append_nil] at mem
    exact List.mem_append_left _ mem
  | cons first rest ih =>
    rw [List.append_cons] at mem
    exact List.mem_append_right _ (ih mem)

theorem slotNumbers_rule (slots : ∀ item ∈ items, IsSlot item) :
    SlotRule items (slotNumbers [] items) where
  names := names_slotNumbers slots
  plain before name after split := by
    rw [split]
    exact mem_slotNumbers (List.mem_singleton_self _)
  explicit fields inside p mem := by
    obtain ⟨n, given⟩ := Option.isSome_iff_exists.1 (slots _ inside p mem)
    obtain ⟨before, after, rfl⟩ := List.append_of_mem inside
    refine ⟨n, given, mem_slotNumbers (List.mem_filterMap.2 ⟨p, mem, ?_⟩)⟩
    rw [given, Option.map_some]

end Rule

/-! ## Aliases -/

section Aliases

variable {l : Location} {before items : List Json} {fields : List (String × Json)}
  {pairs : List (String × Int)} {next next' : Int}

theorem nonNegative_eq_ok {v : Json} {n : Int} :
    nonNegative l v = .ok n ↔ v.asInt64? = some n ∧ 0 ≤ n := by
  have read : nonNegative l v = .ok n ↔ v.asInt64?.filter (0 ≤ ·) = some n := by
    rw [nonNegative]
    split
    · next m found => rw [found, Except.ok.injEq, Option.some.injEq]
    · next none => simp [none]
  rw [read, Option.filter_eq_some_iff, decide_eq_true_eq]

theorem nonNegative_int {n count : Int} :
    nonNegative l (.int n) = .ok count ↔ IsSlot (.int n) ∧ count = n := by
  rw [nonNegative_eq_ok, IsSlot, Json.asInt64?]
  split
  · next below =>
    rw [Option.some.injEq]
    constructor
    · rintro ⟨rfl, natural⟩
      exact ⟨⟨natural, below⟩, rfl⟩
    · rintro ⟨⟨natural, -⟩, rfl⟩
      exact ⟨rfl, natural⟩
  · next above => simp [above]

/-- The counter is left after the last explicit number. -/
theorem explicitAliases_eq_ok : explicitAliases l next fields = .ok (pairs, next') ↔
    IsSlot (.obj fields) ∧ pairs = explicitPairs fields ∧
      next' = (explicitNumbers (.obj fields)).getLast?.elim next (· + 1) := by
  induction fields generalizing next pairs with
  | nil =>
    rw [explicitAliases, Except.ok.injEq, Prod.mk.injEq]
    constructor
    · rintro ⟨rfl, rfl⟩
      exact ⟨List.forall_mem_nil _, rfl, rfl⟩
    · rintro ⟨-, rfl, rfl⟩
      exact ⟨rfl, rfl⟩
  | cons p rest ih =>
    obtain ⟨name, v⟩ := p
    rw [explicitAliases, IsSlot, List.forall_mem_cons]
    cases given : v.asInt64? with
    | none => simp
    | some n =>
      rw [explicitPairs_cons given, explicitNumbers_cons given]
      constructor
      · intro h
        obtain ⟨⟨pairs, next⟩, inner, h⟩ := bind_eq_ok.1 h
        cases h
        obtain ⟨slots, rfl, rfl⟩ := ih.1 inner
        exact ⟨⟨rfl, slots⟩, rfl, rfl⟩
      · rintro ⟨⟨-, slots⟩, rfl, rfl⟩
        exact bind_eq_ok.2 ⟨_, ih.2 ⟨slots, rfl, rfl⟩, rfl⟩

/-- The counter is the next slot after the entries that have been read. -/
theorem numberAliases_eq_ok (before : List Json) :
    numberAliases l (nextSlot before) items = .ok pairs ↔
      (∀ item ∈ items, IsSlot item) ∧ pairs = slotNumbers before items := by
  induction items generalizing before pairs with
  | nil => simp [numberAliases, slotNumbers, eq_comm]
  | cons item rest ih =>
    rw [List.forall_mem_cons, slotNumbers]
    have step := nextSlot_snoc before item
    cases item with
    | null =>
      rw [numberAliases, ← show nextSlot (before ++ [.null]) = nextSlot before + 1 from step, ih]
      simp [IsSlot, numbersAfter]
    | str name =>
      rw [numberAliases, ← show nextSlot (before ++ [.str name]) = nextSlot before + 1 from step]
      constructor
      · intro h
        obtain ⟨others, inner, h⟩ := bind_eq_ok.1 h
        cases h
        obtain ⟨slots, rfl⟩ := (ih _).1 inner
        exact ⟨⟨trivial, slots⟩, rfl⟩
      · rintro ⟨⟨-, slots⟩, rfl⟩
        exact bind_eq_ok.2 ⟨_, (ih _).2 ⟨slots, rfl⟩, rfl⟩
    | int n =>
      have step : nextSlot (before ++ [.int n]) = nextSlot before + n := step
      rw [numberAliases]
      constructor
      · intro h
        obtain ⟨count, here, inner⟩ := bind_eq_ok.1 h
        obtain ⟨slot, rfl⟩ := nonNegative_int.1 here
        rw [← step] at inner
        obtain ⟨slots, rfl⟩ := (ih _).1 inner
        exact ⟨⟨slot, slots⟩, rfl⟩
      · rintro ⟨⟨slot, slots⟩, rfl⟩
        refine bind_eq_ok.2 ⟨n, nonNegative_int.2 ⟨slot, rfl⟩, ?_⟩
        rw [← step]
        exact (ih _).2 ⟨slots, rfl⟩
    | obj fields =>
      rw [numberAliases]
      constructor
      · intro h
        obtain ⟨⟨here, next⟩, first, h⟩ := bind_eq_ok.1 h
        obtain ⟨others, inner, h⟩ := bind_eq_ok.1 h
        cases h
        obtain ⟨slot, rfl, rfl⟩ := explicitAliases_eq_ok.1 first
        rw [← nextSlot_obj] at inner
        obtain ⟨slots, rfl⟩ := (ih _).1 inner
        exact ⟨⟨slot, slots⟩, rfl⟩
      · rintro ⟨⟨slot, slots⟩, rfl⟩
        refine bind_eq_ok.2 ⟨_, explicitAliases_eq_ok.2 ⟨slot, rfl, rfl⟩, ?_⟩
        rw [← nextSlot_obj]
        exact bind_eq_ok.2 ⟨_, (ih _).2 ⟨slots, rfl⟩, rfl⟩
    | bool | double | arr => simp [numberAliases, IsSlot]

/-- Aliases are distinct from each other and from those before, and stay in order. -/
theorem distinctAliases_eq_ok {acc values : OrderedMap Int} :
    distinctAliases l acc pairs = .ok values ↔
      (acc.keys ++ pairs.map Prod.fst).Nodup ∧ values.entries = acc.entries ++ pairs := by
  induction pairs generalizing acc with
  | nil =>
    rw [distinctAliases, Except.ok.injEq, List.map_nil, List.append_nil, List.append_nil]
    constructor
    · rintro rfl
      exact ⟨acc.distinct, rfl⟩
    · rintro ⟨-, same⟩
      cases acc
      cases values
      cases same
      rfl
  | cons pair rest ih =>
    obtain ⟨name, n⟩ := pair
    rw [distinctAliases]
    split
    · next taken =>
      have mem : name ∈ acc.keys := OrderedMap.isSome_get?.1 taken
      refine iff_of_false nofun ?_
      rintro ⟨distinct, -⟩
      exact (List.nodup_append.1 distinct).2.2 name mem name (List.mem_cons_self ..) rfl
    · next new =>
      have absent : name ∉ acc.keys := fun mem => new (OrderedMap.isSome_get?.2 mem)
      have placed : (acc.insert name n).entries = acc.entries ++ [(name, n)] :=
        putEntry_of_not_mem absent n
      have keys : (acc.insert name n).keys = acc.keys ++ [name] := by
        rw [OrderedMap.keys, placed, List.map_append, ← OrderedMap.keys, List.map_singleton]
      rw [ih, placed, keys, List.map_cons, ← List.append_cons, ← List.append_cons]

/-- A list gives an enumeration if its entries are as they may be and no name comes twice. The
enumeration has the names with their numbers, in order. -/
theorem enumeration_eq_ok {e : Enumeration} : enumeration l (.arr items) = .ok e ↔
    (∀ item ∈ items, IsSlot item) ∧ (items.flatMap namesIn).Nodup ∧
      e.values.entries = slotNumbers [] items := by
  constructor
  · intro h
    obtain ⟨pairs, numbered, h⟩ := bind_eq_ok.1 h
    obtain ⟨values, distinct, h⟩ := bind_eq_ok.1 h
    cases h
    obtain ⟨slots, rfl⟩ := (numberAliases_eq_ok []).1 numbered
    obtain ⟨distinct, entries⟩ := distinctAliases_eq_ok.1 distinct
    rw [names_slotNumbers slots] at distinct
    exact ⟨slots, distinct, entries⟩
  · rintro ⟨slots, distinct, entries⟩
    rw [← names_slotNumbers slots] at distinct
    exact bind_eq_ok.2 ⟨_, (numberAliases_eq_ok []).2 ⟨slots, rfl⟩,
      bind_eq_ok.2 ⟨e.values, distinctAliases_eq_ok.2 ⟨distinct, entries⟩, rfl⟩⟩

end Aliases

/-! ## Fields -/

section Fields

variable {l : Location} {acc placed : SortedMap String} {before items : List Json}
  {fields : List (Int × String)}

theorem placeEntry_perm {α : Type} {key : Int} {value : α} {entries : List (Int × α)}
    (absent : key ∉ entries.map Prod.fst) :
    (placeEntry key value entries).Perm ((key, value) :: entries) := by
  induction entries with
  | nil => exact .refl _
  | cons entry rest ih =>
    rw [List.map_cons, List.mem_cons, not_or] at absent
    rw [placeEntry]
    split
    · exact .refl _
    · rw [if_neg absent.1]
      exact ((ih absent.2).cons _).trans (.swap ..)

/-- The map has the fields that were there and the new ones. -/
theorem placeFields_perm (h : placeFields l acc fields = .ok placed) :
    placed.entries.Perm (acc.entries ++ fields) := by
  induction fields generalizing acc with
  | nil =>
    cases h
    rw [List.append_nil]
  | cons field rest ih =>
    obtain ⟨n, typeName⟩ := field
    rw [placeFields] at h
    split at h
    · contradiction
    · next new =>
      have absent : n ∉ acc.entries.map Prod.fst := by
        intro mem
        obtain ⟨⟨_, value⟩, held, rfl⟩ := List.mem_map.1 mem
        exact new (Option.isSome_iff_exists.2 ⟨value, SortedMap.get?_eq_some.2 held⟩)
      have one : (acc.insert n typeName).entries.Perm ((n, typeName) :: acc.entries) :=
        placeEntry_perm absent
      exact (ih h).trans ((one.append_right _).trans List.perm_middle.symm)

theorem explicitFields_eq_ok {explicit : List (String × Json)} {next next' : Int}
    (h : explicitFields l next explicit = .ok (fields, next')) :
    IsSlot (.obj explicit) ∧ fields = (explicitPairs explicit).map Prod.swap ∧
      next' = (explicitNumbers (.obj explicit)).getLast?.elim next (· + 1) := by
  induction explicit generalizing next fields with
  | nil =>
    cases h
    exact ⟨List.forall_mem_nil _, rfl, rfl⟩
  | cons p rest ih =>
    obtain ⟨typeName, v⟩ := p
    obtain ⟨n, read, h⟩ := bind_eq_ok.1 h
    obtain ⟨⟨others, last⟩, inner, h⟩ := bind_eq_ok.1 h
    cases h
    have given := (nonNegative_eq_ok.1 read).1
    obtain ⟨slots, rfl, rfl⟩ := ih inner
    refine ⟨List.forall_mem_cons.2 ⟨?_, slots⟩, ?_, (explicitNumbers_cons given next).symm⟩
    · rw [given, Option.isSome_some]
    · rw [explicitPairs_cons given]
      rfl

/-- The fields of a list have the numbers of its slots. -/
theorem numberFields_slots (before : List Json) {position : Nat}
    (h : numberFields l acc (nextSlot before) position items = .ok placed) :
    (∀ item ∈ items, IsSlot item) ∧
      placed.entries.Perm (acc.entries ++ (slotNumbers before items).map Prod.swap) := by
  induction items generalizing acc before position with
  | nil =>
    cases h
    rw [slotNumbers, List.map_nil, List.append_nil]
    exact ⟨List.forall_mem_nil _, .refl _⟩
  | cons item rest ih =>
    rw [slotNumbers, List.map_append, ← List.append_assoc, List.forall_mem_cons]
    cases item with
    | str typeName =>
      obtain ⟨acc', one, h⟩ := bind_eq_ok.1 h
      have step : nextSlot (before ++ [.str typeName]) = nextSlot before + 1 := nextSlot_snoc ..
      rw [← step] at h
      obtain ⟨slots, perm⟩ := ih _ h
      exact ⟨⟨trivial, slots⟩, perm.trans ((placeFields_perm one).append_right _)⟩
    | obj explicit =>
      obtain ⟨⟨fields, next⟩, read, rest⟩ := bind_eq_ok.1 h
      obtain ⟨acc', some, others⟩ := bind_eq_ok.1 rest
      obtain ⟨slot, rfl, rfl⟩ := explicitFields_eq_ok read
      rw [← nextSlot_obj] at others
      obtain ⟨slots, perm⟩ := ih _ others
      exact ⟨⟨slot, slots⟩, perm.trans ((placeFields_perm some).append_right _)⟩
    | _ => contradiction

end Fields

end DeviceTree.Loading
