import DeviceTree.Proofs.Outcomes
import DeviceTree.Size

/-!
# Sizes below bounds

`Size.AtMost` compares a size with a bound that may be missing, which bounds everything. Here is
what the bounds of types are made of: integers between two others (`int?_mono`), sequences of bytes
(`sequence?_mono`), and sums, where the parts of a value are fewer than those of the bound
(`sumSizes?_atMost_of_keys`). Within 128 bits no bound of integers is missing (`int?_within`).

Equal values of plain data have the same size (`Value.Plain.atMost_of_same`), once no map in them
has a key twice.
-/

namespace DeviceTree

namespace Size

/-- Where there is a bound, there is a size, and it is no larger. -/
def AtMost (size bound : Option Nat) : Prop :=
  ∀ n, bound = some n → ∃ m, size = some m ∧ m ≤ n

variable {a a' b b' c : Option Nat} {m n : Nat}

theorem AtMost.refl (a : Option Nat) : AtMost a a :=
  fun n h => ⟨n, h, Nat.le_refl n⟩

theorem AtMost.trans (h : AtMost a b) (k : AtMost b c) : AtMost a c := by
  intro n bound
  obtain ⟨m, middle, le⟩ := k n bound
  obtain ⟨l, size, le'⟩ := h m middle
  exact ⟨l, size, Nat.le_trans le' le⟩

/-- Sizes that bound each other are the same. -/
theorem AtMost.antisymm (h : AtMost a b) (k : AtMost b a) : a = b := by
  refine Option.ext fun n => ⟨fun size => ?_, fun size => ?_⟩
  · obtain ⟨m, found, le⟩ := k n size
    obtain ⟨l, size', le'⟩ := h m found
    cases size.symm.trans size'
    rwa [Nat.le_antisymm le' le]
  · obtain ⟨m, found, le⟩ := h n size
    obtain ⟨l, size', le'⟩ := k m found
    cases size.symm.trans size'
    rwa [Nat.le_antisymm le' le]

@[simp] theorem atMost_none : AtMost a none := by
  simp [AtMost]

@[simp] theorem atMost_some : AtMost (some m) (some n) ↔ m ≤ n := by
  simp [AtMost]

/-! ## Integers -/

theorem two_le_of_ofBits? {bits : Nat} (h : ofBits? bits = some n) : 2 ≤ n := by
  unfold ofBits? at h
  grind

theorem exists_of_ofBits? {bits : Nat} (few : bits ≤ 128) : ∃ n, ofBits? bits = some n := by
  have bytes : bits / 8 + 1 ≤ 17 := by omega
  rw [ofBits?, if_pos bytes]
  split_ifs <;> exact ⟨_, rfl⟩

theorem ofBits?_mono {bits bits' : Nat} (le : bits ≤ bits') :
    AtMost (ofBits? bits) (ofBits? bits') := by
  intro n bound
  unfold ofBits? at bound ⊢
  have : bits / 8 ≤ bits' / 8 := Nat.div_le_div_right le
  grind

section Integers

variable {low high low' high' k : Int} {unsigned unsigned' : Bool}

/-- Bounds that do not fit into one byte are not both zero, so their bits can be counted. -/
theorem bits?_eq (large : ¬ (0 ≤ low ∧ high < 64)) :
    bits? low high unsigned =
      some (if unsigned then (max low.natAbs high.natAbs).log2
        else (max low.natAbs high.natAbs).log2 + 1) := by
  have nonzero : max low.natAbs high.natAbs ≠ 0 := by omega
  rw [bits?, Word.difference?_digits nonzero, Option.map_some]

theorem int?_eq (large : ¬ (0 ≤ low ∧ high < 64)) :
    int? low high unsigned =
      ofBits? (if unsigned then (max low.natAbs high.natAbs).log2
        else (max low.natAbs high.natAbs).log2 + 1) := by
  rw [int?, if_neg large, bits?_eq large, Option.bind_some]

/-- More integers take more, where the larger magnitude has a sign if the smaller has one. -/
theorem int?_mono
    (small : 0 ≤ low' → high' < 64 → 0 ≤ low ∧ high < 64)
    (magnitude : max low.natAbs high.natAbs ≤ max low'.natAbs high'.natAbs)
    (sign : unsigned' = true → unsigned = true) :
    AtMost (int? low high unsigned) (int? low' high' unsigned') := by
  have bits := Nat.log_mono_right (b := 2) magnitude
  rw [← Nat.log2_eq_log_two, ← Nat.log2_eq_log_two] at bits
  by_cases inner : 0 ≤ low ∧ high < 64
  · rw [int?, if_pos inner]
    by_cases outer : 0 ≤ low' ∧ high' < 64
    · rw [int?, if_pos outer]
      exact .refl _
    · rw [int?_eq outer]
      intro n bound
      have := two_le_of_ofBits? bound
      exact ⟨1, rfl, by omega⟩
  · have outer : ¬ (0 ≤ low' ∧ high' < 64) := fun outer => inner (small outer.1 outer.2)
    rw [int?_eq inner, int?_eq outer]
    refine ofBits?_mono ?_
    cases unsigned' with
    | true => simpa [sign rfl] using bits
    | false => split <;> simp <;> omega

/-- An integer takes at most what is reserved for the range it lies in. -/
theorem ofInt?_atMost (minimum : low ≤ k) (maximum : k ≤ high)
    (sign : unsigned = true → 0 ≤ k) : AtMost (ofInt? k) (int? low high unsigned) := by
  refine int?_mono ?_ ?_ ?_
  · omega
  · omega
  · simpa using sign

theorem one_le_of_int? (h : int? low high unsigned = some n) : 1 ≤ n := by
  by_cases small : 0 ≤ low ∧ high < 64
  · rw [int?, if_pos small] at h
    cases h
    exact Nat.le_refl 1
  · rw [int?_eq small] at h
    have := two_le_of_ofBits? h
    omega

/-- The bits of integers of 128 bits can be counted in 128 bits, where they have to be. -/
theorem exists_bits? (lowest : -2 ^ 127 ≤ low) (order : low ≤ high) (highest : high < 2 ^ 127)
    (large : ¬ (0 ≤ low ∧ high < 64)) :
    ∃ bits, bits? low high unsigned = some bits ∧ bits ≤ 128 := by
  have nonzero : max low.natAbs high.natAbs ≠ 0 := by omega
  have fits : max low.natAbs high.natAbs < 2 ^ 128 := by omega
  have few : (max low.natAbs high.natAbs).log2 < 128 := (Nat.log2_lt nonzero).2 fits
  refine ⟨_, bits?_eq large, ?_⟩
  split <;> omega

/-- All ranges within 128 bits have a size. -/
theorem exists_int? (lowest : -2 ^ 127 ≤ low) (order : low ≤ high) (highest : high < 2 ^ 127)
    (unsigned : Bool) : ∃ n, int? low high unsigned = some n := by
  by_cases small : 0 ≤ low ∧ high < 64
  · exact ⟨1, by rw [int?, if_pos small]⟩
  · obtain ⟨bits, counted, few⟩ := exists_bits? lowest order highest small
    obtain ⟨n, size⟩ := exists_of_ofBits? few
    exact ⟨n, by rw [int?, if_neg small, counted, Option.bind_some, size]⟩

/-- Within 128 bits, an integer and the range it lies in have sizes, and that of the integer is no
larger. The bits of both can be counted wherever there is need to. -/
theorem int?_within (lowest : -2 ^ 127 ≤ low) (highest : high < 2 ^ 127) (above : low ≤ k)
    (below : k ≤ high) (sign : unsigned = true → 0 ≤ low) :
    (∃ m n, int? k k (0 ≤ k) = some m ∧ int? low high unsigned = some n ∧ m ≤ n) ∧
      (¬ (0 ≤ k ∧ k < 64) → ∃ bits, bits? k k (0 ≤ k) = some bits ∧ bits ≤ 128) ∧
      (¬ (0 ≤ low ∧ high < 64) → ∃ bits, bits? low high unsigned = some bits ∧ bits ≤ 128) := by
  have order : low ≤ high := by omega
  have lowest' : -2 ^ 127 ≤ k := by omega
  have highest' : k < 2 ^ 127 := by omega
  refine ⟨?_, exists_bits? lowest' (Int.le_refl k) highest', exists_bits? lowest order highest⟩
  obtain ⟨n, range⟩ := exists_int? lowest order highest unsigned
  have natural : unsigned = true → 0 ≤ k := fun set => by
    have := sign set
    omega
  obtain ⟨m, size, le⟩ := ofInt?_atMost above below natural n range
  exact ⟨m, n, size, range, le⟩

/-- A number of thirty digits among those of a word without sign. It is the first that is counted in
whole bytes. -/
theorem wordRange_within :
    (-2 ^ 127 : Int) ≤ 0 ∧ (2 ^ 64 - 1 : Int) < 2 ^ 127 ∧ (0 : Int) ≤ 2 ^ 29 ∧
      (2 ^ 29 : Int) ≤ 2 ^ 64 - 1 ∧ int? (2 ^ 29) (2 ^ 29) true = some 6 ∧
      int? 0 (2 ^ 64 - 1) true = some 10 ∧
      ((∃ m n, int? (2 ^ 29) (2 ^ 29) ((0 : Int) ≤ 2 ^ 29) = some m ∧
        int? 0 (2 ^ 64 - 1) true = some n ∧ m ≤ n) ∧
      (¬ ((0 : Int) ≤ 2 ^ 29 ∧ (2 ^ 29 : Int) < 64) →
        ∃ bits, bits? (2 ^ 29) (2 ^ 29) ((0 : Int) ≤ 2 ^ 29) = some bits ∧ bits ≤ 128) ∧
      (¬ ((0 : Int) ≤ 0 ∧ (2 ^ 64 - 1 : Int) < 64) →
        ∃ bits, bits? 0 (2 ^ 64 - 1) true = some bits ∧ bits ≤ 128)) := by
  refine ⟨by decide, by decide, by decide, by decide, by decide, by decide, ?_⟩
  exact int?_within (by decide) (by decide) (by decide) (by decide) (fun _ => by decide)

end Integers

theorem ofInt?_natCast (k : Nat) : ofInt? k = int? k k true := by
  simp [ofInt?]

/-! ## Sequences of bytes -/

theorem sequence?_eq_some {low high : Nat} :
    sequence? low high = some n ↔
      ∃ length, int? low high true = some length ∧ 1 + length + high = n := by
  simp [sequence?]

theorem int?_natCast_mono {low high low' high' : Nat} (order : low ≤ high) (le : high ≤ high') :
    AtMost (int? low high true) (int? low' high' true) :=
  int?_mono (by omega) (by omega) (fun _ => rfl)

theorem sequence?_mono {low high low' high' : Nat} (order : low ≤ high) (le : high ≤ high') :
    AtMost (sequence? low high) (sequence? low' high') := by
  intro n bound
  obtain ⟨length', found', rfl⟩ := sequence?_eq_some.1 bound
  obtain ⟨length, found, shorter⟩ := int?_natCast_mono order le _ found'
  exact ⟨_, sequence?_eq_some.2 ⟨length, found, rfl⟩, by omega⟩

/-- A sequence that takes no more than is reserved for others is as long as one of them. -/
theorem le_of_sequence?_le {length low high : Nat} (order : low ≤ high)
    (size : sequence? length length = some m) (bound : sequence? low high = some n)
    (le : m ≤ n) : length ≤ high := by
  by_contra more
  obtain ⟨own, found, rfl⟩ := sequence?_eq_some.1 size
  obtain ⟨reserved, found', rfl⟩ := sequence?_eq_some.1 bound
  obtain ⟨_, same, longer⟩ := int?_natCast_mono order (by omega : high ≤ length) _ found
  cases found'.symm.trans same
  omega

/-! ## Sums -/

theorem plus_eq_some : plus a b = some n ↔ ∃ m k, a = some m ∧ b = some k ∧ m + k = n := by
  simp [plus, Option.bind_eq_some_iff]

theorem AtMost.plus (h : AtMost a a') (k : AtMost b b') : AtMost (plus a b) (plus a' b') := by
  intro n bound
  obtain ⟨p, q, left, right, rfl⟩ := plus_eq_some.1 bound
  obtain ⟨p', found, le⟩ := h p left
  obtain ⟨q', found', le'⟩ := k q right
  exact ⟨p' + q', plus_eq_some.2 ⟨p', q', found, found', rfl⟩, Nat.add_le_add le le'⟩

theorem plus_left_comm (a b c : Option Nat) : plus a (plus b c) = plus b (plus a c) := by
  cases a <;> cases b <;> cases c <;> simp [Size.plus, Nat.add_left_comm]

theorem atMost_larger (a b : Option Nat) : AtMost a (larger a b) ∧ AtMost b (larger a b) := by
  cases a <;> cases b <;> simp [larger]

end Size

open Size

namespace Registry

/-- A part may be counted first. -/
theorem sumSizes?_middle (before : List (Option Nat)) (size : Option Nat)
    (after : List (Option Nat)) :
    sumSizes? (before ++ size :: after) = plus size (sumSizes? (before ++ after)) := by
  induction before with
  | nil => rfl
  | cons first rest ih =>
    show plus first (sumSizes? (rest ++ size :: after)) =
      plus size (plus first (sumSizes? (rest ++ after)))
    rw [ih, plus_left_comm]

/-- The order of the parts does not matter. -/
theorem sumSizes?_perm {sizes sizes' : List (Option Nat)} (perm : sizes.Perm sizes') :
    sumSizes? sizes = sumSizes? sizes' :=
  perm.foldr_eq' (fun a _ b _ c => plus_left_comm b a c) _

theorem sumSizes?_atMost_of_zip {α β : Type} {whole : List α} {items : List β}
    {bound : α → Option Nat} {cost : β → Option Nat} (length : items.length = whole.length)
    (each : ∀ p ∈ whole.zip items, AtMost (cost p.2) (bound p.1)) :
    AtMost (sumSizes? (items.map cost)) (sumSizes? (whole.map bound)) := by
  induction whole generalizing items with
  | nil =>
    rw [List.eq_nil_of_length_eq_zero length]
    exact .refl _
  | cons first rest ih =>
    obtain ⟨item, items, rfl⟩ := List.exists_cons_of_length_eq_add_one length
    rw [List.zip_cons_cons, List.forall_mem_cons] at each
    exact each.1.plus (ih (Nat.succ.inj length) each.2)

theorem sumSizes?_atMost_mul {sizes : List (Option Nat)} {count n : Nat}
    (few : sizes.length ≤ count) (each : ∀ size ∈ sizes, AtMost size (some n)) :
    AtMost (sumSizes? sizes) (some (count * n)) := by
  induction sizes generalizing count with
  | nil => exact atMost_some.2 (Nat.zero_le _)
  | cons size rest ih =>
    obtain ⟨count, rfl⟩ := Nat.exists_eq_add_of_le' (Nat.le_trans (Nat.le_add_left 1 _) few)
    have others := ih (Nat.le_of_succ_le_succ few)
      fun size mem => each size (List.mem_cons_of_mem _ mem)
    have := (each size (List.mem_cons_self ..)).plus others
    rwa [show plus (some n) (some (count * n)) = some ((count + 1) * n) by
      simp [plus, Nat.succ_mul, Nat.add_comm]] at this

/-- Entries with distinct keys, each of which is counted under its key, take at most the sum. What
is counted under other keys only adds to it. -/
theorem sumSizes?_atMost_of_keys {κ α β : Type} {entries : List (κ × α)} {fields : List (κ × β)}
    (key : κ → Option Nat) (cost : α → Option Nat) (bound : β → Option Nat)
    (distinct : (entries.map Prod.fst).Nodup)
    (each : ∀ p ∈ entries, ∃ b, (p.1, b) ∈ fields ∧ AtMost (cost p.2) (bound b)) :
    AtMost (sumSizes? (entries.map fun p => plus (key p.1) (cost p.2)))
      (sumSizes? (fields.map fun p => plus (key p.1) (bound p.2))) := by
  induction entries generalizing fields with
  | nil =>
    intro n _
    exact ⟨0, rfl, Nat.zero_le n⟩
  | cons p rest ih =>
    rw [List.map_cons, List.nodup_cons] at distinct
    obtain ⟨b, mem, le⟩ := each p (List.mem_cons_self ..)
    obtain ⟨before, after, rfl⟩ := List.append_of_mem mem
    rw [List.map_cons, List.map_append, List.map_cons, sumSizes?_middle, ← List.map_append]
    refine ((AtMost.refl _).plus le).plus (ih distinct.2 fun p' mem' => ?_)
    obtain ⟨b', counted, le'⟩ := each p' (List.mem_cons_of_mem _ mem')
    refine ⟨b', ?_, le'⟩
    -- another entry has another key, so its bound is not the one that was taken out
    have other : p'.1 ≠ p.1 := fun same => distinct.1 (same ▸ List.mem_map_of_mem mem')
    simpa [other] using counted

theorem atMost_foldl_larger (first : Option Nat) (sizes : List (Option Nat)) :
    ∀ size ∈ first :: sizes, AtMost size (sizes.foldl larger first) := by
  induction sizes generalizing first with
  | nil => simp [AtMost.refl]
  | cons next rest ih =>
    have both := ih (larger first next) _ (List.mem_cons_self ..)
    intro size mem
    simp only [List.mem_cons] at mem
    rcases mem with rfl | rfl | mem
    · exact (atMost_larger size next).1.trans both
    · exact (atMost_larger first size).2.trans both
    · exact ih _ _ (List.mem_cons_of_mem _ mem)

/-- The largest size bounds each of them. -/
theorem atMost_maxSize? {sizes : List (Option Nat)} :
    ∀ size ∈ sizes, AtMost size (maxSize? sizes) := by
  cases sizes with
  | nil => simp
  | cons first rest => exact atMost_foldl_larger first rest

/-- A name that the path has not come through is estimated by its type. -/
theorem sizeFrom?_eq {r : Registry} {path : List String} {name : String} {type : TypeDef}
    (found : r.get? name = some type) (new : name ∉ path) :
    r.sizeFrom? path name = bodySize? (fun target => r.sizeFrom? (name :: path) target) type := by
  rw [sizeFrom?, dif_neg new]
  split
  · next absent => cases found.symm.trans absent
  · next bound =>
    cases found.symm.trans bound
    rfl

end Registry

/-! ## Values -/

namespace Value

open Registry (sumSizes? sumSizes?_atMost_of_zip sumSizes?_atMost_of_keys)

theorem encodedSize?_of_asInteger? {v : Value} {k : Int} (h : v.asInteger? = some k) :
    v.encodedSize? = ofInt? k := by
  cases v with
  | int n =>
    cases h
    rfl
  | uint n =>
    cases h
    exact (ofInt?_natCast _).symm
  | _ => contradiction

theorem itemsSize?_eq (items : List Value) :
    itemsSize? items = sumSizes? (items.map encodedSize?) := by
  induction items with
  | nil => rfl
  | cons item rest ih => rw [itemsSize?, ih, List.map_cons, sumSizes?, sumSizes?, List.foldr_cons]

theorem entriesSize?_eq (entries : List (String × Value)) :
    entriesSize? entries =
      sumSizes? (entries.map fun p => plus (ofText? p.1) p.2.encodedSize?) := by
  induction entries with
  | nil => rfl
  | cons entry rest ih =>
    rw [entriesSize?, ih, List.map_cons, sumSizes?, sumSizes?, List.foldr_cons]

theorem pairsSize?_eq (entries : List (Int × Value)) :
    pairsSize? entries =
      sumSizes? (entries.map fun p => plus (ofInt? p.1) p.2.encodedSize?) := by
  induction entries with
  | nil => rfl
  | cons entry rest ih => rw [pairsSize?, ih, List.map_cons, sumSizes?, sumSizes?, List.foldr_cons]

/-- The values directly inside a value. -/
def parts : Value → List Value
  | .list items => items
  | .map entries => entries.map Prod.snd
  | .imap entries => entries.map Prod.snd
  | _ => []

/-- A map binds each key once, an integer map has its keys in order. -/
def KeysInOrder : Value → Prop
  | .map entries => (entries.map Prod.fst).Nodup
  | .imap entries => (entries.map Prod.fst).Pairwise (· < ·)
  | _ => True

/-- All maps in the value have their keys as maps do. -/
inductive Keyed : Value → Prop
  | intro {v : Value} : v.KeysInOrder → (∀ part ∈ v.parts, part.Keyed) → v.Keyed

theorem Keyed.of_no_parts {v : Value} (keys : v.KeysInOrder) (none : v.parts = []) : v.Keyed :=
  ⟨keys, by simp [none]⟩

/-- Values of plain data: no decimals, bytes, timestamps or integer maps in them. -/
inductive Plain : Value → Prop
  | null : Plain .null
  | bool {b : Bool} : Plain (.bool b)
  | int {n : Int64} : Plain (.int n)
  | uint {n : UInt64} : Plain (.uint n)
  | double {x : Float} : Plain (.double x)
  | string {s : String} : Plain (.string s)
  | list {items : List Value} : (∀ item ∈ items, item.Plain) → Plain (.list items)
  | map {entries : List (String × Value)} :
    (entries.map Prod.fst).Nodup → (∀ p ∈ entries, p.2.Plain) → Plain (.map entries)

mutual

theorem ofJson_plain : ∀ spec : Json, (ofJson spec).Plain
  | .null => .null
  | .bool _ => .bool
  | .int n => by
    rw [ofJson]
    split
    · exact .int
    · exact .uint
  | .double _ => .double
  | .str _ => .string
  | .arr items => .list (ofJsonItems_plain items)
  | .obj fields => .map (nodup_keys_mergeEntries _) fun p mem =>
      ofJsonFields_plain fields p (mem_mergeEntries mem)

theorem ofJsonItems_plain : ∀ items : List Json, ∀ item ∈ ofJsonItems items, item.Plain
  | [] => by simp [ofJsonItems]
  | item :: rest => List.forall_mem_cons.2 ⟨ofJson_plain item, ofJsonItems_plain rest⟩

theorem ofJsonFields_plain :
    ∀ fields : List (String × Json), ∀ p ∈ ofJsonFields fields, p.2.Plain
  | [] => by simp [ofJsonFields]
  | (_, item) :: rest => List.forall_mem_cons.2 ⟨ofJson_plain item, ofJsonFields_plain rest⟩

end

theorem asInteger?_of_same {c v : Value} {k : Int} (h : c.asInteger? = some k)
    (same : c.same v = true) : v.asInteger? = some k := by
  cases c with
  | int n | uint n =>
    cases h
    cases v <;> simp_all [Value.same, asInteger?]
  | _ => contradiction

theorem sameItems_iff {items items' : List Value} :
    sameItems items items' = true ↔
      items'.length = items.length ∧ ∀ p ∈ items.zip items', p.1.same p.2 = true := by
  induction items generalizing items' with
  | nil => cases items' <;> simp [sameItems]
  | cons item rest ih =>
    cases items' with
    | nil => simp [sameItems]
    | cons item' rest' =>
      rw [sameItems, Bool.and_eq_true, ih, List.zip_cons_cons, List.forall_mem_cons,
        List.length_cons, List.length_cons, Nat.add_right_cancel_iff]
      exact and_left_comm

theorem allBound_iff {entries other : List (String × Value)} :
    allBound entries other = true ↔
      ∀ p ∈ entries, ∃ v, other.lookup p.1 = some v ∧ p.2.same v = true := by
  induction entries with
  | nil => simp [allBound]
  | cons entry rest ih =>
    obtain ⟨key, item⟩ := entry
    rw [allBound, Bool.and_eq_true, ih, Option.any_eq_true, List.forall_mem_cons]

/-- A map with as many entries as another, that has all of its keys, has no other keys. -/
theorem perm_keys_of_allBound {entries other : List (String × Value)}
    (distinct : (entries.map Prod.fst).Nodup) (length : entries.length = other.length)
    (bound : allBound entries other = true) :
    (entries.map Prod.fst).Perm (other.map Prod.fst) := by
  have sub : entries.map Prod.fst ⊆ other.map Prod.fst := by
    intro key mem
    obtain ⟨p, counted, rfl⟩ := List.mem_map.1 mem
    obtain ⟨v, found, -⟩ := allBound_iff.1 bound p counted
    exact mem_keys_of_lookup found
  exact (List.subperm_of_subset distinct sub).perm_of_length_le (by simp [length])

/-- Each entry of a map is one of a map equal to it that binds each key once. -/
theorem exists_mem_of_allBound {entries other : List (String × Value)}
    (distinct : (entries.map Prod.fst).Nodup) (length : entries.length = other.length)
    (bound : allBound entries other = true) :
    ∀ p ∈ other, ∃ v, (p.1, v) ∈ entries ∧ v.same p.2 = true := by
  intro p mem
  have perm := perm_keys_of_allBound distinct length bound
  have own := (lookup_eq_some_iff_mem (perm.nodup distinct)).2 mem
  obtain ⟨⟨key, v⟩, counted, rfl⟩ := List.mem_map.1 (perm.symm.subset (List.mem_map_of_mem mem))
  obtain ⟨w, found, same⟩ := allBound_iff.1 bound _ counted
  cases own.symm.trans found
  exact ⟨v, counted, same⟩

/-- A value takes at most what plain data that it equals takes. -/
theorem Plain.atMost_of_same {c v : Value} (h : c.Plain) (keyed : v.Keyed)
    (same : c.same v = true) : AtMost v.encodedSize? c.encodedSize? := by
  induction h generalizing v with
  | null | bool | double => cases v <;> first | exact .refl _ | simp [Value.same] at same
  | int | uint =>
    rw [encodedSize?_of_asInteger? (asInteger?_of_same rfl same), encodedSize?_of_asInteger? rfl]
    exact .refl _
  | string =>
    cases v <;> simp only [Value.same, Bool.false_eq_true, beq_iff_eq] at same
    subst same
    exact .refl _
  | list plain ih =>
    cases v <;> simp only [Value.same, Bool.false_eq_true] at same
    obtain ⟨length, same⟩ := sameItems_iff.1 same
    obtain ⟨-, keyed⟩ := keyed
    rw [encodedSize?, encodedSize?, itemsSize?_eq, itemsSize?_eq]
    refine (AtMost.refl _).plus (sumSizes?_atMost_of_zip length fun p mem => ?_)
    obtain ⟨counted, inside⟩ := List.of_mem_zip mem
    exact ih p.1 counted (keyed p.2 inside) (same p mem)
  | @map entries distinct plain ih =>
    cases v <;> simp only [Value.same, Bool.false_eq_true, Bool.and_eq_true, beq_iff_eq] at same
    rename_i other
    obtain ⟨length, bound⟩ := same
    obtain ⟨own, keyed⟩ := keyed
    rw [encodedSize?, encodedSize?, entriesSize?_eq, entriesSize?_eq]
    refine (AtMost.refl _).plus
      (sumSizes?_atMost_of_keys ofText? encodedSize? encodedSize? own fun p mem => ?_)
    obtain ⟨item, counted, same⟩ := exists_mem_of_allBound distinct length bound p mem
    exact ⟨item, counted, ih _ counted (keyed _ (List.mem_map_of_mem mem)) same⟩

end Value

end DeviceTree
