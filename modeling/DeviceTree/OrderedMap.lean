/-!
# Maps in order of insertion

A map with text keys is the list of its entries in order of arrival. `put` on lists replaces the
value of a key that is present and appends otherwise, so keys stay distinct; `OrderedMap` carries
that fact. Two maps are the same when they bind the same keys to the same values, in any order.
-/

namespace DeviceTree

/-- The entries with `key` bound to `value`: in place when the key is present, at the end if not. -/
def putEntry {α : Type} (key : String) (value : α) : List (String × α) → List (String × α)
  | [] => [(key, value)]
  | (k, v) :: rest => if k = key then (k, value) :: rest else (k, v) :: putEntry key value rest

/-- The entries one after another: a key stands where it came first and has the value that came
last. -/
def mergeEntries {α : Type} (entries : List (String × α)) : List (String × α) :=
  entries.foldl (fun acc (key, value) => putEntry key value acc) []

/-- Whether two lists of entries with distinct keys bind the same keys to equal values. -/
def sameEntries {α : Type} (eq : α → α → Bool) (a b : List (String × α)) : Bool :=
  a.length == b.length && a.all fun (key, value) => (b.lookup key).any (eq value)

theorem keys_putEntry {α : Type} (key : String) (value : α) (entries : List (String × α)) :
    (putEntry key value entries).map Prod.fst =
      if key ∈ entries.map Prod.fst then entries.map Prod.fst
      else entries.map Prod.fst ++ [key] := by
  induction entries with
  | nil => simp [putEntry]
  | cons entry rest ih =>
    obtain ⟨k, v⟩ := entry
    by_cases h : k = key
    · simp [putEntry, h]
    · have h' : ¬ key = k := fun e => h e.symm
      simp only [putEntry, h, if_false, List.map_cons, ih, List.mem_cons, h', false_or]
      split <;> simp

theorem nodup_keys_putEntry {α : Type} {key : String} {value : α} {entries : List (String × α)}
    (h : (entries.map Prod.fst).Nodup) : ((putEntry key value entries).map Prod.fst).Nodup := by
  rw [keys_putEntry]
  split
  · exact h
  · next absent =>
    rw [List.nodup_append]
    refine ⟨h, by simp, fun a m b eq same => absent ?_⟩
    rw [List.mem_singleton] at eq
    exact eq ▸ same ▸ m

theorem nodup_keys_mergeEntries {α : Type} (entries : List (String × α)) :
    ((mergeEntries entries).map Prod.fst).Nodup := by
  suffices ∀ acc : List (String × α), (acc.map Prod.fst).Nodup →
      ((entries.foldl (fun acc (key, value) => putEntry key value acc) acc).map Prod.fst).Nodup from
    this [] (by simp)
  induction entries with
  | nil => exact fun acc h => h
  | cons entry rest ih => exact fun acc h => ih _ (nodup_keys_putEntry h)

theorem mem_putEntry {α : Type} {key : String} {value : α} {entries : List (String × α)}
    {p : String × α} (h : p ∈ putEntry key value entries) : p = (key, value) ∨ p ∈ entries := by
  induction entries with
  | nil => simpa [putEntry] using h
  | cons entry rest ih =>
    rw [putEntry] at h
    split at h
    · next same =>
      subst same
      exact (List.mem_cons.1 h).imp_right (List.mem_cons_of_mem _)
    · rcases List.mem_cons.1 h with rfl | h
      · exact .inr (List.mem_cons_self ..)
      · exact (ih h).imp_right (List.mem_cons_of_mem _)

/-- A merged entry is one of the entries. -/
theorem mem_mergeEntries {α : Type} {entries : List (String × α)} {p : String × α}
    (h : p ∈ mergeEntries entries) : p ∈ entries := by
  suffices ∀ acc : List (String × α),
      p ∈ entries.foldl (fun acc (key, value) => putEntry key value acc) acc →
        p ∈ acc ∨ p ∈ entries by simpa using this [] h
  clear h
  induction entries with
  | nil => exact fun acc h => .inl h
  | cons entry rest ih =>
    intro acc h
    rcases ih _ h with placed | later
    · exact (mem_putEntry placed).symm.imp_right (by rintro rfl; exact List.mem_cons_self ..)
    · exact .inr (List.mem_cons_of_mem _ later)

theorem putEntry_of_not_mem {α : Type} {key : String} {entries : List (String × α)}
    (absent : key ∉ entries.map Prod.fst) (value : α) :
    putEntry key value entries = entries ++ [(key, value)] := by
  induction entries with
  | nil => rfl
  | cons entry rest ih =>
    rw [List.map_cons, List.mem_cons, not_or] at absent
    rw [putEntry, if_neg fun same => absent.1 same.symm, ih absent.2, List.cons_append]

/-- Entries with distinct keys stay as they are. -/
theorem mergeEntries_of_nodup {α : Type} {entries : List (String × α)}
    (distinct : (entries.map Prod.fst).Nodup) : mergeEntries entries = entries := by
  suffices ∀ acc : List (String × α), ((acc ++ entries).map Prod.fst).Nodup →
      entries.foldl (fun acc (key, value) => putEntry key value acc) acc = acc ++ entries from
    this [] distinct
  clear distinct
  induction entries with
  | nil => simp
  | cons entry rest ih =>
    intro acc distinct
    obtain ⟨key, value⟩ := entry
    have absent : key ∉ acc.map Prod.fst := by
      intro mem
      rw [List.map_append, List.nodup_append] at distinct
      exact distinct.2.2 key mem key (List.mem_cons_self ..) rfl
    rw [List.append_cons] at distinct ⊢
    rw [← ih _ distinct, ← putEntry_of_not_mem absent, List.foldl_cons]

theorem mem_keys_of_lookup {α : Type} {key : String} {value : α} {entries : List (String × α)}
    (h : entries.lookup key = some value) : key ∈ entries.map Prod.fst := by
  induction entries with
  | nil => simp at h
  | cons entry rest ih =>
    obtain ⟨k, v⟩ := entry
    by_cases same : key = k
    · simp [same]
    · rw [List.lookup_cons, beq_false_of_ne same] at h
      exact List.mem_cons_of_mem _ (ih h)

theorem lookup_cons_eq_ite {α : Type} (key k : String) (value : α) (entries : List (String × α)) :
    ((key, value) :: entries).lookup k = if k = key then some value else entries.lookup k := by
  by_cases same : k = key
  · simp [same]
  · rw [List.lookup_cons, beq_false_of_ne same, if_neg same]

theorem lookup_putEntry {α : Type} (key k : String) (value : α) (entries : List (String × α)) :
    (putEntry key value entries).lookup k = if k = key then some value else entries.lookup k := by
  induction entries with
  | nil => exact lookup_cons_eq_ite ..
  | cons entry rest ih =>
    obtain ⟨k', v'⟩ := entry
    rw [putEntry, lookup_cons_eq_ite]
    split
    · next here =>
      subst here
      rw [lookup_cons_eq_ite]
      split <;> rfl
    · next other =>
      rw [lookup_cons_eq_ite, ih]
      by_cases same : k = k'
      · rw [if_pos same, if_neg fun key => other (same.symm.trans key), if_pos same]
      · rw [if_neg same, if_neg same]

/-- With distinct keys, a look-up finds the entry with the key. -/
theorem lookup_eq_some_iff_mem {α : Type} {key : String} {value : α} {entries : List (String × α)}
    (distinct : (entries.map Prod.fst).Nodup) :
    entries.lookup key = some value ↔ (key, value) ∈ entries := by
  induction entries with
  | nil => simp
  | cons entry rest ih =>
    obtain ⟨k, v⟩ := entry
    rw [List.map_cons, List.nodup_cons] at distinct
    rw [lookup_cons_eq_ite, List.mem_cons, Prod.mk.injEq]
    split
    · next same =>
      subst same
      have absent : (key, value) ∉ rest := fun mem => distinct.1 (List.mem_map.2 ⟨_, mem, rfl⟩)
      simp [absent, eq_comm]
    · next other => simp [other, ih distinct.2]

/-- A map from text keys, in order of insertion. -/
structure OrderedMap (α : Type) where
  entries : List (String × α)
  distinct : (entries.map Prod.fst).Nodup

namespace OrderedMap

variable {α : Type}

/-- The map without entries. -/
def empty : OrderedMap α := ⟨[], by simp⟩

instance : Inhabited (OrderedMap α) := ⟨empty⟩

/-- The map of the entries in order; of entries with one key the first gives the place, the last
the value. -/
def ofList (entries : List (String × α)) : OrderedMap α :=
  ⟨mergeEntries entries, nodup_keys_mergeEntries entries⟩

/-- The value bound to `key`. -/
def get? (m : OrderedMap α) (key : String) : Option α :=
  m.entries.lookup key

/-- Whether `key` is bound. -/
def contains (m : OrderedMap α) (key : String) : Bool :=
  (m.get? key).isSome

/-- The keys in order. -/
def keys (m : OrderedMap α) : List String :=
  m.entries.map Prod.fst

/-- The values in order of their keys. -/
def values (m : OrderedMap α) : List α :=
  m.entries.map Prod.snd

/-- The number of entries. -/
def size (m : OrderedMap α) : Nat :=
  m.entries.length

/-- The map with `key` bound to `value`, in place or at the end. -/
def insert (m : OrderedMap α) (key : String) (value : α) : OrderedMap α :=
  ⟨putEntry key value m.entries, nodup_keys_putEntry m.distinct⟩

theorem mem_keys_of_get? {m : OrderedMap α} {key : String} {value : α}
    (h : m.get? key = some value) : key ∈ m.keys :=
  mem_keys_of_lookup h

theorem isSome_get? {m : OrderedMap α} {key : String} :
    (m.get? key).isSome = true ↔ key ∈ m.keys := by
  simp [get?, keys]

theorem get?_eq_some {m : OrderedMap α} {key : String} {value : α} :
    m.get? key = some value ↔ (key, value) ∈ m.entries :=
  lookup_eq_some_iff_mem m.distinct

/-- Of entries with one key, the last gives the value. -/
theorem get?_ofList (entries : List (String × α)) (key : String) :
    (ofList entries).get? key = entries.reverse.lookup key := by
  suffices ∀ acc : List (String × α),
      (entries.foldl (fun acc (key, value) => putEntry key value acc) acc).lookup key =
        (entries.reverse ++ acc).lookup key from
    (this []).trans (by rw [List.append_nil])
  induction entries with
  | nil => exact fun acc => rfl
  | cons entry rest ih =>
    intro acc
    obtain ⟨k, value⟩ := entry
    rw [List.foldl_cons, ih, List.reverse_cons, List.append_assoc, List.singleton_append,
      List.lookup_append, List.lookup_append, lookup_putEntry, lookup_cons_eq_ite]

theorem mem_of_get?_ofList {entries : List (String × α)} {key : String} {value : α}
    (found : (ofList entries).get? key = some value) : (key, value) ∈ entries :=
  mem_mergeEntries (get?_eq_some.1 found)

theorem get?_insert (m : OrderedMap α) (key k : String) (value : α) :
    (m.insert key value).get? k = if k = key then some value else m.get? k :=
  lookup_putEntry key k value m.entries

/-- Equality of maps: the same keys with equal values, in any order. -/
instance [BEq α] : BEq (OrderedMap α) := ⟨fun a b => sameEntries (· == ·) a.entries b.entries⟩

end OrderedMap

end DeviceTree
