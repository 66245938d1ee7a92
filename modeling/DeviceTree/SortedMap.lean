/-!
# Maps in order of integer keys

A map with integer keys is the list of its entries by ascending key. `SortedMap` carries the order,
and with it the distinctness of the keys.
-/

namespace DeviceTree

/-- The entries with `key` bound to `value`, where the order of keys puts it. -/
def placeEntry {α : Type} (key : Int) (value : α) : List (Int × α) → List (Int × α)
  | [] => [(key, value)]
  | (k, v) :: rest =>
    if key < k then (key, value) :: (k, v) :: rest
    else if key = k then (key, value) :: rest
    else (k, v) :: placeEntry key value rest

theorem mem_keys_placeEntry {α : Type} {key : Int} {value : α} {entries : List (Int × α)} {k : Int}
    (h : k ∈ (placeEntry key value entries).map Prod.fst) :
    k = key ∨ k ∈ entries.map Prod.fst := by
  induction entries with
  | nil => simpa [placeEntry] using h
  | cons entry rest ih =>
    obtain ⟨k', v'⟩ := entry
    simp only [placeEntry] at h
    split at h
    · simpa using h
    · split at h
      · simp at h ⊢; grind
      · simp only [List.map_cons, List.mem_cons] at h ⊢; grind

theorem sorted_placeEntry {α : Type} {key : Int} {value : α} {entries : List (Int × α)}
    (h : (entries.map Prod.fst).Pairwise (· < ·)) :
    ((placeEntry key value entries).map Prod.fst).Pairwise (· < ·) := by
  induction entries with
  | nil => simp [placeEntry]
  | cons entry rest ih =>
    obtain ⟨k, v⟩ := entry
    simp only [List.map_cons, List.pairwise_cons] at h
    simp only [placeEntry]
    split
    · next below =>
      simp only [List.map_cons, List.pairwise_cons, List.mem_cons]
      exact ⟨fun a m => m.elim (by grind) (fun m => by have := h.1 a m; omega), h⟩
    · split
      · next same =>
        simp only [List.map_cons, List.pairwise_cons]
        exact ⟨fun a m => same ▸ h.1 a m, h.2⟩
      · simp only [List.map_cons, List.pairwise_cons]
        refine ⟨fun a m => ?_, ih h.2⟩
        rcases mem_keys_placeEntry m with e | m
        · omega
        · exact h.1 a m

/-- A map from integer keys, in ascending order. -/
structure SortedMap (α : Type) where
  entries : List (Int × α)
  ascending : (entries.map Prod.fst).Pairwise (· < ·)

namespace SortedMap

variable {α : Type}

/-- The map without entries. -/
def empty : SortedMap α := ⟨[], by simp⟩

instance : Inhabited (SortedMap α) := ⟨empty⟩

/-- The value bound to `key`. -/
def get? (m : SortedMap α) (key : Int) : Option α :=
  m.entries.lookup key

/-- Whether `key` is bound. -/
def contains (m : SortedMap α) (key : Int) : Bool :=
  (m.get? key).isSome

/-- The map with `key` bound to `value`. -/
def insert (m : SortedMap α) (key : Int) (value : α) : SortedMap α :=
  ⟨placeEntry key value m.entries, sorted_placeEntry m.ascending⟩

/-- The map of the entries; of entries with one key the last gives the value. -/
def ofList (entries : List (Int × α)) : SortedMap α :=
  entries.foldl (fun m (key, value) => m.insert key value) empty

/-- The values in order of their keys. -/
def values (m : SortedMap α) : List α :=
  m.entries.map Prod.snd

theorem mem_of_get? {m : SortedMap α} {key : Int} {value : α} (h : m.get? key = some value) :
    (key, value) ∈ m.entries := by
  obtain ⟨before, after, eq, -⟩ := List.lookup_eq_some_iff.1 h
  simp [eq]

theorem get?_eq_some {m : SortedMap α} {key : Int} {value : α} :
    m.get? key = some value ↔ (key, value) ∈ m.entries := by
  refine ⟨mem_of_get?, fun mem => ?_⟩
  obtain ⟨before, after, split⟩ := List.append_of_mem mem
  refine List.lookup_eq_some_iff.2 ⟨before, after, split, fun p inside => ?_⟩
  have ascending := m.ascending
  rw [split, List.map_append, List.pairwise_append] at ascending
  have := ascending.2.2 p.1 (List.mem_map_of_mem inside) key (by simp)
  rw [bne_iff_ne]
  omega

instance [BEq α] : BEq (SortedMap α) := ⟨fun a b => a.entries == b.entries⟩

end SortedMap

end DeviceTree
