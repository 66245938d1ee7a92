import DeviceTree.Proofs.References
import DeviceTree.Proofs.Sizes

/-!
# The rules of the estimate

`Registry.Takes` has the rules by which the estimate of a type is made of those of other types, one
for each kind. What the program computes is taken by a rule (`takes_of_bodySize?`), and a rule uses
the estimates of the names that the type counts, as the program does (`Takes.induction_counted`).

The program has a guard beside the rules: a name is not entered inside itself. A derivation is
finite, so the names that it counts, those that these count and so on never come back to where they
started (`Takes.acc`), and the guard stops no derivation (`Takes.estimated`).
-/

namespace DeviceTree

open Size

/-- The names whose estimates the estimate of a type is made of: all that it embeds, except that
lists without items need no estimate of an item. -/
def TypeDef.counted : TypeDef → List String
  | .list shape => if shape.maxLength = some 0 then [] else shape.allowed.toList
  | type => type.embedded

namespace Registry

/-- What the values of a type take: the rules of the estimate. Composite types ask for the sizes of
the names that they refer to. -/
inductive Takes (r : Registry) : String → Nat → Prop
  | null {name : String} : r.get? name = some .null → r.Takes name 1
  | bool {name : String} : r.get? name = some .bool → r.Takes name 1
  | int {name : String} {range : IntRange} {low high : Int} {n : Nat} :
    r.get? name = some (.int range) → range.minimum = some low → range.maximum = some high →
    int? low high range.unsigned = some n → r.Takes name n
  | double {name : String} {range : DoubleRange} :
    r.get? name = some (.double range) → r.Takes name 9
  | dateTime {name : String} : r.get? name = some .dateTime → r.Takes name 9
  | string {name : String} {shape : StringShape} {high n : Nat} :
    r.get? name = some (.string shape) → shape.maxLength = some high →
    sequence? (shape.minLength.getD 0) high = some n → r.Takes name n
  | blob {name : String} {shape : BlobShape} {high n : Nat} :
    r.get? name = some (.blob shape) → shape.maxLength = some high →
    sequence? (shape.minLength.getD 0) high = some n → r.Takes name n
  | enum {name : String} {e : Enumeration} {largest : Int} {n : Nat} :
    r.get? name = some (.enum e) → e.maxValue? = some largest →
    int? 0 largest true = some n → r.Takes name n
  | bitfield {name : String} {b : BitfieldShape} {n : Nat} : r.get? name = some (.bitfield b) →
    int? 0 (2 ^ min b.bitSize 64 - 1) true = some n → r.Takes name n
  /-- Nothing is asked of the items of a list that has none. -/
  | emptyList {name : String} {shape : ListShape} :
    r.get? name = some (.list shape) → shape.maxLength = some 0 → r.Takes name framing
  | list {name allowed : String} {shape : ListShape} {count n : Nat} :
    r.get? name = some (.list shape) → shape.maxLength = some count → count ≠ 0 →
    shape.allowed = some allowed → r.Takes allowed n → r.Takes name (framing + count * n)
  | tuple {name : String} {shape : TupleShape} {size : String → Nat} :
    r.get? name = some (.tuple shape) → (∀ item ∈ shape.items, r.Takes item (size item)) →
    r.Takes name (framing + (shape.items.map size).sum)
  | map {name : String} {shape : MapShape} {fields : OrderedMap String} {key size : String → Nat} :
    r.get? name = some (.map shape) → shape.fields = some fields →
    (∀ p ∈ fields.entries, ofText? p.1 = some (key p.1)) →
    (∀ p ∈ fields.entries, r.Takes p.2 (size p.2)) →
    r.Takes name (framing + (fields.entries.map fun p => key p.1 + size p.2).sum)
  | imap {name : String} {shape : IMapShape} {fields : SortedMap String} {key : Int → Nat}
    {size : String → Nat} : r.get? name = some (.imap shape) → shape.fields = some fields →
    (∀ p ∈ fields.entries, ofInt? p.1 = some (key p.1)) →
    (∀ p ∈ fields.entries, r.Takes p.2 (size p.2)) →
    r.Takes name (framing + (fields.entries.map fun p => key p.1 + size p.2).sum)
  | aliasTo {name target : String} {n : Nat} :
    r.get? name = some (.alias target) → r.Takes target n → r.Takes name n
  /-- The largest size of the members, of which there must be one. -/
  | union {name : String} {members : List String} {size : String → Nat} {n : Nat} :
    r.get? name = some (.union members) → (∀ member ∈ members, r.Takes member (size member)) →
    (members.map size).max? = some n → r.Takes name n
  | constant {name : String} {c : Value} {n : Nat} :
    r.get? name = some (.constant c) → c.encodedSize? = some n → r.Takes name n

/-! ## Sizes of parts -/

section Parts

variable {α : Type} {xs : List α} {cost : α → Option Nat} {size : α → Nat} {n : Nat}

theorem sumSizes?_of_sizes (h : ∀ x ∈ xs, cost x = some (size x)) :
    sumSizes? (xs.map cost) = some (xs.map size).sum := by
  induction xs with
  | nil => rfl
  | cons x rest ih =>
    rw [List.forall_mem_cons] at h
    show plus (cost x) (sumSizes? (rest.map cost)) = _
    rw [h.1, ih h.2]
    rfl

/-- Where each part has a size, there is one function that gives them all. -/
theorem exists_sizes (h : ∀ x ∈ xs, ∃ m, cost x = some m) :
    ∃ size : α → Nat, ∀ x ∈ xs, cost x = some (size x) := by
  refine ⟨fun x => (cost x).getD 0, fun x mem => ?_⟩
  obtain ⟨m, found⟩ := h x mem
  show cost x = some ((cost x).getD 0)
  rw [found]
  rfl

theorem exists_of_sumSizes? (h : sumSizes? (xs.map cost) = some n) :
    ∃ size : α → Nat, ∀ x ∈ xs, cost x = some (size x) := by
  refine exists_sizes fun x mem => ?_
  obtain ⟨before, after, rfl⟩ := List.append_of_mem mem
  rw [List.map_append, List.map_cons, sumSizes?_middle, plus_eq_some] at h
  obtain ⟨m, -, own, -⟩ := h
  exact ⟨m, own⟩

theorem foldl_larger_of_sizes (h : ∀ x ∈ xs, cost x = some (size x)) (first : Nat) :
    (xs.map cost).foldl larger (some first) = some ((xs.map size).foldl max first) := by
  induction xs generalizing first with
  | nil => rfl
  | cons x rest ih =>
    rw [List.forall_mem_cons] at h
    rw [List.map_cons, List.map_cons, List.foldl_cons, List.foldl_cons, h.1]
    exact ih h.2 (max first (size x))

theorem maxSize?_of_sizes (h : ∀ x ∈ xs, cost x = some (size x)) :
    maxSize? (xs.map cost) = (xs.map size).max? := by
  cases xs with
  | nil => rfl
  | cons first rest =>
    rw [List.forall_mem_cons] at h
    rw [List.map_cons, List.map_cons, maxSize?, List.max?_cons', h.1]
    exact foldl_larger_of_sizes h.2 _

theorem exists_of_maxSize? (h : maxSize? (xs.map cost) = some n) :
    ∃ size : α → Nat, ∀ x ∈ xs, cost x = some (size x) := by
  refine exists_sizes fun x mem => ?_
  obtain ⟨m, found, -⟩ := atMost_maxSize? (cost x) (List.mem_map_of_mem mem) n h
  exact ⟨m, found⟩

end Parts

section Entries

variable {κ : Type} {entries : List (κ × String)} {keyCost : κ → Option Nat} {key : κ → Nat}
  {cost : String → Option Nat} {size : String → Nat} {n : Nat}

theorem entries_of_sizes (keys : ∀ p ∈ entries, keyCost p.1 = some (key p.1))
    (known : ∀ p ∈ entries, cost p.2 = some (size p.2)) :
    plus (some framing) (sumSizes? (entries.map fun p => plus (keyCost p.1) (cost p.2))) =
      some (framing + (entries.map fun p => key p.1 + size p.2).sum) := by
  have entry : ∀ p ∈ entries, plus (keyCost p.1) (cost p.2) = some (key p.1 + size p.2) := by
    intro p mem
    rw [keys p mem, known p mem]
    rfl
  rw [sumSizes?_of_sizes entry]
  rfl

theorem exists_of_entries
    (h : plus (some framing) (sumSizes? (entries.map fun p => plus (keyCost p.1) (cost p.2))) =
      some n) : ∃ (key : κ → Nat) (size : String → Nat),
      (∀ p ∈ entries, keyCost p.1 = some (key p.1)) ∧ ∀ p ∈ entries, cost p.2 = some (size p.2) := by
  obtain ⟨_, _, -, sum, -⟩ := plus_eq_some.1 h
  obtain ⟨whole, known⟩ := exists_of_sumSizes? sum
  refine ⟨fun k => (keyCost k).getD 0, fun t => (cost t).getD 0, fun p mem => ?_, fun p mem => ?_⟩
  all_goals
    obtain ⟨k, m, own, part, -⟩ := plus_eq_some.1 (known p mem)
    simp [own, part]

end Entries

/-! ## The estimate of one type -/

section Bodies

variable {f : String → Option Nat} {size : String → Nat} {n : Nat}

theorem bodySize?_bitfield (b : BitfieldShape) :
    bodySize? f (.bitfield b) = int? 0 (2 ^ min b.bitSize 64 - 1) true := by
  rw [bodySize?, Nat.one_shiftLeft]
  push_cast
  rfl

theorem bodySize?_emptyList {shape : ListShape} (none : shape.maxLength = some 0) :
    bodySize? f (.list shape) = some framing := by
  simp [bodySize?, none]

theorem bodySize?_list {shape : ListShape} {count : Nat} {allowed : String}
    (most : shape.maxLength = some count) (items : count ≠ 0) (given : shape.allowed = some allowed)
    (known : f allowed = some n) : bodySize? f (.list shape) = some (framing + count * n) := by
  rw [bodySize?, most, given]
  cases count with
  | zero => contradiction
  | succ count =>
    show (f allowed).map (fun item => framing + (count + 1) * item) = _
    rw [known]
    rfl

theorem bodySize?_tuple {shape : TupleShape}
    (known : ∀ item ∈ shape.items, f item = some (size item)) :
    bodySize? f (.tuple shape) = some (framing + (shape.items.map size).sum) := by
  rw [bodySize?, sumSizes?_of_sizes known]
  rfl

theorem bodySize?_map {shape : MapShape} {fields : OrderedMap String}
    (given : shape.fields = some fields) : bodySize? f (.map shape) =
      plus (some framing) (sumSizes? (fields.entries.map fun p => plus (ofText? p.1) (f p.2))) := by
  rw [bodySize?, given]
  rfl

theorem bodySize?_imap {shape : IMapShape} {fields : SortedMap String}
    (given : shape.fields = some fields) : bodySize? f (.imap shape) =
      plus (some framing) (sumSizes? (fields.entries.map fun p => plus (ofInt? p.1) (f p.2))) := by
  rw [bodySize?, given]
  rfl

theorem bodySize?_union {members : List String}
    (known : ∀ member ∈ members, f member = some (size member)) :
    bodySize? f (.union members) = (members.map size).max? := by
  rw [bodySize?, maxSize?_of_sizes known]

/-- The estimate of a type is taken by a rule, if those that it is made of are. -/
theorem takes_of_bodySize? {r : Registry} {name : String} {type : TypeDef}
    (found : r.get? name = some type) (parts : ∀ target m, f target = some m → r.Takes target m)
    (h : bodySize? f type = some n) : r.Takes name n := by
  cases type with
  | any => contradiction
  | decimal range => contradiction
  | null =>
    cases h
    exact .null found
  | bool =>
    cases h
    exact .bool found
  | double range =>
    cases h
    exact .double found
  | dateTime =>
    cases h
    exact .dateTime found
  | int range =>
    rw [bodySize?] at h
    split at h
    · next low high minimum maximum => exact .int found minimum maximum h
    · contradiction
  | string shape =>
    obtain ⟨high, most, h⟩ := Option.bind_eq_some_iff.1 h
    exact .string found most h
  | blob shape =>
    obtain ⟨high, most, h⟩ := Option.bind_eq_some_iff.1 h
    exact .blob found most h
  | enum e =>
    obtain ⟨largest, max, h⟩ := Option.bind_eq_some_iff.1 h
    exact .enum found max h
  | bitfield b =>
    rw [bodySize?_bitfield] at h
    exact .bitfield found h
  | list shape =>
    rw [bodySize?] at h
    split at h
    · next none =>
      cases h
      exact .emptyList found none
    · next count allowed nonzero most given =>
      obtain ⟨m, known, rfl⟩ := Option.map_eq_some_iff.1 h
      exact .list found most (fun zero => nonzero zero) given (parts allowed m known)
    · contradiction
  | tuple shape =>
    obtain ⟨_, _, -, sum, -⟩ := plus_eq_some.1 h
    obtain ⟨size, known⟩ := exists_of_sumSizes? sum
    cases (bodySize?_tuple known).symm.trans h
    exact .tuple found fun item mem => parts _ _ (known item mem)
  | map shape =>
    obtain ⟨fields, given, h⟩ := Option.bind_eq_some_iff.1 h
    obtain ⟨key, size, keys, known⟩ := exists_of_entries h
    cases (entries_of_sizes keys known).symm.trans h
    exact .map found given keys fun p mem => parts _ _ (known p mem)
  | imap shape =>
    obtain ⟨fields, given, h⟩ := Option.bind_eq_some_iff.1 h
    obtain ⟨key, size, keys, known⟩ := exists_of_entries h
    cases (entries_of_sizes keys known).symm.trans h
    exact .imap found given keys fun p mem => parts _ _ (known p mem)
  | «alias» target => exact .aliasTo found (parts target n h)
  | union members =>
    obtain ⟨size, known⟩ := exists_of_maxSize? h
    rw [bodySize?_union known] at h
    exact .union found (fun member mem => parts _ _ (known member mem)) h
  | constant c => exact .constant found h

end Bodies

/-- What the program estimates is taken by the rules. -/
theorem takes_of_sizeFrom? {r : Registry} {path : List String} {name : String} {n : Nat}
    (h : r.sizeFrom? path name = some n) : r.Takes name n := by
  fun_induction sizeFrom? r path name generalizing n with
  | case1 => contradiction
  | case2 => contradiction
  | case3 path name new type found ih =>
    exact takes_of_bodySize? found (fun target m => ih target) h

/-! ## Derivations -/

section Derivations

variable {r : Registry} {name : String} {n : Nat}

/-- The estimate of the name is made of that of the target. -/
def Counts (r : Registry) (name target : String) : Prop :=
  ∃ type, r.get? name = some type ∧ target ∈ type.counted

theorem counted_map {shape : MapShape} {fields : OrderedMap String}
    (given : shape.fields = some fields) :
    (TypeDef.map shape).counted = fields.entries.map Prod.snd := by
  show (TypeDef.map shape).embedded = _
  rw [TypeDef.embedded, given]
  rfl

theorem counted_imap {shape : IMapShape} {fields : SortedMap String}
    (given : shape.fields = some fields) :
    (TypeDef.imap shape).counted = fields.entries.map Prod.snd := by
  show (TypeDef.imap shape).embedded = _
  rw [TypeDef.embedded, given]
  rfl

/-- Induction on derivations, for all rules at once: a rule makes the estimate of a type of those of
the names that the type counts, as the program does it. -/
theorem Takes.induction_counted {P : String → Nat → Prop}
    (step : ∀ {name : String} {type : TypeDef} {size : String → Nat} {n : Nat},
      r.get? name = some type → (∀ target ∈ type.counted, P target (size target)) →
      (∀ f : String → Option Nat, (∀ target ∈ type.counted, f target = some (size target)) →
        bodySize? f type = some n) → P name n)
    (h : r.Takes name n) : P name n := by
  have leaf {name : String} {type : TypeDef} {n : Nat} (found : r.get? name = some type)
      (none : type.counted = []) (known : ∀ f, bodySize? f type = some n) : P name n :=
    @step name type (fun _ => 0) n found (by simp [none]) fun f _ => known f
  induction h with
  | null found => exact leaf found rfl fun _ => rfl
  | bool found => exact leaf found rfl fun _ => rfl
  | double found => exact leaf found rfl fun _ => rfl
  | dateTime found => exact leaf found rfl fun _ => rfl
  | int found minimum maximum size =>
    exact leaf found rfl fun _ => by rw [bodySize?, minimum, maximum]; exact size
  | string found most size => exact leaf found rfl fun _ => by rw [bodySize?, most]; exact size
  | blob found most size => exact leaf found rfl fun _ => by rw [bodySize?, most]; exact size
  | enum found max size => exact leaf found rfl fun _ => by rw [bodySize?, max]; exact size
  | bitfield found size => exact leaf found rfl fun _ => by rw [bodySize?_bitfield]; exact size
  | constant found size => exact leaf found rfl fun _ => size
  | emptyList found none =>
    exact leaf found (by rw [TypeDef.counted, if_pos none]) fun _ => bodySize?_emptyList none
  | @list _ allowed shape _ n found most items given _ ih =>
    have counted : (TypeDef.list shape).counted = [allowed] := by
      rw [TypeDef.counted, if_neg (by simp [most, items]), given]
      rfl
    refine @step _ _ (fun _ => n) _ found ?_ fun f known => ?_
    · rw [counted]
      exact List.forall_mem_singleton.2 ih
    · rw [counted, List.forall_mem_singleton] at known
      exact bodySize?_list most items given known
  | tuple found _ ih => exact step found ih fun f known => bodySize?_tuple known
  | @map _ _ _ _ size found given keys _ ih =>
    refine @step _ _ size _ found ?_ fun f known => ?_
    · rw [counted_map given, List.forall_mem_map]
      exact ih
    · rw [counted_map given, List.forall_mem_map] at known
      rw [bodySize?_map given]
      exact entries_of_sizes keys known
  | @imap _ _ _ _ size found given keys _ ih =>
    refine @step _ _ size _ found ?_ fun f known => ?_
    · rw [counted_imap given, List.forall_mem_map]
      exact ih
    · rw [counted_imap given, List.forall_mem_map] at known
      rw [bodySize?_imap given]
      exact entries_of_sizes keys known
  | @aliasTo _ target n found _ ih =>
    refine @step _ _ (fun _ => n) _ found (List.forall_mem_singleton.2 ih) fun f known => ?_
    exact known target (List.mem_singleton_self _)
  | union found _ max ih =>
    exact step found ih fun f known => (bodySize?_union known).trans max

/-- What a derivation is made of is made of less and less: the names that it counts end. -/
theorem Takes.acc (h : r.Takes name n) : Acc (fun target name => r.Counts name target) name := by
  refine h.induction_counted (P := fun name _ => Acc (fun target name => r.Counts name target) name)
    fun {name type _ _} found parts _ => ⟨name, ?_⟩
  rintro target ⟨type', found', mem⟩
  cases found.symm.trans found'
  exact parts target mem

/-- The guard stops no derivation: what the rules take is estimated, where the names on the path
count the name. -/
theorem Takes.estimated (h : r.Takes name n) {path : List String}
    (above : ∀ q ∈ path, Relation.TransGen r.Counts q name) :
    r.sizeFrom? path name = some n := by
  refine h.induction_counted (P := fun name n => ∀ path : List String,
    (∀ q ∈ path, Relation.TransGen r.Counts q name) →
      Acc (fun target name => r.Counts name target) name → r.sizeFrom? path name = some n)
    (fun {name type size n} found parts known path above acc => ?_) path above h.acc
  -- on the path, the name would be counted in its own derivation
  have new : name ∉ path := fun mem => not_reaches_self_of_acc acc (above name mem)
  rw [sizeFrom?_eq found new]
  refine known _ fun target mem => ?_
  have counts : r.Counts name target := ⟨type, found, mem⟩
  exact parts target mem _ (reaches_of_mem_cons above (.single counts)) (acc.inv counts)

/-- The estimate is the least solution of its rules. -/
theorem packedSize?_eq_some_iff (r : Registry) (name : String) (n : Nat) :
    r.packedSize? name = some n ↔ r.Takes name n :=
  ⟨takes_of_sizeFrom?, fun h => h.estimated (by simp)⟩

end Derivations

end Registry

end DeviceTree
