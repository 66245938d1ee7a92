import DeviceTree.Proofs.Equality
import DeviceTree.Proofs.SizeRules

/-!
# Equal types

Equality of types is looser than being the same: bounds agree as numbers, constants as values, and
enumerations and maps whatever the order of their entries. `TypeDef.Alike` says in what way equal
types may differ, with one rule for each such kind; types of all other kinds are the same when they
are equal, those with a pattern because the pattern is read from its source (`Specified.alike`).

None of these differences matters: equal types accept the same values (`Alike.accepts_iff`), take
the same space inside bitfields (`Alike.spanOf_eq`) and have the same estimate, as far as the types
that they refer to go (`Alike.bodySize?_eq`). Without a cycle, the estimate of a name is that of its
type (`packedSize?_eq`), so it does not matter to the estimate which name leads to a type.
-/

namespace DeviceTree

open Loading Size

/-! ## Parts that are equal when they are the same -/

deriving instance ReflBEq, LawfulBEq for IntRange
deriving instance ReflBEq, LawfulBEq for BlobShape
deriving instance ReflBEq, LawfulBEq for BitField
deriving instance ReflBEq, LawfulBEq for BitfieldShape
deriving instance ReflBEq, LawfulBEq for ListShape
deriving instance ReflBEq, LawfulBEq for TupleShape

instance {α : Type} [BEq α] [LawfulBEq α] : LawfulBEq (SortedMap α) where
  eq_of_beq {m m'} same := by
    cases m
    cases m'
    cases eq_of_beq (show (_ : List (Int × α)) == _ from same)
    rfl
  rfl {m} := beq_self_eq_true m.entries

deriving instance ReflBEq, LawfulBEq for IMapShape

/-! ## Bounds -/

/-- What is asked of a bound is asked of an equal one, where equal bounds ask for the same. -/
theorem forall_mem_congr_of_beq {α : Type} [BEq α] {P : α → Prop} {bound bound' : Option α}
    (congr : ∀ {a b}, (a == b) = true → (P a ↔ P b)) (same : (bound == bound') = true) :
    (∀ a ∈ bound, P a) ↔ ∀ b ∈ bound', P b := by
  obtain _ | a := bound <;> obtain _ | b := bound'
  · exact Iff.rfl
  · contradiction
  · contradiction
  · simp only [Option.mem_some_iff, forall_eq']
    exact congr same

theorem DoubleRange.admits_congr {range range' : DoubleRange} (same : (range == range') = true)
    (x : Float) : range.Admits x ↔ range'.Admits x := by
  obtain ⟨low, same⟩ := Bool.and_eq_true_iff.1 same
  obtain ⟨high, same⟩ := Bool.and_eq_true_iff.1 same
  obtain ⟨low', same⟩ := Bool.and_eq_true_iff.1 same
  obtain ⟨high', unit⟩ := Bool.and_eq_true_iff.1 same
  have low := forall_mem_congr_of_beq (P := fun low => ¬ x < low)
    (fun h => not_congr (Double.order_congr h x).2.1) low
  have low' := forall_mem_congr_of_beq (P := fun low => ¬ x ≤ low)
    (fun h => not_congr (Double.order_congr h x).2.2.2) low'
  have high := forall_mem_congr_of_beq (P := fun high => ¬ high < x)
    (fun h => not_congr (Double.order_congr h x).1) high
  have high' := forall_mem_congr_of_beq (P := fun high => ¬ high ≤ x)
    (fun h => not_congr (Double.order_congr h x).2.2.1) high'
  have unit := forall_mem_congr_of_beq (P := fun unit => Double.isMultiple x unit = true)
    (fun h => by rw [Double.isMultiple_unit_congr h x]) unit
  constructor
  · rintro ⟨a, b, c, d, e⟩
    exact ⟨low.1 a, low'.1 b, high.1 c, high'.1 d, unit.1 e⟩
  · rintro ⟨a, b, c, d, e⟩
    exact ⟨low.2 a, low'.2 b, high.2 c, high'.2 d, unit.2 e⟩

theorem DecimalRange.admits_congr {range range' : DecimalRange} (same : (range == range') = true)
    (d : Decimal) : range.Admits d ↔ range'.Admits d := by
  obtain ⟨low, high⟩ := Bool.and_eq_true_iff.1 same
  have low := forall_mem_congr_of_beq (P := fun low => ¬ d < low)
    (fun h => by rw [Decimal.lt_iff, Decimal.lt_iff, Decimal.beq_iff.1 h]) low
  have high := forall_mem_congr_of_beq (P := fun high => ¬ high < d)
    (fun h => by rw [Decimal.lt_iff, Decimal.lt_iff, Decimal.beq_iff.1 h]) high
  constructor
  · rintro ⟨a, b⟩
    exact ⟨low.1 a, high.1 b⟩
  · rintro ⟨a, b⟩
    exact ⟨low.2 a, high.2 b⟩

/-! ## Patterns -/

/-- A pattern is what its source reads as. -/
def StringShape.ReadsPattern (shape : StringShape) : Prop :=
  ∀ p ∈ shape.pattern, Pattern.ofSource? p.source = some p

theorem Loading.Specified.readsPattern {shape : StringShape} (h : Specified (.string shape)) :
    shape.ReadsPattern := by
  obtain ⟨l, attrs, read⟩ := h
  obtain ⟨bounds, -, read⟩ := bind_eq_ok.1 read
  obtain ⟨source?, -, read⟩ := bind_eq_ok.1 read
  cases source? with
  | none =>
    cases read
    simp [StringShape.ReadsPattern]
  | some source =>
    dsimp only at read
    split at read
    · next pattern parsed =>
      cases read
      obtain ⟨regex, -, rfl⟩ := Option.map_eq_some_iff.1 parsed
      simpa [StringShape.ReadsPattern] using parsed
    · contradiction

theorem StringShape.eq_of_sources {shape shape' : StringShape} (read : shape.ReadsPattern)
    (read' : shape'.ReadsPattern) (same : (shape == shape') = true) : shape = shape' := by
  obtain ⟨low, high, pattern⟩ := shape
  obtain ⟨low', high', pattern'⟩ := shape'
  obtain ⟨low, same⟩ := Bool.and_eq_true_iff.1 same
  obtain ⟨high, source⟩ := Bool.and_eq_true_iff.1 same
  rw [eq_of_beq low, eq_of_beq high]
  obtain _ | p := pattern <;> obtain _ | p' := pattern'
  · rfl
  · contradiction
  · contradiction
  · have found := read p rfl
    rw [eq_of_beq (show (p.source == p'.source) = true from source), read' p' rfl] at found
    rw [found]

/-! ## Entries in any order -/

namespace OrderedMap

variable {α : Type} {m m' : OrderedMap α}

/-- Equal maps have the same entries. -/
theorem perm_of_beq [BEq α] [LawfulBEq α] (same : (m == m') = true) :
    m.entries.Perm m'.entries := by
  obtain ⟨length, bound⟩ := Bool.and_eq_true_iff.1 same
  have sub : m.entries ⊆ m'.entries := by
    rintro ⟨key, value⟩ mem
    obtain ⟨value', found, equal⟩ := (Option.any_eq_true _ _).1 (List.all_eq_true.1 bound _ mem)
    obtain rfl : value = value' := eq_of_beq equal
    exact get?_eq_some.1 found
  exact (List.subperm_of_subset (.of_map _ m.distinct) sub).perm_of_length_le
    (eq_of_beq length).ge

theorem get?_of_perm (perm : m.entries.Perm m'.entries) (key : String) :
    m.get? key = m'.get? key :=
  Option.ext fun value => by rw [get?_eq_some, get?_eq_some, perm.mem_iff]

end OrderedMap

/-! ## In what way equal types may differ -/

namespace TypeDef

/-- The types differ in nothing but the order of entries, how bounds are written, and in which of
two equal constants they have. -/
inductive Alike : TypeDef → TypeDef → Prop
  | same {type : TypeDef} : Alike type type
  | double {range range' : DoubleRange} :
    (∀ x, range.Admits x ↔ range'.Admits x) → Alike (.double range) (.double range')
  | decimal {range range' : DecimalRange} :
    (∀ d, range.Admits d ↔ range'.Admits d) → Alike (.decimal range) (.decimal range')
  | enum {e e' : Enumeration} :
    e.values.entries.Perm e'.values.entries → Alike (.enum e) (.enum e')
  | map {fields fields' : OrderedMap String} :
    fields.entries.Perm fields'.entries → Alike (.map ⟨some fields⟩) (.map ⟨some fields'⟩)
  | constant {c c' : Value} : c.Plain → c'.Plain → c.same c' = true → c'.same c = true →
    Alike (.constant c) (.constant c')

theorem Alike.symm {type type' : TypeDef} (h : type.Alike type') : type'.Alike type := by
  cases h with
  | same => exact .same
  | double admits => exact .double fun x => (admits x).symm
  | decimal admits => exact .decimal fun d => (admits d).symm
  | enum perm => exact .enum perm.symm
  | map perm => exact .map perm.symm
  | constant plain plain' equal equal' => exact .constant plain' plain equal' equal

end TypeDef

/-- Plain data has its keys as maps do. -/
theorem Value.Plain.keyed {c : Value} (h : c.Plain) : c.Keyed := by
  induction h with
  | null | bool | int | uint | double | string => exact .of_no_parts trivial rfl
  | list _ ih => exact ⟨trivial, ih⟩
  | map distinct _ ih => exact ⟨distinct, List.forall_mem_map.2 ih⟩

/-- Equal types as readers give them differ in nothing else. -/
theorem Loading.Specified.alike {type type' : TypeDef} (h : Specified type)
    (h' : Specified type') (equal : (type == type') = true) : type.Alike type' := by
  cases type with
  | any | null | bool | dateTime => exact h.elim
  | int | blob | bitfield | list | tuple | imap | «alias» | union =>
    cases type' <;> try contradiction
    rename_i part part'
    cases eq_of_beq (show (part == part') = true from equal)
    exact .same
  | string shape =>
    cases type' <;> try contradiction
    rw [StringShape.eq_of_sources h.readsPattern h'.readsPattern equal]
    exact .same
  | double range =>
    cases type' <;> try contradiction
    exact .double (DoubleRange.admits_congr equal)
  | decimal range =>
    cases type' <;> try contradiction
    exact .decimal (DecimalRange.admits_congr equal)
  | enum e =>
    cases type' <;> try contradiction
    exact .enum (OrderedMap.perm_of_beq equal)
  | map shape =>
    cases type' <;> try contradiction
    next shape' =>
      obtain ⟨_ | fields⟩ := shape <;> obtain ⟨_ | fields'⟩ := shape'
      · exact .same
      · contradiction
      · contradiction
      · exact .map (OrderedMap.perm_of_beq equal)
  | constant c =>
    cases type' <;> try contradiction
    obtain ⟨spec, rfl⟩ := h
    obtain ⟨spec', rfl⟩ := h'
    have plain := Value.ofJson_plain spec
    exact .constant plain (Value.ofJson_plain spec') equal (Value.same_symm plain.keyed equal)

/-! ## What equal types have in common -/

namespace TypeDef.Alike

open Registry

variable {type type' : TypeDef}

/-- Types that differ in nothing else accept the same values. -/
theorem accepts {r : Registry} {n : Nat} {v : Value} (alike : type.Alike type')
    (h : r.Accepts n type v) : r.Accepts n type' v := by
  cases alike with
  | same => exact h
  | double admits =>
    cases h with
    | double own => exact .double ((admits _).1 own)
  | decimal admits =>
    cases h with
    | decimal own => exact .decimal ((admits _).1 own)
  | enum perm =>
    cases h with
    | enumValue number member => exact .enumValue number ((perm.map Prod.snd).mem_iff.1 member)
    | enumAlias member => exact .enumAlias ((perm.map Prod.fst).mem_iff.1 member)
  | @map fields fields' perm =>
    have look := OrderedMap.get?_of_perm perm
    cases h with
    | map declared matched =>
      refine .map ?_ ?_ <;> rintro _ ⟨⟩ p mem
      · rw [← look]
        exact declared fields rfl p mem
      · rw [← look]
        exact matched fields rfl p mem
  | constant _ _ _ back =>
    cases h with
    | constant equal => exact .constant (Value.same_trans back equal)

theorem accepts_iff {r : Registry} {n : Nat} {v : Value} (alike : type.Alike type') :
    r.Accepts n type v ↔ r.Accepts n type' v :=
  ⟨alike.accepts, alike.symm.accepts⟩

/-- The largest value of an enumeration does not depend on the order. -/
theorem maxValue?_of_perm {e e' : Enumeration}
    (perm : e.values.entries.Perm e'.values.entries) : e.maxValue? = e'.maxValue? := by
  have values := perm.map Prod.snd
  refine Option.ext fun largest => ?_
  rw [Enumeration.maxValue?, Enumeration.maxValue?, List.max?_eq_some_iff, List.max?_eq_some_iff]
  exact and_congr values.mem_iff (forall_congr' fun k => imp_congr_left values.mem_iff)

theorem spanOf_eq (alike : type.Alike type') : spanOf type = spanOf type' := by
  cases alike with
  | enum perm => rw [spanOf, spanOf, maxValue?_of_perm perm]
  | _ => rfl

theorem bodySize?_eq (alike : type.Alike type') (size : String → Option Nat) :
    bodySize? size type = bodySize? size type' := by
  cases alike with
  | same | double | decimal => rfl
  | enum perm => rw [bodySize?, bodySize?, maxValue?_of_perm perm]
  | map perm =>
    rw [bodySize?_map rfl, bodySize?_map rfl, sumSizes?_perm (perm.map _)]
  | constant plain plain' equal equal' =>
    exact (plain'.atMost_of_same plain.keyed equal').antisymm
      (plain.atMost_of_same plain'.keyed equal)

end TypeDef.Alike

/-! ## The estimate of a name -/

namespace Registry

variable {r : Registry} {name : String} {type : TypeDef}

theorem map_entries_congr {κ : Type} {entries : List (κ × String)} {f g : String → Option Nat}
    (key : κ → Option Nat) (same : ∀ target ∈ entries.map Prod.snd, f target = g target) :
    (entries.map fun p => plus (key p.1) (f p.2)) = entries.map fun p => plus (key p.1) (g p.2) :=
  List.map_congr_left fun p mem => by rw [same p.2 (List.mem_map_of_mem mem)]

/-- The estimate of a type asks for the estimates of the names that it embeds, and for no others. -/
theorem bodySize?_congr {f g : String → Option Nat}
    (same : ∀ target ∈ type.embedded, f target = g target) :
    bodySize? f type = bodySize? g type := by
  cases type with
  | list shape =>
    obtain ⟨_ | allowed, low, _ | _ | count⟩ := shape <;> try rfl
    -- only where there may be items, there is an item to be estimated
    show (f allowed).map _ = (g allowed).map _
    rw [same allowed (List.mem_singleton_self _)]
  | tuple shape =>
    rw [bodySize?, bodySize?, List.map_congr_left (l := shape.items) same]
  | map shape =>
    obtain ⟨_ | fields⟩ := shape
    · rfl
    · rw [bodySize?_map rfl, bodySize?_map rfl, map_entries_congr ofText? same]
  | imap shape =>
    obtain ⟨_ | fields, enumName⟩ := shape
    · rfl
    · rw [bodySize?_imap rfl, bodySize?_imap rfl, map_entries_congr ofInt? same]
  | «alias» target => exact same target (List.mem_singleton_self _)
  | union members =>
    rw [bodySize?, bodySize?, List.map_congr_left (l := members) same]
  | _ => rfl

theorem sizeFrom?_of_absent (absent : r.get? name = none) (path : List String) :
    r.sizeFrom? path name = none := by
  rw [sizeFrom?]
  split
  · rfl
  · split
    · rfl
    · next found => cases absent.symm.trans found

/-- Without a cycle, it does not matter which names have led to a name. -/
theorem sizeFrom?_of_acyclic (acyclic : r.Acyclic) {path : List String}
    (above : ∀ q ∈ path, Relation.TransGen r.Refers q name) :
    r.sizeFrom? path name = r.packedSize? name := by
  induction acyclic name generalizing path with
  | intro name _ ih =>
    rw [packedSize?]
    cases found : r.get? name with
    | none => rw [sizeFrom?_of_absent found, sizeFrom?_of_absent found]
    | some type =>
      have new : name ∉ path := fun mem => not_refers_self acyclic name (above name mem)
      rw [sizeFrom?_eq found new, sizeFrom?_eq found List.not_mem_nil]
      refine bodySize?_congr fun target mem => ?_
      have refers : r.Refers name target := Embeds.refers ⟨type, found, mem⟩
      rw [ih target refers (reaches_of_mem_cons above (.single refers)),
        ih target refers (List.forall_mem_singleton.2 (.single refers))]

/-- Without a cycle, the estimate of a name is that of its type, whatever the name. -/
theorem packedSize?_eq_bodySize? (acyclic : r.Acyclic) (found : r.get? name = some type) :
    r.packedSize? name = bodySize? r.packedSize? type := by
  rw [packedSize?, sizeFrom?_eq found List.not_mem_nil]
  refine bodySize?_congr fun target mem => sizeFrom?_of_acyclic acyclic ?_
  exact List.forall_mem_singleton.2 (.single (Embeds.refers ⟨type, found, mem⟩))

end Registry

end DeviceTree
