import DeviceTree.Proofs.Completion
import DeviceTree.Proofs.Mismatches
import DeviceTree.Proofs.Validity

/-!
# How deep types nest

A check enters the types that a type embeds, one level deeper each. `NestsWithin` bounds the levels
that are there to enter. Chains of references bound them (`ChainsWithin.nestsWithin`), and without a
cycle, no chain is longer than there are types, and one name more (`chainsWithin_of_acyclic`).

Within the bound, the depth of a derivation does not matter (`Matches.of_nestsWithin`) and no check
ends for lack of levels (`checkType_hasLevels`). Beyond the limit of the checker, both fail: a name
at the end of more aliases than there are levels has no valid values (`validate_of_long_chain`).
-/

namespace DeviceTree

open Loading

namespace Registry

/-- At most `n` types are nested one in another from the named one on, itself included. -/
def NestsWithin (r : Registry) : Nat → String → Prop
  | 0, _ => False
  | n + 1, name => ∀ target, r.Embeds name target → r.NestsWithin n target

/-- No chain of references visits more than `n` types. -/
def ChainsWithin (r : Registry) (n : Nat) : Prop :=
  ∀ chain : List String, chain.IsChain r.Refers → chain.length ≤ n

variable {r : Registry} {m n : Nat} {name : String} {type : TypeDef} {v : Value}

theorem Embeds.refers {target : String} (h : r.Embeds name target) : r.Refers name target := by
  obtain ⟨type, found, mem⟩ := h
  exact ⟨type, found, TypeDef.mem_references_of_mem_embedded mem⟩

/-- Without a cycle, a registered name is not on the path that has led to it. -/
theorem unvisited_cons_lt (acyclic : r.Acyclic) {path : List String}
    (found : r.get? name = some type) (above : ∀ q ∈ path, Relation.TransGen r.Refers q name) :
    r.unvisited (name :: path) < r.unvisited path :=
  unvisited_lt (mem_names_of_get? found)
    (fun mem => not_refers_self acyclic name (above name mem)) (by simp)

/-- Types nest no deeper than chains of references are long. -/
theorem nestsWithin_of_chains
    (short : ∀ rest, (name :: rest).IsChain r.Refers → rest.length < n) : r.NestsWithin n name := by
  induction n generalizing name with
  | zero => exact absurd (short [] (.singleton _)) (Nat.not_lt_zero _)
  | succ n ih =>
    intro target embeds
    refine ih fun rest chain => ?_
    exact Nat.lt_of_succ_lt_succ (short (target :: rest) (.cons_cons embeds.refers chain))

theorem ChainsWithin.nestsWithin (chains : r.ChainsWithin n) (name : String) :
    r.NestsWithin n name :=
  nestsWithin_of_chains fun _ chain => chains _ chain

/-- Without a cycle, a chain of references visits no type twice. -/
theorem length_le_of_isChain (acyclic : r.Acyclic) (path : List String) {rest : List String}
    (chain : (name :: rest).IsChain r.Refers)
    (above : ∀ q ∈ path, Relation.TransGen r.Refers q name) :
    rest.length ≤ r.unvisited path := by
  induction rest generalizing name path with
  | nil => exact Nat.zero_le _
  | cons target rest ih =>
    obtain ⟨refers, chain⟩ := List.isChain_cons_cons.1 chain
    have left := ih (name :: path) chain (reaches_of_mem_cons above (.single refers))
    obtain ⟨type, found, -⟩ := refers
    have fewer := unvisited_cons_lt acyclic found above
    rw [List.length_cons]
    omega

/-- No more names are left to visit than there are types. -/
theorem unvisited_le_size (path : List String) : r.unvisited path ≤ r.size := by
  have names : r.names.length = r.size := List.length_map _
  rw [← names]
  exact List.length_filter_le _ _

theorem chainsWithin_of_acyclic (acyclic : r.Acyclic) : r.ChainsWithin (r.size + 1) := by
  intro chain refers
  cases chain with
  | nil => exact Nat.zero_le _
  | cons name rest =>
    have few := length_le_of_isChain acyclic [] refers (by simp)
    have keys := r.unvisited_le_size []
    rw [List.length_cons]
    omega

theorem nestsWithin_of_acyclic (acyclic : r.Acyclic) (name : String) :
    r.NestsWithin (r.size + 1) name :=
  (chainsWithin_of_acyclic acyclic).nestsWithin name

/-! ## Derivations -/

/-- A derivation for a type is made of those for its parts, in another registry or of another
depth. Bitfields have no parts; their rule asks which bits the registry assigns. -/
theorem Accepts.rebuild {r' : Registry}
    (assigns : ∀ b, type = .bitfield b → ∀ i, r.Assigns b i → r'.Assigns b i)
    (parts : ∀ target ∈ type.embedded, ∀ part, r.Matches n target part → r'.Matches m target part)
    (h : r.Accepts (n + 1) type v) : r'.Accepts (m + 1) type v := by
  cases h with
  | any => exact .any
  | null => exact .null
  | bool => exact .bool
  | dateTime => exact .dateTime
  | int found admits => exact .int found admits
  | double admits => exact .double admits
  | decimal admits => exact .decimal admits
  | string admits => exact .string admits
  | blob length => exact .blob length
  | enumValue found member => exact .enumValue found member
  | enumAlias member => exact .enumAlias member
  | bitfield found assigned => exact .bitfield found fun i set => assigns _ rfl i (assigned i set)
  | list length items =>
    exact .list length fun typeName given item mem =>
      parts _ (Option.mem_toList.2 given) _ (items typeName given item mem)
  | tuple arity items =>
    exact .tuple arity fun p mem => parts _ (List.of_mem_zip mem).1 _ (items p mem)
  | map declared items =>
    refine .map declared fun fields given p mem typeName found => ?_
    exact parts _ (TypeDef.mem_embedded_map given found) _ (items fields given p mem typeName found)
  | imap declared items =>
    refine .imap declared fun fields given p mem typeName found => ?_
    exact parts _ (TypeDef.mem_embedded_imap given found) _
      (items fields given p mem typeName found)
  | aliasTo matched => exact .aliasTo (parts _ (List.mem_singleton_self _) _ matched)
  | union mem matched => exact .union mem (parts _ mem _ matched)
  | constant same => exact .constant same

/-- A derivation for a type has the depth of those for its parts, and one level more. -/
theorem Accepts.of_parts
    (parts : ∀ target ∈ type.embedded, ∀ part, r.Matches n target part → r.Matches m target part)
    (h : r.Accepts (n + 1) type v) : r.Accepts (m + 1) type v :=
  h.rebuild (fun _ _ _ => id) parts

theorem Matches.mono (h : r.Matches n name v) (le : n ≤ m) : r.Matches m name v := by
  induction n generalizing m name v with
  | zero =>
    obtain ⟨-, accepts⟩ := h
    cases accepts
  | succ n ih =>
    obtain ⟨found, accepts⟩ := h
    cases m with
    | zero => omega
    | succ m =>
      exact .named found (accepts.of_parts fun target _ part matched => ih matched (by omega))

/-- Where at most `m` types are nested, derivations need no more levels. -/
theorem Matches.of_nestsWithin (nests : r.NestsWithin m name) (h : r.Matches n name v) :
    r.Matches m name v := by
  induction m generalizing n name v with
  | zero => contradiction
  | succ m ih =>
    obtain ⟨found, accepts⟩ := h
    cases n with
    | zero => cases accepts
    | succ n =>
      refine .named found (accepts.of_parts fun target mem part matched => ?_)
      exact ih (nests target ⟨_, found, mem⟩) matched

end Registry

/-! ## Checks that run out of levels -/

/-- The mismatch is not that types nest too deep. -/
def Mismatch.HasLevels (m : Mismatch) : Prop :=
  ∀ limit, m ≠ .tooDeep limit

theorem Mismatch.hasLevels_of_aboutValue (m : Mismatch) (h : m.aboutValue = true) :
    m.HasLevels := by
  rintro limit rfl
  contradiction

namespace Registry

variable {r : Registry} {levels : Nat} {name : String} {type : TypeDef}

/-- A check with a level for each nested type does not run out of levels. -/
theorem checkType_hasLevels (nests : ∀ target ∈ type.embedded, r.NestsWithin levels target)
    (v : Value) :
    (Validation.checkType r (levels + 1) name type v).Fails Mismatch.HasLevels := by
  induction levels generalizing name type v with
  | zero =>
    refine Validation.checkBody_fails Mismatch.hasLevels_of_aboutValue fun target mem part => ?_
    exact absurd (nests target mem) id
  | succ levels ih =>
    refine Validation.checkBody_fails Mismatch.hasLevels_of_aboutValue fun target mem part => ?_
    split
    · next type' found =>
      exact ih (fun target' mem' => nests target mem target' ⟨type', found, mem'⟩) part
    · exact .mismatch (by rintro _ ⟨⟩)

theorem validate_hasLevels (nests : r.NestsWithin Validation.depthLimit name) (v : Value) :
    (r.validate name v).Fails Mismatch.HasLevels := by
  rw [validate_eq]
  split
  · next type found =>
    exact checkType_hasLevels (fun target mem => nests target ⟨type, found, mem⟩) v
  · exact .mismatch (by rintro _ ⟨⟩)

/-- A chain of aliases that has more names left than there are levels ends in a mismatch, whatever
the value. -/
theorem checkType_of_long_chain (closed : r.Closed) (chain : List String)
    (long : chain.length + levels < (r.aliasesFrom chain name).length)
    (found : r.get? name = some type) (v : Value) :
    ∃ last, Validation.checkType r levels name type v =
      mismatch last (.tooDeep Validation.depthLimit) := by
  induction levels generalizing chain name type with
  | zero => exact ⟨name, rfl⟩
  | succ levels ih =>
    by_cases seen : name ∈ chain
    · rw [aliasesFrom, dif_pos seen] at long
      omega
    cases type with
    | «alias» target =>
      rw [aliasesFrom_alias found seen] at long
      have refers : r.Refers name target := ⟨_, found, List.mem_singleton_self _⟩
      obtain ⟨type', found'⟩ := contains_iff.1 (closed name target refers)
      have left : (chain ++ [name]).length + levels <
          (r.aliasesFrom (chain ++ [name]) target).length := by
        rw [List.length_append, List.length_singleton]
        omega
      rw [Validation.checkType, Validation.checkBody, found']
      exact ih (chain ++ [name]) left found'
    | _ =>
      rw [aliasesFrom_plain (by simp [found]) seen, List.length_append,
        List.length_singleton] at long
      omega

/-- A name with more aliases to follow than the checker has levels has no valid values. -/
theorem validate_of_long_chain (closed : r.Closed)
    (long : Validation.depthLimit < (r.aliases name).length) (v : Value) :
    ∃ last, r.validate name v = mismatch last (.tooDeep Validation.depthLimit) := by
  cases found : r.get? name with
  | none =>
    rw [aliases, aliasesFrom_plain (by simp [found]) List.not_mem_nil] at long
    contradiction
  | some type =>
    rw [validate_eq, found]
    refine checkType_of_long_chain closed [] ?_ found v
    rw [List.length_nil, Nat.zero_add]
    exact long

end Registry

/-! ## Towers of aliases -/

/-- The names of the floors of a tower; the ground is `Int`. -/
def floorName : Nat → String
  | 0 => "Int"
  | n + 1 => "t" ++ toString n

/-- A tower: every floor is another name of the floor below. -/
def towerTypes (height : Nat) : List (String × Json) :=
  (List.range height).map fun n => (floorName (n + 1), .str (floorName n))

/-- No floor above the ground has a name of the fresh registry: none of these starts so. -/
theorem entry?_fresh_floorName (n : Nat) : Registry.fresh.entry? (floorName (n + 1)) = none := by
  have starts : ∀ p ∈ Registry.fresh.entries.entries, p.1.toList.head? ≠ some 't' := by decide
  rw [Option.eq_none_iff_forall_ne_some]
  intro e found
  refine starts _ (OrderedMap.get?_eq_some.1 found) ?_
  simp [floorName]

theorem floorName_succ_ne_ground (n : Nat) : floorName (n + 1) ≠ "Int" := by
  intro same
  have absent := entry?_fresh_floorName n
  rw [same] at absent
  contradiction

theorem floorName_inj {m n : Nat} (h : floorName m = floorName n) : m = n := by
  cases m with
  | zero =>
    cases n with
    | zero => rfl
    | succ n => exact absurd h.symm (floorName_succ_ne_ground n)
  | succ m =>
    cases n with
    | zero => exact absurd h (floorName_succ_ne_ground m)
    | succ n => rw [Nat.repr_inj.1 ((String.append_right_inj "t").1 h)]

/-- A registry with the floors of a tower, and nothing else but what every registry has. -/
structure Registry.Tower (r : Registry) (height : Nat) : Prop where
  floors : ∀ n < height, r.entry? (floorName (n + 1)) = some ⟨.alias (floorName n), .custom⟩
  rest : ∀ name, (∀ n < height, name ≠ floorName (n + 1)) →
    r.entry? name = Registry.fresh.entry? name

namespace Registry.Tower

variable {r : Registry} {height n : Nat} {name : String}

theorem ground (h : r.Tower height) : r.entry? "Int" = some ⟨.int {}, .core⟩ :=
  h.rest "Int" fun n _ => (floorName_succ_ne_ground n).symm

theorem get?_floorName (h : r.Tower height) (low : n < height) :
    r.get? (floorName (n + 1)) = some (.alias (floorName n)) :=
  get?_of_bound (h.floors n low)

theorem contains_floorName (h : r.Tower height) (low : n ≤ height) :
    r.contains (floorName n) = true := by
  cases n with
  | zero => rw [floorName, contains, h.ground, Option.isSome_some]
  | succ n => rw [contains, h.floors n low, Option.isSome_some]

theorem custom (h : r.Tower height) {type : TypeDef}
    (found : r.entry? name = some ⟨type, .custom⟩) :
    ∃ n < height, name = floorName (n + 1) ∧ type = .alias (floorName n) := by
  by_cases floor : ∃ n < height, name = floorName (n + 1)
  · obtain ⟨n, low, rfl⟩ := floor
    cases (h.floors n low).symm.trans found
    exact ⟨n, low, rfl, rfl⟩
  · rw [h.rest name fun n low same => floor ⟨n, low, same⟩] at found
    exact absurd rfl (fresh_origin found)

theorem hasCore (h : r.Tower height) : r.HasCore := by
  intro name e core
  by_cases floor : ∃ n < height, name = floorName (n + 1)
  · obtain ⟨n, low, rfl⟩ := floor
    rw [h.floors n low, entry?_fresh_floorName]
    constructor
    · rintro ⟨⟩
      contradiction
    · nofun
  · rw [h.rest name fun n low same => floor ⟨n, low, same⟩]

theorem acyclic (h : r.Tower height) : r.Acyclic := by
  have floor (n : Nat) (low : n ≤ height) :
      Acc (fun target name => r.Refers name target) (floorName n) := by
    induction n with
    | zero => exact acc_core h.hasCore (e := ⟨.int {}, .core⟩) rfl
    | succ n ih =>
      refine ⟨_, fun target refers => ?_⟩
      obtain ⟨type, found, mem⟩ := refers
      cases (h.get?_floorName low).symm.trans found
      rw [List.mem_singleton.1 mem]
      exact ih (by omega)
  refine acyclic_of_custom h.hasCore fun name type found => ?_
  obtain ⟨n, low, rfl, -⟩ := h.custom found
  exact floor (n + 1) low

theorem checkReferences (h : r.Tower height) : r.checkReferences = .ok () := by
  refine checkReferences_of_contains fun name type found target mem => ?_
  obtain ⟨n, low, -, rfl⟩ := h.custom found
  rw [List.mem_singleton.1 mem]
  exact h.contains_floorName (by omega)

end Registry.Tower

namespace Loading

/-- Another floor is put on a tower. -/
theorem loadType_floor {s : State} {height : Nat} (tower : s.registry.Tower height) :
    ∃ r, loadType (floorName (height + 1)) (.str (floorName height)) s =
      .ok ((), { s with registry := r }) ∧ r.Tower (height + 1) := by
  have other {n : Nat} (low : n < height) : floorName (n + 1) ≠ floorName (height + 1) := by
    intro same
    have := floorName_inj same
    omega
  have free : s.registry.contains (floorName (height + 1)) = false := by
    rw [Registry.contains, tower.rest _ fun n low => (other low).symm, entry?_fresh_floorName,
      Option.isSome_none]
  obtain ⟨r, defined⟩ : ∃ r, s.registry.define (floorName (height + 1))
      (.alias (floorName height)) = .ok r :=
    ⟨_, by rw [Registry.define, free]; rfl⟩
  obtain ⟨-, entries⟩ := Registry.define_eq_ok defined
  refine ⟨r, ?_, fun n low => ?_, fun name not => ?_⟩
  · refine bind_run.2 ⟨.alias (floorName height), s, ?_, ?_⟩
    · rw [specifiedType]
      rfl
    · exact define_run.2 ⟨r, defined, rfl⟩
  · rw [entries]
    by_cases top : n = height
    · rw [top, if_pos rfl]
    · have low : n < height := by omega
      rw [if_neg (other low), tower.floors n low]
  · rw [entries, if_neg (not height (by omega)), tower.rest name fun n low => not n (by omega)]

theorem run_towerTypes {s : State} (fresh : s.registry.Tower 0) (height : Nat) :
    ∃ r, ((towerTypes height).forM fun (name, spec) => loadType name spec) s =
      .ok ((), { s with registry := r }) ∧ r.Tower height := by
  induction height with
  | zero => exact ⟨s.registry, rfl, fresh⟩
  | succ height ih =>
    obtain ⟨r, run, tower⟩ := ih
    obtain ⟨r', last, tower'⟩ := loadType_floor (s := { s with registry := r }) tower
    refine ⟨r', ?_, tower'⟩
    rw [towerTypes, List.range_succ, List.map_append, List.forM_eq_forM, List.forM_append]
    refine bind_run.2 ⟨(), _, run, ?_⟩
    exact bind_run.2 ⟨(), _, last, rfl⟩

theorem declareNames_eq_ok {r : Registry} {declared names : List String}
    (free : ∀ name ∈ names, r.contains name = false) (distinct : (declared ++ names).Nodup) :
    declareNames r declared names = .ok (declared ++ names) := by
  induction names generalizing declared with
  | nil => rw [declareNames, List.append_nil]
  | cons name rest ih =>
    rw [List.forall_mem_cons] at free
    have new : name ∉ declared := fun mem =>
      (List.nodup_append.1 distinct).2.2 name mem name (List.mem_cons_self ..) rfl
    rw [List.append_cons] at distinct ⊢
    rw [declareNames, free.1, if_neg (by simpa using new), ih free.2 distinct]

theorem complete_tower {s : State} {height : Nat} (tower : s.registry.Tower height)
    (bitfields : s.bitfields = []) (imaps : s.imaps = []) (enumRefs : s.enumRefs = []) :
    complete s = .ok s.registry := by
  have cycles := Registry.checkCycles_of_acyclic tower.acyclic
  rw [complete, enumRefs, imaps, bitfields]
  show (s.registry.checkReferences >>= fun _ => s.registry.checkCycles >>= fun _ =>
    layoutBitfields s.registry []) = _
  rw [tower.checkReferences, cycles]
  rfl

/-- Towers of any height load. -/
theorem loadTypes_towerTypes (height : Nat) :
    ∃ r, loadTypes (towerTypes height) = .ok r ∧ r.Tower height := by
  have names : (towerTypes height).map Prod.fst =
      (List.range height).map fun n => floorName (n + 1) := by
    rw [towerTypes, List.map_map]
    rfl
  have declared : declareNames .fresh [] ((towerTypes height).map Prod.fst) =
      .ok ((towerTypes height).map Prod.fst) := by
    refine declareNames_eq_ok (fun name mem => ?_) ?_
    · rw [names] at mem
      obtain ⟨n, -, rfl⟩ := List.mem_map.1 mem
      rw [Registry.contains, entry?_fresh_floorName, Option.isSome_none]
    · rw [List.nil_append, names]
      exact List.nodup_range.map fun m n same => Nat.succ_inj.1 (floorName_inj same)
  obtain ⟨r, run, tower⟩ := run_towerTypes
    (s := { registry := .fresh, declared := (towerTypes height).map Prod.fst })
    ⟨by simp, fun _ _ => rfl⟩ height
  refine ⟨r, ?_, tower⟩
  rw [loadTypes, declared]
  show (((towerTypes height).forM fun (name, spec) => loadType name spec).run _ >>=
    fun p => complete p.2) = _
  rw [StateT.run, run]
  exact complete_tower (s := { registry := r, declared := _ }) tower rfl rfl rfl

end Loading

namespace Registry

namespace Tower

variable {r : Registry} {height n : Nat}

/-- From a floor on, the floors below are nested and the ground. -/
theorem nestsWithin (h : r.Tower height) (low : n ≤ height) :
    r.NestsWithin (n + 1) (floorName n) := by
  induction n with
  | zero =>
    rintro target ⟨type, found, mem⟩
    rw [floorName, get?, h.ground] at found
    cases found
    contradiction
  | succ n ih =>
    rintro target ⟨type, found, mem⟩
    cases (h.get?_floorName low).symm.trans found
    rw [List.mem_singleton.1 mem]
    exact ih (by omega)

theorem matches_floorName (h : r.Tower height) (low : n ≤ height) (k : Int64) :
    r.Matches (n + 1) (floorName n) (.int k) := by
  induction n with
  | zero =>
    have found : r.get? "Int" = some (.int {}) := get?_of_bound h.ground
    exact .named found (.int rfl (by constructor <;> simp))
  | succ n ih => exact .named (h.get?_floorName low) (.aliasTo (ih (by omega)))

theorem length_aliasesFrom (h : r.Tower height) (low : n ≤ height) (chain : List String)
    (unseen : ∀ m ≤ n, floorName m ∉ chain) :
    (r.aliasesFrom chain (floorName n)).length = chain.length + (n + 1) := by
  induction n generalizing chain with
  | zero =>
    have plain : ∀ target, r.get? (floorName 0) ≠ some (.alias target) := by
      simp [floorName, get?, h.ground]
    rw [aliasesFrom_plain plain (unseen 0 (by omega)), List.length_append]
    rfl
  | succ n ih =>
    have unseen' (m : Nat) (le : m ≤ n) : floorName m ∉ chain ++ [floorName (n + 1)] := by
      rw [List.mem_append, List.mem_singleton, not_or]
      refine ⟨unseen m (by omega), fun same => ?_⟩
      have := floorName_inj same
      omega
    rw [aliasesFrom_alias (h.get?_floorName low) (unseen _ (by omega)),
      ih (by omega) _ unseen', List.length_append, List.length_singleton]
    omega

end Tower

/-! ## The limit of the checker -/

/-- In a loaded registry, no derivation is deeper than there are types. Where at most 64 types are
nested from a name on, validation does not run out of levels and accepts what belongs to the type at
any depth; at the end of more than 64 aliases in a row, it accepts nothing. -/
theorem validate_iff_matches_of_nestsWithin {types : List (String × Json)} {r : Registry}
    (loads : loadTypes types = .ok r) (name : String) :
    (∀ v, (∃ n, r.Matches n name v) ↔ r.Matches (r.size + 1) name v) ∧
      (r.NestsWithin 64 name → ∀ v, (r.validate name v).Fails Mismatch.HasLevels ∧
        (r.validate name v = .ok () ↔ ∃ n, r.Matches n name v)) ∧
      (64 < (r.aliases name).length → ∀ v, ∃ last,
        r.validate name v = mismatch last (.tooDeep 64)) := by
  have loaded := loadTypes_loaded loads
  refine ⟨fun v => ⟨?_, fun h => ⟨_, h⟩⟩, fun nests v => ⟨validate_hasLevels nests v, ?_⟩, ?_⟩
  · rintro ⟨n, h⟩
    exact h.of_nestsWithin (nestsWithin_of_acyclic loaded.acyclic name)
  · rw [validate_eq_ok]
    constructor
    · exact fun h => ⟨_, h⟩
    · rintro ⟨n, h⟩
      exact h.of_nestsWithin nests
  · exact fun long v => validate_of_long_chain loaded.closed long v

/-- From the top of a tower of 63 floors, 64 types are nested, and integers are still valid. -/
theorem tower_valid : ∃ r, loadTypes (towerTypes 63) = .ok r ∧ r.NestsWithin 64 (floorName 63) ∧
    r.validate (floorName 63) (.int 1) = .ok () := by
  obtain ⟨r, loads, tower⟩ := loadTypes_towerTypes 63
  have nests := tower.nestsWithin (Nat.le_refl 63)
  obtain ⟨-, exact, -⟩ := validate_iff_matches_of_nestsWithin loads (floorName 63)
  refine ⟨r, loads, nests, (exact nests (.int 1)).2.2 ⟨64, ?_⟩⟩
  exact tower.matches_floorName (Nat.le_refl 63) 1

/-- With one more floor, the integers belong to the type of the top as before, and none is valid. -/
theorem tower_tooDeep : ∃ r, loadTypes (towerTypes 64) = .ok r ∧ ∀ k : Int64,
    (∃ n, r.Matches n (floorName 64) (.int k)) ∧
      ∃ last, r.validate (floorName 64) (.int k) = mismatch last (.tooDeep 64) := by
  obtain ⟨r, loads, tower⟩ := loadTypes_towerTypes 64
  refine ⟨r, loads, fun k => ⟨⟨65, tower.matches_floorName (Nat.le_refl 64) k⟩, ?_⟩⟩
  refine validate_of_long_chain (loadTypes_loaded loads).closed ?_ (.int k)
  rw [aliases, tower.length_aliasesFrom (Nat.le_refl 64) [] (by simp)]
  decide

end Registry

end DeviceTree
