import DeviceTree.Proofs.Completion
import DeviceTree.Proofs.Sizes
import DeviceTree.Proofs.Validity

/-!
# Words divided into fields

The bitfields of a loaded registry are laid out (`bitfield_laidOut`), so a word is known from the
raw values of its fields, up to the bits that no field with data covers; words that are valid have
none of these set.

What is decoded tells the raw values apart (`eq_of_fieldValue?_same`) as long as each field keeps a
key of its own. Keys are aliases of offsets or offsets as text, and a text can be both: `KeysApart`
says that none is, and `lossless_iff` that exactly then nothing is lost.
-/

namespace DeviceTree

open Loading

namespace BitField

theorem testBit_extract (f : BitField) (bits : UInt64) (i : Nat) :
    (f.extract bits).testBit i = (decide (i < f.width) && bits.toNat.testBit (f.offset + i)) := by
  unfold extract
  dsimp only
  split
  · rw [Nat.testBit_shiftRight]
    by_cases inside : i < f.width
    · simp [inside]
    · have word : bits.toNat < 2 ^ (f.offset + i) :=
        Nat.lt_of_lt_of_le bits.toNat_lt (Nat.pow_le_pow_right (by decide) (by omega))
      rw [Nat.testBit_lt_two_pow word, Bool.and_false]
  · rw [Nat.one_shiftLeft, Nat.testBit_mod_two_pow, Nat.testBit_shiftRight]

theorem extract_lt (f : BitField) (bits : UInt64) : f.extract bits < 2 ^ f.width := by
  refine Nat.lt_pow_two_of_testBit _ fun i outside => ?_
  rw [testBit_extract, decide_eq_false (by omega), Bool.false_and]

end BitField

/-- An alias has one value. -/
theorem Enumeration.eq_of_alias? {e : Enumeration} {label : String} {k k' : Int}
    (h : e.alias? k = some label) (h' : e.alias? k' = some label) : k = k' := by
  have value {k : Int} (h : e.alias? k = some label) : e.values.get? label = some k := by
    obtain ⟨⟨_, v⟩, found, rfl⟩ := Option.map_eq_some_iff.1 h
    have same : v = k := by simpa using List.find?_some found
    exact OrderedMap.get?_eq_some.2 (same ▸ List.mem_of_find?_eq_some found)
  exact Option.some.inj ((value h).symm.trans (value h'))

namespace Registry

variable {r : Registry} {name : String} {b : BitfieldShape} {f g : BitField}

/-! ## Layouts -/

namespace LaidOut

theorem one_le (h : r.LaidOut b) (mem : f ∈ b.fields) : 1 ≤ f.width :=
  one_le_of_bitSpan (h.widths f mem)

theorem ascending (h : r.LaidOut b) : b.fields.Pairwise fun f g => f.offset < g.offset := by
  refine h.ordered.imp_of_mem fun mem _ before => ?_
  have := h.one_le mem
  omega

theorem disjoint (h : r.LaidOut b) :
    b.fields.Pairwise fun f g => ∀ i, ¬ (f.covers i = true ∧ g.covers i = true) := by
  refine h.ordered.imp fun before i both => ?_
  simp only [BitField.covers, Bool.and_eq_true, decide_eq_true_eq] at both
  omega

/-- The offsets of the fields are distinct. -/
theorem offsets_nodup (h : r.LaidOut b) : (b.fields.map (·.offset)).Nodup :=
  List.pairwise_map.2 (h.ascending.imp Nat.ne_of_lt)

end LaidOut

/-- In a loaded registry, the fields of every bitfield ascend without overlap in a word of 64 bits,
each as wide as the values of its type, and only a bitfield without fields is as it was before its
layout. -/
theorem bitfield_laidOut {types : List (String × Json)} {r : Registry} {name : String}
    {b : BitfieldShape} (loads : loadTypes types = .ok r)
    (found : r.get? name = some (.bitfield b)) :
    (b.fields.Pairwise fun f g => f.offset < g.offset) ∧
      (b.fields.Pairwise fun f g => ∀ i, ¬ (f.covers i = true ∧ g.covers i = true)) ∧
      (∀ f ∈ b.fields, 1 ≤ f.width ∧ f.offset + f.width ≤ 64 ∧
        r.bitSpan f.typeName = some f.width) ∧
      ∀ p : PendingBitfield, b = p.placeholder → b.fields = [] := by
  have laid := (loadTypes_loaded loads).layouts name b found
  refine ⟨laid.ascending, laid.disjoint,
    fun f mem => ⟨laid.one_le mem, laid.inWord f mem, laid.widths f mem⟩, fun p same => ?_⟩
  refine List.eq_nil_iff_forall_not_mem.2 fun f mem => ?_
  have wide := laid.one_le mem
  rw [same, PendingBitfield.placeholder] at mem
  obtain ⟨typeName, -, rfl⟩ := List.mem_map.1 mem
  contradiction

/-- A code of two bits with a gap, under another name in a status that is declared before it. -/
def statusTypes : List (String × Json) :=
  [("status", .obj [("type", .str "Bitfield"), ("types", .arr [.str "code", .str "Bool"])]),
    ("code", .str "word"),
    ("word", .obj [("type", .str "Bitfield"), ("types", .arr [.str "Bool", .null, .str "Bool"])])]

/-- The status is laid out after the word, which takes three bits in it. -/
theorem statusTypes_laidOut :
    ∃ r, loadTypes statusTypes = .ok r ∧
      r.get? "status" = some (.bitfield ⟨[⟨0, 3, "code"⟩, ⟨3, 1, "Bool"⟩], none⟩) ∧
      r.bitSpan "code" = some 3 := by
  have run : (fun r : Registry => r.get? "status") <$> loadTypes statusTypes =
      .ok (some (.bitfield ⟨[⟨0, 3, "code"⟩, ⟨3, 1, "Bool"⟩], none⟩)) := by cbv
  obtain ⟨r, loads, found⟩ := map_eq_ok.1 run
  obtain ⟨-, -, fields, -⟩ := bitfield_laidOut loads found
  exact ⟨r, loads, found, (fields _ (List.mem_cons_self ..)).2.2⟩

/-! ## Fields with data -/

/-- The type of the field stands for a type other than null. -/
def holdsData (r : Registry) (f : BitField) : Bool :=
  match r.resolve? f.typeName with
  | some .null => false
  | _ => true

/-- The fields that hold data, in order. -/
def dataFields (r : Registry) (b : BitfieldShape) : List BitField :=
  b.fields.filter r.holdsData

theorem holdsData_iff : r.holdsData f = true ↔ r.resolve? f.typeName ≠ some .null := by
  rw [holdsData]
  split <;> simp_all

theorem fieldValue?_isSome (raw : Nat) : (r.fieldValue? f raw).isSome = r.holdsData f := by
  rw [fieldValue?, holdsData]
  cases r.resolve? f.typeName with
  | none => rfl
  | some type =>
    cases type with
    | enum e => cases found : e.alias? raw <;> simp [found]
    | _ => rfl

/-- A field has a value for each raw value that it can hold. -/
theorem eq_of_fieldValue?_same (span : r.bitSpan f.typeName = some f.width) (inWord : f.width ≤ 64)
    {raw raw' : Nat} (lt : raw < 2 ^ f.width) (lt' : raw' < 2 ^ f.width) {v w : Value}
    (hv : r.fieldValue? f raw = some v) (hw : r.fieldValue? f raw' = some w)
    (same : v.same w = true) : raw = raw' := by
  have word {n : Nat} (lt : n < 2 ^ f.width) : (UInt64.ofNat n).toNat = n :=
    UInt64.toNat_ofNat_of_lt' (Nat.lt_of_lt_of_le lt (Nat.pow_le_pow_right (by decide) inWord))
  have uint (same : (Value.uint (.ofNat raw)).same (.uint (.ofNat raw')) = true) :
      raw = raw' := by
    simpa [Value.same, word lt, word lt'] using same
  rw [fieldValue?] at hv hw
  obtain ⟨type, resolved, width⟩ := Option.bind_eq_some_iff.1 span
  rw [resolved] at hv hw
  cases type with
  | null => contradiction
  | bool =>
    cases hv
    cases hw
    rw [← Option.some.inj width] at lt lt'
    rw [Value.same, beq_iff_eq, Bool.eq_iff_iff, bne_iff_ne, bne_iff_ne] at same
    omega
  | enum e =>
    dsimp only at hv hw
    split at hv
    · next label found =>
      cases hv
      split at hw
      · next label' found' =>
        cases hw
        obtain rfl : label = label' := by simpa [Value.same] using same
        exact_mod_cast Enumeration.eq_of_alias? found found'
      · cases hw
        simp [Value.same] at same
    · cases hv
      split at hw
      · cases hw
        simp [Value.same] at same
      · cases hw
        exact uint same
  | _ =>
    cases hv
    cases hw
    exact uint same

/-! ## Keys -/

/-- No alias of the offset of a field is also the text of an offset that has none. -/
def KeysApart (r : Registry) (b : BitfieldShape) : Prop :=
  ∀ e, r.fieldNames? b = some e → ∀ f ∈ r.dataFields b, ∀ g ∈ r.dataFields b,
    e.alias? f.offset = some (toString g.offset) → e.alias? g.offset ≠ none

theorem fieldKey_of_alias? {e : Enumeration} {label : String}
    (found : e.alias? f.offset = some label) : fieldKey (some e) f = label := by
  rw [fieldKey, Option.bind_some, found, Option.getD_some]

theorem fieldKey_of_none {e : Enumeration} (absent : e.alias? f.offset = none) :
    fieldKey (some e) f = toString f.offset := by
  rw [fieldKey, Option.bind_some, absent, Option.getD_none]

/-- Fields with one key have one offset, when aliases and offsets are kept apart. -/
theorem KeysApart.offset_eq (apart : r.KeysApart b) (memf : f ∈ r.dataFields b)
    (memg : g ∈ r.dataFields b)
    (same : fieldKey (r.fieldNames? b) f = fieldKey (r.fieldNames? b) g) :
    f.offset = g.offset := by
  cases names : r.fieldNames? b with
  | none =>
    rw [names] at same
    exact Nat.repr_inj.1 same
  | some e =>
    have apart := apart e names
    rw [names] at same
    cases keyf : e.alias? f.offset with
    | none =>
      rw [fieldKey_of_none keyf] at same
      cases keyg : e.alias? g.offset with
      | none =>
        rw [fieldKey_of_none keyg] at same
        exact Nat.repr_inj.1 same
      | some label =>
        rw [fieldKey_of_alias? keyg] at same
        exact absurd keyf (apart g memg f memf (same ▸ keyg))
    | some label =>
      rw [fieldKey_of_alias? keyf] at same
      cases keyg : e.alias? g.offset with
      | none =>
        rw [fieldKey_of_none keyg] at same
        exact absurd keyg (apart f memf g memg (same ▸ keyf))
      | some label' =>
        rw [fieldKey_of_alias? keyg] at same
        exact_mod_cast Enumeration.eq_of_alias? keyf (same ▸ keyg)

/-- Keys are distinct exactly when aliases and offsets are kept apart. -/
theorem keys_nodup_iff (laid : r.LaidOut b) :
    ((r.dataFields b).map (fieldKey (r.fieldNames? b))).Nodup ↔ r.KeysApart b := by
  have offsets : ((r.dataFields b).map (·.offset)).Nodup :=
    (List.filter_sublist.map _).nodup laid.offsets_nodup
  rw [List.nodup_map_iff_inj_on offsets.of_map]
  constructor
  · intro inj e names f memf g memg label absent
    have same : fieldKey (r.fieldNames? b) f = fieldKey (r.fieldNames? b) g := by
      rw [names, fieldKey_of_alias? label, fieldKey_of_none absent]
    rw [← inj f memf g memg same, label] at absent
    contradiction
  · intro apart f memf g memg same
    exact List.inj_on_of_nodup_map offsets memf memg (apart.offset_eq memf memg same)

/-! ## Decoded words -/

/-- The entry is that of the field in the word. -/
structure Decodes (r : Registry) (b : BitfieldShape) (bits : UInt64) (f : BitField)
    (entry : String × Value) : Prop where
  key : entry.1 = fieldKey (r.fieldNames? b) f
  value : r.fieldValue? f (f.extract bits) = some entry.2

/-- The entries before they are merged: one for each field with data. -/
theorem forall₂_decodes (r : Registry) (b : BitfieldShape) (bits : UInt64)
    (fields : List BitField) :
    List.Forall₂ (r.Decodes b bits) (fields.filter r.holdsData)
      (fields.filterMap fun f => (r.fieldValue? f (f.extract bits)).map
        fun value => (fieldKey (r.fieldNames? b) f, value)) := by
  induction fields with
  | nil => exact .nil
  | cons f rest ih =>
    have data := fieldValue?_isSome (r := r) (f := f) (f.extract bits)
    cases value : r.fieldValue? f (f.extract bits) with
    | none =>
      rw [value] at data
      rw [List.filter_cons_of_neg (by simp [← data]), List.filterMap_cons, value]
      exact ih
    | some v =>
      rw [value] at data
      rw [List.filter_cons_of_pos data.symm, List.filterMap_cons, value]
      exact .cons ⟨rfl, value⟩ ih

theorem keys_of_decodes {bits : UInt64} {fields : List BitField} {entries : List (String × Value)}
    (h : List.Forall₂ (r.Decodes b bits) fields entries) :
    entries.map Prod.fst = fields.map (fieldKey (r.fieldNames? b)) := by
  induction h with
  | nil => rfl
  | cons decodes _ ih => rw [List.map_cons, List.map_cons, ih, decodes.key]

theorem exists_decodes {bits : UInt64} {fields : List BitField} {entries : List (String × Value)}
    (h : List.Forall₂ (r.Decodes b bits) fields entries) (mem : f ∈ fields) :
    ∃ entry ∈ entries, r.Decodes b bits f entry := by
  induction h with
  | nil => contradiction
  | cons decodes _ ih =>
    rcases List.mem_cons.1 mem with rfl | mem
    · exact ⟨_, List.mem_cons_self .., decodes⟩
    · obtain ⟨entry, inside, decodes⟩ := ih mem
      exact ⟨entry, List.mem_cons_of_mem _ inside, decodes⟩

/-- With keys kept apart, a word has one entry for each field with data. -/
theorem KeysApart.decodes (apart : r.KeysApart b) (laid : r.LaidOut b) (bits : UInt64) :
    List.Forall₂ (r.Decodes b bits) (r.dataFields b) (r.decodeBits b bits) := by
  have entries := forall₂_decodes r b bits b.fields
  rw [decodeBits, mergeEntries_of_nodup]
  · exact entries
  · rw [keys_of_decodes entries]
    exact (keys_nodup_iff laid).2 apart

/-- Words that decode to the same map agree in the raw values of their fields. -/
theorem KeysApart.extract_eq (apart : r.KeysApart b) (laid : r.LaidOut b) {bits bits' : UInt64}
    (same : (Value.map (r.decodeBits b bits) == Value.map (r.decodeBits b bits')) = true)
    (mem : f ∈ r.dataFields b) : f.extract bits = f.extract bits' := by
  have same : Value.same (.map (r.decodeBits b bits)) (.map (r.decodeBits b bits')) = true := same
  rw [Value.same, Bool.and_eq_true, Value.allBound_iff] at same
  obtain ⟨entry, inside, decodes⟩ := exists_decodes (apart.decodes laid bits) mem
  obtain ⟨entry', inside', decodes'⟩ := exists_decodes (apart.decodes laid bits') mem
  obtain ⟨w, found, same⟩ := same.2 entry inside
  have key : entry.1 = entry'.1 := decodes.key.trans decodes'.key.symm
  rw [key] at found
  have value := (lookup_eq_some_iff_mem (nodup_keys_mergeEntries _)).2 inside'
  cases found.symm.trans value
  have mem := (List.mem_filter.1 mem).1
  have inWord := laid.inWord f mem
  exact eq_of_fieldValue?_same (laid.widths f mem) (by omega) (f.extract_lt bits)
    (f.extract_lt bits') decodes.value decodes'.value same

/-- Words whose set bits lie in fields with data are known from the raw values of these. -/
theorem toNat_eq_of_extract_eq {bits bits' : UInt64}
    (assigned : ∀ i, bits.toNat.testBit i = true → r.Assigns b i)
    (assigned' : ∀ i, bits'.toNat.testBit i = true → r.Assigns b i)
    (same : ∀ f ∈ r.dataFields b, f.extract bits = f.extract bits') :
    bits.toNat = bits'.toNat := by
  have agree (i : Nat) (h : r.Assigns b i) : bits.toNat.testBit i = bits'.toNat.testBit i := by
    obtain ⟨f, mem, covers, data⟩ := h
    have same := same f (List.mem_filter.2 ⟨mem, holdsData_iff.2 data⟩)
    simp only [BitField.covers, Bool.and_eq_true, decide_eq_true_eq] at covers
    have bit := congrArg (·.testBit (i - f.offset)) same
    simp only [BitField.testBit_extract] at bit
    rwa [decide_eq_true (by omega), Bool.true_and, Bool.true_and,
      Nat.add_sub_cancel' covers.1] at bit
  refine Nat.eq_of_testBit_eq fun i => ?_
  by_cases set : bits.toNat.testBit i = true
  · exact agree i (assigned i set)
  · by_cases set' : bits'.toNat.testBit i = true
    · exact agree i (assigned' i set')
    · rw [Bool.not_eq_true] at set set'
      rw [set, set']

/-! ## Losslessness -/

/-- What decoding a bitfield keeps of its words. -/
structure Lossless (r : Registry) (name : String) (b : BitfieldShape) : Prop where
  /-- Every word has exactly one entry for each field with data, in order. -/
  entries : ∀ bits, List.Forall₂ (r.Decodes b bits) (r.dataFields b) (r.decodeBits b bits)
  /-- Different integers that are both valid decode to different maps. -/
  distinct : ∀ (v w : Value) (n m : Int), v.asInteger? = some n → w.asInteger? = some m →
    r.validate name v = .ok () → r.validate name w = .ok () → n ≠ m →
    (Value.map (r.decodeBits b (.ofNat n.toNat)) ==
      Value.map (r.decodeBits b (.ofNat m.toNat))) = false

/-- The valid values of a bitfield are words whose set bits lie in fields with data. -/
theorem word_of_validate (found : r.get? name = some (.bitfield b)) {v : Value} {n : Int}
    (integer : v.asInteger? = some n) (valid : r.validate name v = .ok ()) :
    ∃ bits : UInt64, n = bits.toNat ∧ ∀ i, bits.toNat.testBit i = true → r.Assigns b i := by
  obtain ⟨found', accepts⟩ := validate_eq_ok.1 valid
  cases found.symm.trans found'
  cases accepts with
  | bitfield integer' assigned =>
    next bits =>
    cases integer.symm.trans integer'
    have lt : bits < 2 ^ 64 := by exact_mod_cast Validation.asInteger?_lt integer
    have same : (UInt64.ofNat bits).toNat = bits := UInt64.toNat_ofNat_of_lt' lt
    exact ⟨.ofNat bits, by rw [same], by rwa [same]⟩

/-- Decoding a bitfield of a loaded registry loses nothing exactly when no alias of a field's offset
is also the text of the offset of another field, one without alias. -/
theorem lossless_iff {types : List (String × Json)} {r : Registry} {name : String}
    {b : BitfieldShape} (loads : loadTypes types = .ok r)
    (found : r.get? name = some (.bitfield b)) : r.Lossless name b ↔ r.KeysApart b := by
  have laid := (loadTypes_loaded loads).layouts name b found
  constructor
  · intro lossless
    rw [← keys_nodup_iff laid, ← keys_of_decodes (lossless.entries 0)]
    exact nodup_keys_mergeEntries _
  · intro apart
    refine ⟨apart.decodes laid, fun v w n m integer integer' valid valid' differ => ?_⟩
    obtain ⟨bits, rfl, assigned⟩ := word_of_validate found integer valid
    obtain ⟨bits', rfl, assigned'⟩ := word_of_validate found integer' valid'
    rw [Int.toNat_natCast, Int.toNat_natCast, UInt64.ofNat_toNat, UInt64.ofNat_toNat,
      Bool.eq_false_iff]
    intro same
    refine differ (congrArg Nat.cast (toNat_eq_of_extract_eq assigned assigned' fun f mem => ?_))
    exact apart.extract_eq laid same mem

/-- Two flags with a gap; the first has an alias. -/
def flagTypes (label : String) : List (String × Json) :=
  [("flags", .obj [("type", .str "Bitfield"), ("types", .arr [.str "Bool", .null, .str "Bool"]),
    ("enum", .arr [.str label])])]

/-- The bitfield of two flags. -/
def flags : BitfieldShape :=
  ⟨[⟨0, 1, "Bool"⟩, ⟨2, 1, "Bool"⟩], some "flagsEnum"⟩

/-- Whatever the alias, the flags are loaded; their keys are the alias and the offset 2. -/
theorem loadTypes_flagTypes (label : String) :
    ∃ r, loadTypes (flagTypes label) = .ok r ∧ r.get? "flags" = some (.bitfield flags) ∧
      (r.dataFields flags).map (fieldKey (r.fieldNames? flags)) = [label, "2"] ∧
      r.validate "flags" (.uint 0) = .ok () ∧ r.validate "flags" (.uint 1) = .ok () ∧
      r.decodeBits flags 0 = mergeEntries [(label, .bool false), ("2", .bool false)] ∧
      r.decodeBits flags 1 = mergeEntries [(label, .bool true), ("2", .bool false)] := by
  have run : (fun r : Registry => (r.get? "flags",
        (r.dataFields flags).map (fieldKey (r.fieldNames? flags)),
        (r.validate "flags" (.uint 0)).isOk, (r.validate "flags" (.uint 1)).isOk,
        r.decodeBits flags 0, r.decodeBits flags 1)) <$> loadTypes (flagTypes label) =
      .ok (some (.bitfield flags), [label, "2"], true, true,
        mergeEntries [(label, .bool false), ("2", .bool false)],
        mergeEntries [(label, .bool true), ("2", .bool false)]) := by cbv
  obtain ⟨r, loads, shown⟩ := map_eq_ok.1 run
  simp only [Prod.mk.injEq] at shown
  obtain ⟨found, keys, zero, one, clear, set⟩ := shown
  exact ⟨r, loads, found, keys, isOk_eq_true.1 zero, isOk_eq_true.1 one, clear, set⟩

/-- Under the alias `ready` and the offset 2, the flags are kept apart. -/
theorem readyFlags_lossless :
    ∃ r, loadTypes (flagTypes "ready") = .ok r ∧ r.get? "flags" = some (.bitfield flags) ∧
      r.Lossless "flags" flags := by
  obtain ⟨r, loads, found, keys, -⟩ := loadTypes_flagTypes "ready"
  have apart : r.KeysApart flags := by
    rw [← keys_nodup_iff ((loadTypes_loaded loads).layouts _ _ found), keys]
    decide
  exact ⟨r, loads, found, (lossless_iff loads found).2 apart⟩

/-- With the alias `2`, which is the text of the offset of the second flag, the first is lost. -/
theorem clashingFlags_not_lossless :
    ∃ r, loadTypes (flagTypes "2") = .ok r ∧ r.get? "flags" = some (.bitfield flags) ∧
      r.validate "flags" (.uint 0) = .ok () ∧ r.validate "flags" (.uint 1) = .ok () ∧
      r.decodeBits flags 0 = [("2", .bool false)] ∧ r.decodeBits flags 1 = [("2", .bool false)] ∧
      ¬ r.Lossless "flags" flags := by
  obtain ⟨r, loads, found, -, zero, one, clear, set⟩ := loadTypes_flagTypes "2"
  have merged (b : Bool) :
      mergeEntries [("2", Value.bool b), ("2", .bool false)] = [("2", .bool false)] := by cbv
  rw [merged] at clear set
  refine ⟨r, loads, found, zero, one, clear, set, fun lossless => ?_⟩
  have differ := lossless.distinct (.uint 0) (.uint 1) 0 1 rfl rfl zero one (by decide)
  rw [show UInt64.ofNat (0 : Int).toNat = 0 from rfl,
    show UInt64.ofNat (1 : Int).toNat = 1 from rfl, clear, set] at differ
  have same : Value.same (.map [("2", .bool false)]) (.map [("2", .bool false)]) = true := by cbv
  cases same.symm.trans differ

end Registry

end DeviceTree
