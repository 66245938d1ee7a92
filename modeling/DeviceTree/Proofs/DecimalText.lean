import DeviceTree.Decimal
import Mathlib

/-!
# Texts of decimals

A decimal is written as an integer, with a point among its digits, or as a mantissa and an exponent.
`readChars?_of_parts` says what all three come to for the reader: a sign, the digits of the mantissa
with some places after the point, and perhaps an exponent.

`parse?_toText` puts this together: what is written reads back with the same mantissa and the same
exponent, unless the mantissa is the least one. The reader looks at the digits before the sign, and
no mantissa above zero has the digits of the least one.
-/

namespace DeviceTree

/-! ## Characters -/

namespace Text

/-- The characters of a number written without exponent. -/
def isPlain (c : Char) : Bool :=
  c.isDigit || c == '-' || c == '.'

theorem isPlain_of_isDigit {c : Char} (digit : c.isDigit = true) : isPlain c = true := by
  rw [isPlain, digit]
  rfl

/-- What holds of the digits, of the sign and of the point holds of all characters of a number. -/
theorem forall_isPlain {P : Char → Prop} (digits : ∀ c, 48 ≤ c.toNat → c.toNat ≤ 57 → P c)
    (sign : P '-') (point : P '.') {c : Char} (plain : isPlain c = true) : P c := by
  rw [isPlain, Bool.or_eq_true, Bool.or_eq_true, beq_iff_eq, beq_iff_eq] at plain
  rcases plain with (digit | rfl) | rfl
  · rw [Char.isDigit, Bool.and_eq_true, decide_eq_true_eq, decide_eq_true_eq] at digit
    exact digits c digit.1 digit.2
  · exact sign
  · exact point

theorem not_whiteSpace_of_isPlain {c : Char} (plain : isPlain c = true) :
    whiteSpace.contains c = false := by
  have printable : ∀ n < 133, 33 ≤ n → whiteSpace.containsPoint n = false := by decide
  exact forall_isPlain (P := fun c => whiteSpace.contains c = false)
    (fun c low high => printable c.toNat (by omega) (by omega)) (by decide) (by decide) plain

/-- A text without white space is not trimmed. -/
theorem trim_eq_self {cs : List Char} (none : ∀ c ∈ cs, whiteSpace.contains c = false) :
    trim cs = cs := by
  have kept {l : List Char} (none : ∀ c ∈ l, whiteSpace.contains c = false) :
      l.dropWhile whiteSpace.contains = l := by
    rw [List.dropWhile_eq_self_iff]
    intro nonempty
    simp [none]
  rw [trim, kept none, kept (by simpa using none), List.reverse_reverse]

/-! ### Digits -/

theorem isDigit_of_mem_natDigits {n : ℕ} {c : Char} (mem : c ∈ natDigits n) : c.isDigit = true :=
  Nat.isDigit_of_mem_toDigits (by decide) (by decide) mem

/-- The digits of a number with zeros before them. -/
def paddedDigits (zeros n : ℕ) : List Char :=
  List.replicate zeros '0' ++ natDigits n

theorem isDigit_of_mem_paddedDigits {zeros n : ℕ} {c : Char} (mem : c ∈ paddedDigits zeros n) :
    c.isDigit = true := by
  rcases List.mem_append.1 mem with zero | digit
  · rw [List.eq_of_mem_replicate zero]
    rfl
  · exact isDigit_of_mem_natDigits digit

/-- Zeros before its digits do not change a number. -/
theorem readNat?_paddedDigits (zeros n : ℕ) : readNat? (paddedDigits zeros n) = some n := by
  have value : Nat.ofDigitChars 10 (paddedDigits zeros n) 0 = n := by
    induction zeros with
    | zero => exact Nat.ofDigitChars_toDigits (by decide) (by decide)
    | succ zeros ih => exact ih
  have nonempty : (paddedDigits zeros n).isEmpty = false := by
    simp [paddedDigits, natDigits]
  have digits : (paddedDigits zeros n).all Char.isDigit = true :=
    List.all_eq_true.2 fun _ mem => isDigit_of_mem_paddedDigits mem
  rw [readNat?, nonempty, digits, value]
  rfl

theorem exists_cons_of_natDigits (n : ℕ) :
    ∃ c cs, natDigits n = c :: cs ∧ ∀ a ∈ c :: cs, a.isDigit = true := by
  obtain ⟨c, cs, same⟩ := List.exists_cons_of_ne_nil (l := natDigits n) Nat.toDigits_ne_nil
  exact ⟨c, cs, same, fun a mem => isDigit_of_mem_natDigits (n := n) (same ▸ mem)⟩

/-! ### Signs -/

/-- The sign of a written number. -/
def signChars (negative : Bool) : List Char :=
  if negative then ['-'] else []

theorem isPlain_of_mem_signChars {negative : Bool} {c : Char} (mem : c ∈ signChars negative) :
    isPlain c = true := by
  cases negative with
  | true =>
    rw [List.mem_singleton.1 mem]
    rfl
  | false => contradiction

theorem toList_toString (m : ℤ) :
    (toString m).toList = signChars (m < 0) ++ natDigits m.natAbs := by
  show m.repr.toList = _
  rw [Int.repr_eq_if]
  split
  · next positive =>
    have sign : decide (m < 0) = false := by simpa using positive
    rw [sign, show m.natAbs = m.toNat by omega]
    exact String.toList_ofList
  · next negative =>
    have sign : decide (m < 0) = true := by simpa using negative
    rw [sign, show m.natAbs = (-m).toNat by omega, String.toList_append]
    exact congrArg _ String.toList_ofList

theorem isPlain_of_mem_toString {m : ℤ} {c : Char} (mem : c ∈ (toString m).toList) :
    isPlain c = true := by
  rw [toList_toString] at mem
  rcases List.mem_append.1 mem with sign | digit
  · exact isPlain_of_mem_signChars sign
  · exact isPlain_of_isDigit (isDigit_of_mem_natDigits digit)

/-- A number without a sign is read by its digits. -/
theorem readInt?_of_isDigit {c : Char} {cs : List Char} (digit : c.isDigit = true) :
    readInt? (c :: cs) = (readNat? (c :: cs)).map Int.ofNat := by
  rw [readInt?]
  · rintro rest ⟨⟩
    contradiction
  · rintro rest ⟨⟩
    contradiction

theorem readInt?_toString (m : ℤ) : readInt? (toString m).toList = some m := by
  rw [toList_toString, signChars]
  obtain ⟨c, cs, digits, digit⟩ := exists_cons_of_natDigits m.natAbs
  split
  · next negative =>
    rw [decide_eq_true_eq] at negative
    rw [List.singleton_append, readInt?, readNat?_natDigits]
    show some (-(m.natAbs : ℤ)) = some m
    congr 1
    omega
  · next positive =>
    rw [decide_eq_true_eq] at positive
    rw [List.nil_append, digits, readInt?_of_isDigit (digit c (List.mem_cons_self ..)), ← digits,
      readNat?_natDigits, Option.map_some]
    congr 1
    show (m.natAbs : ℤ) = m
    omega

end Text

/-! ## Parts of a text -/

namespace Decimal

open Text

theorem cutAt_of_none {p : Char → Bool} {cs : List Char} (none : ∀ c ∈ cs, p c = false) :
    cutAt p cs = (cs, .none) := by
  have all : cs.dropWhile (!p ·) = [] := by simpa using none
  rw [cutAt, all]

theorem cutAt_append {p : Char → Bool} {before : List Char} (after : List Char) {c : Char}
    (none : ∀ c ∈ before, p c = false) (mark : p c = true) :
    cutAt p (before ++ c :: after) = (before, some after) := by
  have passed : ∀ c ∈ before, (!p c) = true := by simpa using none
  rw [cutAt, List.dropWhile_append_of_pos passed, List.takeWhile_append_of_pos passed]
  simp [mark]

/-- The characters of an exponent with its mark. -/
def exponentChars : Option (List Char) → List Char
  | none => []
  | some digits => 'e' :: digits

theorem not_whiteSpace_of_mem_exponentChars {exponent? : Option (List Char)}
    (plain : ∀ ds ∈ exponent?, ∀ c ∈ ds, isPlain c = true) {c : Char}
    (mem : c ∈ exponentChars exponent?) : whiteSpace.contains c = false := by
  cases exponent? with
  | none => contradiction
  | some digits =>
    rcases List.mem_cons.1 mem with rfl | mem
    · decide
    · exact not_whiteSpace_of_isPlain (plain digits rfl c mem)

/-- A number is told from the exponent after it. -/
theorem cutAt_exponent {number : List Char} {exponent? : Option (List Char)}
    (plain : ∀ c ∈ number, isPlain c = true) :
    cutAt (fun c => c == 'e' || c == 'E') (number ++ exponentChars exponent?) =
      (number, exponent?) := by
  have unmarked : ∀ c ∈ number, (c == 'e' || c == 'E') = false := by
    intro c mem
    refine forall_isPlain (P := fun c => (c == 'e' || c == 'E') = false) (fun c low high => ?_)
      (by decide) (by decide) (plain c mem)
    rw [Bool.or_eq_false_iff, beq_eq_false_iff_ne, beq_eq_false_iff_ne]
    constructor
    · rintro rfl
      contradiction
    · rintro rfl
      contradiction
  cases exponent? with
  | none => rw [exponentChars, List.append_nil, cutAt_of_none unmarked]
  | some digits => exact cutAt_append digits unmarked rfl

/-- A sign is told from the digits after it. -/
theorem splitSign_signChars {negative : Bool} {c : Char} {cs : List Char}
    (digit : c.isDigit = true) :
    splitSign (signChars negative ++ c :: cs) = (negative, c :: cs) := by
  cases negative with
  | true => rfl
  | false =>
    show splitSign (c :: cs) = _
    rw [splitSign]
    · rintro rest ⟨⟩
      contradiction
    · rintro rest ⟨⟩
      contradiction

theorem not_point_of_isDigit {c : Char} (digit : c.isDigit = true) : (c == '.') = false := by
  rw [beq_eq_false_iff_ne]
  rintro rfl
  contradiction

theorem readDigits?_natDigits (n : ℕ) : readDigits? (natDigits n) = some (n, 0) := by
  have whole : cutAt (· == '.') (natDigits n) = (natDigits n, none) :=
    cutAt_of_none fun c mem => not_point_of_isDigit (isDigit_of_mem_natDigits mem)
  rw [readDigits?, whole]
  simp [readNat?_natDigits]

/-- A point among the digits of a number is found, with the places after it. -/
theorem readDigits?_point {zeros places n : ℕ} (room : places ≤ (paddedDigits zeros n).length) :
    readDigits? ((paddedDigits zeros n).take ((paddedDigits zeros n).length - places) ++
      '.' :: (paddedDigits zeros n).drop ((paddedDigits zeros n).length - places)) =
      some (n, places) := by
  have whole : ∀ c ∈ (paddedDigits zeros n).take ((paddedDigits zeros n).length - places),
      (c == '.') = false := fun c mem =>
    not_point_of_isDigit (isDigit_of_mem_paddedDigits (List.mem_of_mem_take mem))
  rw [readDigits?, cutAt_append _ whole rfl]
  simp only [Option.getD_some, List.take_append_drop, readNat?_paddedDigits, Option.map_some,
    List.length_drop]
  rw [Nat.sub_sub_self room]

/-- The sign is put back in front of a magnitude. -/
theorem signed_natAbs (m : ℤ) :
    (if decide (m < 0) = true then -(m.natAbs : ℤ) else m.natAbs) = m := by
  split
  · next negative =>
    rw [decide_eq_true_eq] at negative
    omega
  · next positive =>
    rw [decide_eq_true_eq] at positive
    omega

/-- Only the least word has a magnitude above the largest word. -/
theorem eq_minValue_iff {m : Int64} : m = Int64.minValue ↔ 0x8000000000000000 ≤ m.toInt.natAbs := by
  have := m.le_toInt
  have := m.toInt_lt
  rw [← Int64.toInt_inj, Int64.toInt_minValue]
  omega

/-- The tests at the end of the reading, of the digits and of the exponent, let all decimals pass
but those with the least mantissa. -/
theorem checked_eq (d : Decimal) : (do
      guard (d.mantissa.toInt.natAbs < 0x8000000000000000)
      guard (-0x80000000 ≤ d.exponent.toInt)
      some ⟨Int64.ofInt (if decide (d.mantissa.toInt < 0) = true then -d.mantissa.toInt.natAbs
        else d.mantissa.toInt.natAbs), Int32.ofInt d.exponent.toInt⟩) =
      if d.mantissa = Int64.minValue then none else some d := by
  have exponentFits : -0x80000000 ≤ d.exponent.toInt := d.exponent.le_toInt
  rw [signed_natAbs, Int64.ofInt_toInt, Int32.ofInt_toInt]
  split
  · next isLeast =>
    rw [guard, if_neg (not_lt.2 (eq_minValue_iff.1 isLeast))]
    rfl
  · next isNotLeast =>
    rw [guard, if_pos (not_le.1 (mt eq_minValue_iff.2 isNotLeast)), guard, if_pos exponentFits]
    rfl

section Parts

variable {d : Decimal} {c : Char} {digits : List Char}
  (digit : c.isDigit = true) (plain : ∀ a ∈ digits, isPlain a = true)

include digit plain

theorem isPlain_of_mem_number {negative : Bool} {a : Char}
    (mem : a ∈ signChars negative ++ c :: digits) : isPlain a = true := by
  rcases List.mem_append.1 mem with sign | mem
  · exact isPlain_of_mem_signChars sign
  · rcases List.mem_cons.1 mem with rfl | mem
    · exact isPlain_of_isDigit digit
    · exact plain a mem

/-- Characters that are the sign and the digits of a decimal, and perhaps an exponent which agrees
with the places after the point, are read as the decimal. -/
theorem readChars?_of_parts {exponent? : Option (List Char)} {x : ℤ} {places : ℕ}
    (read : readDigits? (c :: digits) = some (d.mantissa.toInt.natAbs, places))
    (exponent : exponent?.elim (some 0) (readIntWithin? (-0x80000000) 0x7FFFFFFF) = some x)
    (scale : x - places = d.exponent.toInt) :
    readChars? (signChars (d.mantissa.toInt < 0) ++ c :: digits ++ exponentChars exponent?) =
      if d.mantissa = Int64.minValue then none else some d := by
  rw [← checked_eq d, ← scale, readChars?,
    cutAt_exponent fun a mem => isPlain_of_mem_number digit plain mem]
  cases exponent? with
  | none =>
    cases exponent
    simp only [splitSign_signChars digit, read, Option.bind_eq_bind, Option.bind_some]
  | some ds =>
    rw [Option.elim_some] at exponent
    simp only [splitSign_signChars digit, read, exponent, Option.bind_eq_bind, Option.bind_some]

/-- None of these characters is white space, so the text of them is read in whole. -/
theorem parse?_of_parts (exponent? : Option (List Char)) {text : String} {x : ℤ} {places : ℕ}
    (chars : text.toList =
      signChars (d.mantissa.toInt < 0) ++ c :: digits ++ exponentChars exponent?)
    (plain' : ∀ ds ∈ exponent?, ∀ a ∈ ds, isPlain a = true)
    (read : readDigits? (c :: digits) = some (d.mantissa.toInt.natAbs, places))
    (exponent : exponent?.elim (some 0) (readIntWithin? (-0x80000000) 0x7FFFFFFF) = some x)
    (scale : x - places = d.exponent.toInt) :
    parse? text = if d.mantissa = Int64.minValue then none else some d := by
  have untrimmed : ∀ a ∈ text.toList, whiteSpace.contains a = false := by
    intro a mem
    rw [chars] at mem
    rcases List.mem_append.1 mem with mem | mem
    · exact not_whiteSpace_of_isPlain (isPlain_of_mem_number digit plain mem)
    · exact not_whiteSpace_of_mem_exponentChars plain' mem
  rw [parse?, trim_eq_self untrimmed, chars]
  exact readChars?_of_parts digit plain read exponent scale

end Parts

/-- A mantissa is read as it is written, with the exponent after it. -/
theorem parse?_mantissa {d : Decimal} {text : String} (exponent? : Option (List Char))
    (chars : text.toList = (toString d.mantissa.toInt).toList ++ exponentChars exponent?)
    (plain : ∀ ds ∈ exponent?, ∀ c ∈ ds, isPlain c = true)
    (exponent : exponent?.elim (some 0) (readIntWithin? (-0x80000000) 0x7FFFFFFF) =
      some d.exponent.toInt) :
    parse? text = if d.mantissa = Int64.minValue then none else some d := by
  obtain ⟨c, cs, digits, digit⟩ := exists_cons_of_natDigits d.mantissa.toInt.natAbs
  refine parse?_of_parts (digit c (List.mem_cons_self ..))
    (fun a mem => isPlain_of_isDigit (digit a (List.mem_cons_of_mem _ mem))) exponent? ?_ plain ?_
    exponent (sub_zero _)
  · rw [chars, toList_toString, digits]
  · rw [← digits, readDigits?_natDigits]

theorem readIntWithin?_exponent (d : Decimal) :
    readIntWithin? (-0x80000000) 0x7FFFFFFF (toString d.exponent.toInt).toList =
      some d.exponent.toInt := by
  have low := d.exponent.le_toInt
  have high := d.exponent.toInt_lt
  rw [readIntWithin?, readInt?_toString, Option.filter_some, if_pos]
  rw [Bool.and_eq_true, decide_eq_true_eq, decide_eq_true_eq]
  constructor <;> omega

/-- A number with a point among its digits is read as it is written. -/
theorem parse?_positional {d : Decimal} {places : ℕ} (exponent : d.exponent.toInt = -places)
    {zeros : ℕ} (room : places < (paddedDigits zeros d.mantissa.toInt.natAbs).length) :
    parse? (String.ofList (signChars (d.mantissa.toInt < 0)) ++
      String.ofList ((paddedDigits zeros d.mantissa.toInt.natAbs).take
        ((paddedDigits zeros d.mantissa.toInt.natAbs).length - places)) ++ "." ++
      String.ofList ((paddedDigits zeros d.mantissa.toInt.natAbs).drop
        ((paddedDigits zeros d.mantissa.toInt.natAbs).length - places))) =
      if d.mantissa = Int64.minValue then none else some d := by
  set padded := paddedDigits zeros d.mantissa.toInt.natAbs with isPadded
  have digits : ∀ c ∈ padded, c.isDigit = true := fun c mem => isDigit_of_mem_paddedDigits mem
  obtain ⟨c, cs, whole⟩ : ∃ c cs, padded.take (padded.length - places) = c :: cs := by
    refine List.exists_cons_of_ne_nil fun empty => ?_
    rw [List.take_eq_nil_iff] at empty
    rcases empty with none | none
    · omega
    · rw [none] at room
      contradiction
  have digit : ∀ a ∈ c :: cs, a.isDigit = true := fun a mem =>
    digits a (List.mem_of_mem_take (whole ▸ mem))
  have scale : 0 - (places : ℤ) = d.exponent.toInt := by omega
  have plain : ∀ a ∈ cs ++ '.' :: padded.drop (padded.length - places), isPlain a = true := by
    intro a mem
    rcases List.mem_append.1 mem with mem | mem
    · exact isPlain_of_isDigit (digit a (List.mem_cons_of_mem _ mem))
    · rcases List.mem_cons.1 mem with rfl | mem
      · rfl
      · exact isPlain_of_isDigit (digits a (List.mem_of_mem_drop mem))
  refine parse?_of_parts (digit c (List.mem_cons_self ..)) plain none ?_ ?_ ?_ rfl scale
  · rw [whole, exponentChars]
    simp
  · rintro _ ⟨⟩
  · rw [← List.cons_append, ← whole]
    exact readDigits?_point room.le

/-- The decimal text form round-trips mantissa and exponent, for all mantissas but the least. -/
theorem parse?_toText (d : Decimal) :
    parse? d.toText = if d.mantissa = Int64.minValue then none else some d := by
  rw [toText]
  split
  · next zero =>
    have zero : d.exponent.toInt = 0 := beq_iff_eq.1 zero
    exact parse?_mantissa none (by rw [exponentChars, List.append_nil])
      (fun _ mem => by cases mem) (by rw [zero]; rfl)
  · split
    · next places =>
      rw [Bool.and_eq_true, decide_eq_true_eq, decide_eq_true_eq] at places
      have sign : (if d.mantissa.toInt < 0 then "-" else "") =
          String.ofList (signChars (d.mantissa.toInt < 0)) := by
        split
        · next negative => rw [decide_eq_true negative]; rfl
        · next positive => rw [decide_eq_false positive]; rfl
      have room : d.exponent.toInt.natAbs < (paddedDigits (d.exponent.toInt.natAbs + 1 -
          (natDigits d.mantissa.toInt.natAbs).length) d.mantissa.toInt.natAbs).length := by
        rw [paddedDigits, List.length_append, List.length_replicate]
        omega
      have := parse?_positional (d := d) (by omega) room
      rw [← sign] at this
      exact this
    · refine parse?_mantissa (some (toString d.exponent.toInt).toList) ?_ ?_
        (readIntWithin?_exponent d)
      · simp [exponentChars]
      · rintro _ ⟨⟩ c mem
        exact isPlain_of_mem_toString mem

/-- The least mantissa is written, but not read. -/
theorem parse?_toText_least :
    toText ⟨Int64.minValue, 0⟩ = "-9223372036854775808" ∧
      parse? (toText ⟨Int64.minValue, 0⟩) = none := by
  constructor
  · cbv
  · cbv

end Decimal

end DeviceTree
