import DeviceTree.Proofs.Decimals
import DeviceTree.Proofs.DecimalText

/-!
# The grammar of decimals

A `Numeral` is a decimal as it is written: a sign, digits before and after a point, and an exponent.
`Numeral.chars` are its characters, and `Numeral.toRat` is the number that it stands for, place by
place.

The reader takes these parts off one after another. For each step there are two lemmas: what the
step does to the characters of a numeral (`cutAt_chars`, `splitSign_chars`, `readDigits?_digitChars`,
`readInt?_chars`), and that it succeeds on no others (`cutAt_cases`, `splitSign_cases`,
`exists_of_readDigits?`, `exists_of_readIntWithin?`). `parse?_exact` puts them together: the texts
read are those of numerals that fit a decimal, and what is read is the number written.
-/

namespace DeviceTree

namespace Text

/-- The number that a list of digits stands for. -/
def digitsValue (digits : List Char) : ℕ :=
  Nat.ofDigitChars 10 digits 0

/-- Digits in front of others count as many times more as there are places after them. -/
theorem digitsValue_append (before after : List Char) :
    digitsValue (before ++ after) =
      digitsValue before * 10 ^ after.length + digitsValue after := by
  rw [digitsValue, Nat.ofDigitChars_append, Nat.ofDigitChars_eq_ofDigitChars_zero, Nat.mul_comm]
  rfl

theorem readNat?_eq_some {cs : List Char} {n : ℕ} :
    readNat? cs = some n ↔ cs ≠ [] ∧ (∀ c ∈ cs, c.isDigit = true) ∧ digitsValue cs = n := by
  simp [readNat?, digitsValue, and_assoc]

end Text

namespace Decimal

open Text

/-! ## Numerals -/

/-- The sign of a number, as it is written. -/
inductive Sign where
  | absent
  | plus
  | minus

namespace Sign

/-- The characters of a sign. -/
def chars : Sign → List Char
  | .absent => []
  | .plus => ['+']
  | .minus => ['-']

/-- Whether the number after the sign is a negative one. -/
def negative : Sign → Bool
  | .minus => true
  | _ => false

/-- A magnitude with the sign in front. -/
def apply (sign : Sign) (n : ℕ) : ℤ :=
  if sign.negative then -n else n

end Sign

/-- An exponent, as it is written: its mark, its sign and its digits. -/
structure Exponent where
  mark : Char
  sign : Sign
  digits : List Char
  isMark : mark = 'e' ∨ mark = 'E'
  isDigit : ∀ c ∈ digits, c.isDigit = true
  nonempty : digits ≠ []

namespace Exponent

/-- The characters after the mark. -/
def literal (x : Exponent) : List Char :=
  x.sign.chars ++ x.digits

/-- The power of ten that is written. -/
def value (x : Exponent) : ℤ :=
  x.sign.apply (digitsValue x.digits)

end Exponent

/-- A decimal, as it is written: its sign, the digits before the point and, if there is a point,
those after it, and an exponent if there is one. There is a digit before or after the point. -/
structure Numeral where
  sign : Sign
  whole : List Char
  afterPoint : Option (List Char)
  exponent? : Option Exponent
  isDigit : ∀ c ∈ whole ++ afterPoint.getD [], c.isDigit = true
  nonempty : whole ++ afterPoint.getD [] ≠ []

namespace Numeral

/-- The digits after the point. -/
def fraction (n : Numeral) : List Char :=
  n.afterPoint.getD []

/-- The digits, and the point among them. -/
def digitChars (n : Numeral) : List Char :=
  n.whole ++ n.afterPoint.elim [] ('.' :: ·)

/-- The characters of a numeral. -/
def chars (n : Numeral) : List Char :=
  n.sign.chars ++ n.digitChars ++ n.exponent?.elim [] fun x => x.mark :: x.literal

/-- The exponent that is written, zero if none is. -/
def power (n : Numeral) : ℤ :=
  n.exponent?.elim 0 Exponent.value

/-- The exponent of the last digit. -/
def scale (n : Numeral) : ℤ :=
  n.power - n.fraction.length

/-- The number that a numeral stands for. -/
def toRat (n : Numeral) : ℚ :=
  (if n.sign.negative then -1 else 1) *
    (digitsValue n.whole + digitsValue n.fraction / 10 ^ n.fraction.length) * 10 ^ n.power

/-- The number of all digits does not exceed the largest mantissa, and the exponents of the point
and of the last digit are those of a decimal. -/
structure Fits (n : Numeral) : Prop where
  mantissa : digitsValue (n.whole ++ n.fraction) ≤ Int64.maxValue.toInt
  power : Int32.minValue.toInt ≤ n.power ∧ n.power ≤ Int32.maxValue.toInt
  scale : Int32.minValue.toInt ≤ n.scale ∧ n.scale ≤ Int32.maxValue.toInt

/-- The decimal is the number written, with the exponent of its last digit. -/
structure Denotes (n : Numeral) (d : Decimal) : Prop where
  number : d.toRat = n.toRat
  exponent : d.exponent.toInt = n.scale

/-- The number is that of all digits, scaled to the last of them. -/
theorem toRat_eq (n : Numeral) :
    n.toRat = n.sign.apply (digitsValue (n.whole ++ n.fraction)) * 10 ^ n.scale := by
  have places : (10 : ℚ) ^ n.scale = 10 ^ n.power / 10 ^ n.fraction.length := by
    rw [scale, zpow_sub₀ (by norm_num), zpow_natCast]
  have all : ((digitsValue (n.whole ++ n.fraction) : ℕ) : ℚ) =
      digitsValue n.whole * 10 ^ n.fraction.length + digitsValue n.fraction := by
    exact_mod_cast digitsValue_append n.whole n.fraction
  have sign : ((n.sign.apply (digitsValue (n.whole ++ n.fraction)) : ℤ) : ℚ) =
      (if n.sign.negative then -1 else 1) * digitsValue (n.whole ++ n.fraction) := by
    rw [Sign.apply]
    split <;> simp
  rw [toRat, sign, all, places]
  field_simp

/-- A numeral stands for one decimal. -/
theorem Denotes.unique {n : Numeral} {d d' : Decimal} (h : n.Denotes d) (h' : n.Denotes d') :
    d = d' := by
  obtain ⟨m, e⟩ := d
  obtain ⟨m', e'⟩ := d'
  have exponent : e = e' := Int32.toInt_inj.1 (h.exponent.trans h'.exponent.symm)
  have number := h.number.trans h'.number.symm
  subst exponent
  have scale : (10 : ℚ) ^ e.toInt ≠ 0 := by positivity
  have mantissa : (m.toInt : ℚ) = m'.toInt := mul_right_cancel₀ scale number
  obtain rfl : m = m' := Int64.toInt_inj.1 (by exact_mod_cast mantissa)
  rfl

end Numeral

/-! ## Cutting and signs -/

/-- Whether an exponent follows. -/
def isMark (c : Char) : Bool :=
  c == 'e' || c == 'E'

theorem isMark_iff {c : Char} : isMark c = true ↔ c = 'e' ∨ c = 'E' := by
  simp [isMark]

/-- A cut comes before the first character that asks for one, or there is none. -/
theorem cutAt_cases (p : Char → Bool) (cs : List Char) :
    cutAt p cs = (cs, none) ∨
      ∃ before c after, p c = true ∧ cs = before ++ c :: after ∧
        cutAt p cs = (before, some after) := by
  rw [cutAt]
  split
  · exact .inl rfl
  · next c after rest =>
    have stopped : p c = true := by
      have := List.head?_dropWhile_not (!p ·) cs
      rw [rest] at this
      simpa using this
    have whole := List.takeWhile_append_dropWhile (p := (!p ·)) (l := cs)
    rw [rest] at whole
    exact .inr ⟨_, c, after, stopped, whole.symm, rfl⟩

theorem splitSign_cases (cs : List Char) :
    ∃ sign : Sign, cs = sign.chars ++ (splitSign cs).2 ∧ (splitSign cs).1 = sign.negative := by
  rw [splitSign.eq_def]
  split
  · exact ⟨.minus, rfl, rfl⟩
  · exact ⟨.plus, rfl, rfl⟩
  · exact ⟨.absent, rfl, rfl⟩

/-- A character that is not a sign ends the sign. -/
theorem splitSign_chars (sign : Sign) {c : Char} (cs : List Char) (other : c ≠ '+' ∧ c ≠ '-') :
    splitSign (sign.chars ++ c :: cs) = (sign.negative, c :: cs) := by
  cases sign with
  | plus | minus => rfl
  | absent =>
    show splitSign (c :: cs) = (false, c :: cs)
    rw [splitSign]
    · rintro rest same
      exact other.2 (List.cons.inj same).1
    · rintro rest same
      exact other.1 (List.cons.inj same).1

theorem readInt?_eq (cs : List Char) :
    readInt? cs = (readNat? (splitSign cs).2).map fun n : ℕ =>
      if (splitSign cs).1 then -(n : ℤ) else n := by
  rw [readInt?.eq_def]
  split
  · next cs =>
    rw [splitSign]
    cases readNat? cs <;> rfl
  · rfl
  · next plain plain' =>
    have unsigned : splitSign cs = (false, cs) := by rw [splitSign] <;> assumption
    rw [unsigned]
    rfl

/-! ## Digits -/

theorem ne_of_isDigit {c a : Char} (digit : c.isDigit = true) (other : a.isDigit = false) :
    c ≠ a := by
  rintro rfl
  rw [digit] at other
  contradiction

theorem not_isMark_of_isDigit {c : Char} (digit : c.isDigit = true) : isMark c = false := by
  rw [isMark, Bool.or_eq_false_iff, beq_eq_false_iff_ne, beq_eq_false_iff_ne]
  exact ⟨ne_of_isDigit digit rfl, ne_of_isDigit digit rfl⟩

/-- Digits and a sign in front of them are read as the number they stand for. -/
theorem readInt?_chars (sign : Sign) {digits : List Char} (nonempty : digits ≠ [])
    (isDigit : ∀ c ∈ digits, c.isDigit = true) :
    readInt? (sign.chars ++ digits) = some (sign.apply (digitsValue digits)) := by
  have read : readNat? digits = some (digitsValue digits) :=
    readNat?_eq_some.2 ⟨nonempty, isDigit, rfl⟩
  obtain ⟨c, cs, rfl⟩ := List.exists_cons_of_ne_nil nonempty
  have digit := isDigit c (List.mem_cons_self ..)
  rw [readInt?_eq, splitSign_chars sign cs ⟨ne_of_isDigit digit rfl, ne_of_isDigit digit rfl⟩, read]
  rfl

/-- Nothing else is read as an integer. -/
theorem exists_of_readInt? {cs : List Char} {k : ℤ} (h : readInt? cs = some k) :
    ∃ (sign : Sign) (digits : List Char), cs = sign.chars ++ digits ∧ digits ≠ [] ∧
      (∀ c ∈ digits, c.isDigit = true) ∧ sign.apply (digitsValue digits) = k := by
  rw [readInt?_eq] at h
  obtain ⟨sign, split, negative⟩ := splitSign_cases cs
  obtain ⟨n, read, rfl⟩ := Option.map_eq_some_iff.1 h
  obtain ⟨nonempty, isDigit, rfl⟩ := readNat?_eq_some.1 read
  exact ⟨sign, _, split, nonempty, isDigit, by rw [negative, Sign.apply]⟩

theorem readIntWithin?_eq_some {low high k : ℤ} {cs : List Char} :
    readIntWithin? low high cs = some k ↔ readInt? cs = some k ∧ low ≤ k ∧ k ≤ high := by
  simp [readIntWithin?, Option.filter_eq_some_iff]

/-- What stands behind the mark of an exponent, if it is read, is that of a written exponent. -/
theorem exists_of_readIntWithin? {low high k : ℤ} {cs : List Char} {mark : Char}
    (isMark : mark = 'e' ∨ mark = 'E') (h : readIntWithin? low high cs = some k) :
    ∃ x : Exponent, x.mark = mark ∧ x.literal = cs ∧ x.value = k ∧ low ≤ k ∧ k ≤ high := by
  obtain ⟨read, within⟩ := readIntWithin?_eq_some.1 h
  obtain ⟨sign, digits, rfl, nonempty, isDigit, value⟩ := exists_of_readInt? read
  exact ⟨⟨mark, sign, digits, isMark, isDigit, nonempty⟩, rfl, rfl, value, within⟩

/-- What is read as digits around a point is so. -/
theorem exists_of_readDigits? {cs : List Char} {m places : ℕ}
    (h : readDigits? cs = some (m, places)) :
    ∃ (whole : List Char) (afterPoint : Option (List Char)),
      cs = whole ++ afterPoint.elim [] ('.' :: ·) ∧
      (∀ c ∈ whole ++ afterPoint.getD [], c.isDigit = true) ∧ whole ++ afterPoint.getD [] ≠ [] ∧
      digitsValue (whole ++ afterPoint.getD []) = m ∧ (afterPoint.getD []).length = places := by
  rw [readDigits?] at h
  rcases cutAt_cases (· == '.') cs with cut | ⟨whole, c, after, point, split, cut⟩
  · rw [cut] at h
    obtain ⟨m, read, ⟨⟩⟩ := Option.map_eq_some_iff.1 h
    obtain ⟨nonempty, isDigit, rfl⟩ := readNat?_eq_some.1 read
    exact ⟨cs, none, by simp, isDigit, nonempty, rfl, rfl⟩
  · rw [cut] at h
    obtain ⟨m, read, ⟨⟩⟩ := Option.map_eq_some_iff.1 h
    obtain ⟨nonempty, isDigit, rfl⟩ := readNat?_eq_some.1 read
    rw [beq_iff_eq.1 point] at split
    exact ⟨whole, some after, split, isDigit, nonempty, rfl, rfl⟩

namespace Numeral

variable (n : Numeral)

/-- The digits of a numeral are read with the places after the point. -/
theorem readDigits?_digitChars :
    readDigits? n.digitChars = some (digitsValue (n.whole ++ n.fraction), n.fraction.length) := by
  have read : readNat? (n.whole ++ n.fraction) = some (digitsValue (n.whole ++ n.fraction)) :=
    readNat?_eq_some.2 ⟨n.nonempty, n.isDigit, rfl⟩
  have unmarked : ∀ c ∈ n.whole, (c == '.') = false := fun c mem =>
    not_point_of_isDigit (n.isDigit c (List.mem_append_left _ mem))
  have cut : cutAt (· == '.') n.digitChars = (n.whole, n.afterPoint) := by
    rw [digitChars]
    cases n.afterPoint with
    | none => rw [Option.elim_none, List.append_nil, cutAt_of_none unmarked]
    | some after => exact cutAt_append after unmarked rfl
  rw [readDigits?, cut]
  exact congrArg (Option.map fun m => (m, n.fraction.length)) read

/-- The first of the digits, or the point, is no sign. -/
theorem exists_cons_of_digitChars :
    ∃ c cs, n.digitChars = c :: cs ∧ c ≠ '+' ∧ c ≠ '-' := by
  have nonempty := n.nonempty
  have isDigit := n.isDigit
  rw [digitChars]
  cases whole : n.whole with
  | cons c cs =>
    have digit : c.isDigit = true := isDigit c (by simp [whole])
    exact ⟨c, _, rfl, ne_of_isDigit digit rfl, ne_of_isDigit digit rfl⟩
  | nil =>
    cases point : n.afterPoint with
    | none => simp [whole, point] at nonempty
    | some after => exact ⟨'.', after, rfl, by decide, by decide⟩

theorem splitSign_digitChars :
    splitSign (n.sign.chars ++ n.digitChars) = (n.sign.negative, n.digitChars) := by
  obtain ⟨c, cs, first, other⟩ := n.exists_cons_of_digitChars
  rw [first, splitSign_chars n.sign cs other]

/-- Neither the sign nor the digits nor the point mark an exponent. -/
theorem not_isMark_of_mem {c : Char} (mem : c ∈ n.sign.chars ++ n.digitChars) :
    isMark c = false := by
  have isDigit := n.isDigit
  rcases List.mem_append.1 mem with sign | mem
  · cases h : n.sign with
    | absent => simp [h, Sign.chars] at sign
    | plus | minus =>
      rw [h] at sign
      rw [List.mem_singleton.1 sign]
      rfl
  · rw [digitChars, List.mem_append] at mem
    rcases mem with whole | mem
    · exact not_isMark_of_isDigit (isDigit c (List.mem_append_left _ whole))
    · cases h : n.afterPoint with
      | none => simp [h] at mem
      | some after =>
        rw [h, Option.elim_some] at mem
        rcases List.mem_cons.1 mem with rfl | mem
        · rfl
        · refine not_isMark_of_isDigit (isDigit c (List.mem_append_right _ ?_))
          rwa [h]

theorem cutAt_chars :
    cutAt isMark n.chars =
      (n.sign.chars ++ n.digitChars, n.exponent?.map Exponent.literal) := by
  have unmarked : ∀ c ∈ n.sign.chars ++ n.digitChars, isMark c = false :=
    fun c mem => n.not_isMark_of_mem mem
  rw [chars]
  cases n.exponent? with
  | none => rw [Option.elim_none, List.append_nil, cutAt_of_none unmarked, Option.map_none]
  | some x => exact cutAt_append x.literal unmarked (isMark_iff.2 x.isMark)

end Numeral

/-! ## The reader -/

/-- The exponent behind a cut, zero if there is none. -/
def readPower? (literal? : Option (List Char)) : Option ℤ :=
  literal?.elim (some 0) (readIntWithin? (-0x80000000) 0x7FFFFFFF)

/-- The steps of the reader: it cuts off the exponent and the sign, reads the digits, and sees that
both numbers fit. -/
theorem readChars?_eq_some {cs : List Char} {d : Decimal} :
    readChars? cs = some d ↔
      ∃ power m places, readPower? (cutAt isMark cs).2 = some power ∧
        readDigits? (splitSign (cutAt isMark cs).1).2 = some (m, places) ∧
        m < 0x8000000000000000 ∧ -0x80000000 ≤ power - (places : ℤ) ∧
        ⟨Int64.ofInt (if (splitSign (cutAt isMark cs).1).1 then -(m : ℤ) else m),
          Int32.ofInt (power - places)⟩ = d := by
  have cut : cutAt (fun c => c == 'e' || c == 'E') cs = cutAt isMark cs := rfl
  rw [readChars?, cut]
  generalize cutAt isMark cs = parts
  obtain ⟨number, _ | literal⟩ := parts
  all_goals
    simp only [readPower?, Option.elim_none, Option.elim_some, Option.bind_eq_bind,
      Option.bind_eq_some_iff, Option.guard_eq_some', Option.some.injEq, exists_const, Prod.exists,
      exists_and_left]

/-- The two numbers that are read make the decimal that the numeral denotes. -/
theorem Numeral.denotes_of_fits {n : Numeral} (fits : n.Fits) :
    n.Denotes ⟨Int64.ofInt (n.sign.apply (digitsValue (n.whole ++ n.fraction))),
      Int32.ofInt n.scale⟩ := by
  have small : (digitsValue (n.whole ++ n.fraction) : ℤ) < 2 ^ 63 := by
    have := fits.mantissa
    rw [Int64.toInt_maxValue] at this
    omega
  have mantissa : (Int64.ofInt (n.sign.apply (digitsValue (n.whole ++ n.fraction)))).toInt =
      n.sign.apply (digitsValue (n.whole ++ n.fraction)) := by
    rw [Sign.apply]
    apply Int64.toInt_ofInt_of_le
    · split <;> omega
    · split <;> omega
  have exponent : (Int32.ofInt n.scale).toInt = n.scale := by
    obtain ⟨low, high⟩ := fits.scale
    rw [Int32.toInt_minValue] at low
    rw [Int32.toInt_maxValue] at high
    exact Int32.toInt_ofInt_of_le (by omega) (by omega)
  constructor
  · rw [Decimal.toRat, mantissa, exponent, n.toRat_eq]
  · exact exponent

/-- The exponent of a numeral that fits is read. -/
theorem Numeral.readPower?_literal {n : Numeral} (fits : n.Fits) :
    readPower? (n.exponent?.map Exponent.literal) = some n.power := by
  obtain ⟨low, high⟩ := fits.power
  rw [Int32.toInt_minValue] at low
  rw [Int32.toInt_maxValue] at high
  rw [power] at low high ⊢
  cases written : n.exponent? with
  | none => rfl
  | some x =>
    rw [written, Option.elim_some] at low high
    have read := readInt?_chars x.sign x.nonempty x.isDigit
    exact readIntWithin?_eq_some.2 ⟨read, low, high⟩

/-- A numeral that fits is read as the number it stands for. -/
theorem Numeral.readChars?_chars {n : Numeral} (fits : n.Fits) :
    ∃ d, readChars? n.chars = some d ∧ n.Denotes d := by
  have mantissa := fits.mantissa
  rw [Int64.toInt_maxValue] at mantissa
  have scale := fits.scale.1
  rw [Int32.toInt_minValue, Numeral.scale] at scale
  refine ⟨_, readChars?_eq_some.2 ?_, denotes_of_fits fits⟩
  rw [n.cutAt_chars, n.splitSign_digitChars]
  exact ⟨_, _, _, readPower?_literal fits, n.readDigits?_digitChars, by omega, by omega, rfl⟩

/-- What is read is a numeral that fits. -/
theorem exists_of_readChars? {cs : List Char} {d : Decimal} (h : readChars? cs = some d) :
    ∃ n : Numeral, n.chars = cs ∧ n.Fits := by
  obtain ⟨power, m, places, exponent, digits, small, scale, -⟩ := readChars?_eq_some.1 h
  obtain ⟨sign, signed, -⟩ := splitSign_cases (cutAt isMark cs).1
  obtain ⟨whole, afterPoint, split, isDigit, nonempty, rfl, rfl⟩ := exists_of_readDigits? digits
  have fits (exponent? : Option Exponent) (value : exponent?.elim 0 Exponent.value = power)
      (low : -0x80000000 ≤ power) (high : power ≤ 0x7FFFFFFF) :
      (⟨sign, whole, afterPoint, exponent?, isDigit, nonempty⟩ : Numeral).Fits := by
    subst value
    refine ⟨?_, ⟨low, high⟩, scale, ?_⟩
    · show (digitsValue (whole ++ afterPoint.getD []) : ℤ) ≤ 0x7FFFFFFFFFFFFFFF
      omega
    · show exponent?.elim 0 Exponent.value - ((afterPoint.getD []).length : ℤ) ≤ 0x7FFFFFFF
      omega
  rcases cutAt_cases isMark cs with cut | ⟨before, mark, literal, marked, whole', cut⟩
  · rw [cut] at exponent signed split
    cases exponent
    refine ⟨_, ?_, fits none rfl (by omega) (by omega)⟩
    rw [Numeral.chars, Option.elim_none, List.append_nil, Numeral.digitChars, ← split, ← signed]
  · rw [cut] at exponent signed split
    obtain ⟨x, rfl, rfl, rfl, low, high⟩ := exists_of_readIntWithin? (isMark_iff.1 marked) exponent
    refine ⟨_, ?_, fits (some x) rfl low high⟩
    rw [Numeral.chars, Option.elim_some, Numeral.digitChars, ← split, ← signed, whole']

/-- The texts that are read are those which, white space around them aside, are numerals that fit a
decimal. What is read is exactly the number written, with the exponent of its last digit. -/
theorem parse?_exact (text : String) :
    ((parse? text).isSome = true ↔ ∃ n : Numeral, n.chars = trim text.toList ∧ n.Fits) ∧
      ∀ d, parse? text = some d ↔
        ∃ n : Numeral, n.chars = trim text.toList ∧ n.Fits ∧ n.Denotes d := by
  have accepted {d : Decimal} (read : parse? text = some d) :
      ∃ n : Numeral, n.chars = trim text.toList ∧ n.Fits := exists_of_readChars? read
  have exactly {n : Numeral} (chars : n.chars = trim text.toList) (fits : n.Fits) :
      ∃ d, parse? text = some d ∧ n.Denotes d := by
    rw [parse?, ← chars]
    exact n.readChars?_chars fits
  refine ⟨⟨fun read => ?_, ?_⟩, fun d => ⟨fun read => ?_, ?_⟩⟩
  · obtain ⟨d, read⟩ := Option.isSome_iff_exists.1 read
    exact accepted read
  · rintro ⟨n, chars, fits⟩
    obtain ⟨d, read, -⟩ := exactly chars fits
    exact Option.isSome_iff_exists.2 ⟨d, read⟩
  · obtain ⟨n, chars, fits⟩ := accepted read
    obtain ⟨d', read', denotes⟩ := exactly chars fits
    cases read.symm.trans read'
    exact ⟨n, chars, fits, denotes⟩
  · rintro ⟨n, chars, fits, denotes⟩
    obtain ⟨d', read, denotes'⟩ := exactly chars fits
    rw [read, denotes.unique denotes']

end Decimal

end DeviceTree
