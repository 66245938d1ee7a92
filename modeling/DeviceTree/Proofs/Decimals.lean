import DeviceTree.Decimal
import Mathlib

/-!
# Decimals as numbers

The number that a decimal denotes is `Decimal.toRat`. Stripping zeros keeps it
(`stripZeros?_spec`), and where the first digit stands bounds it from both sides
(`pow_place_le`, `lt_pow_place`), so numbers at different places are ordered by the place, and at
one place padded digits are all that is left to compare (`compareMagnitude?_eq`).

Each of these lemmas also says that no number on the way leaves its word, so `compare_exact` holds
of all decimals: the comparison has a result, and it is the order of the numbers.
-/

namespace DeviceTree

/-! ## Words -/

namespace Word

theorem unsigned?_of_lt {width n : ℕ} (fits : n < 2 ^ width) : unsigned? width n = some n :=
  if_pos (by rwa [Nat.one_shiftLeft])

theorem signed?_of_mem {width : ℕ} {n : ℤ} (low : -2 ^ (width - 1) ≤ n)
    (high : n < 2 ^ (width - 1)) : signed? width n = some n := by
  have limit : ((1 <<< (width - 1) : ℕ) : ℤ) = 2 ^ (width - 1) := by
    rw [Nat.one_shiftLeft]
    push_cast
    rfl
  exact if_pos (by rw [limit]; exact ⟨low, high⟩)

end Word

namespace Decimal

/-- The number that a decimal denotes. -/
def toRat (d : Decimal) : ℚ :=
  d.mantissa.toInt * 10 ^ d.exponent.toInt

/-! ## Stripping zeros -/

/-- Where the exponent has room for one more for each digit, zeros are stripped without changing the
number. -/
theorem stripZeros?_spec {n k : ℕ} {e : ℤ} (digits : n < 10 ^ k) (low : -2 ^ 63 ≤ e)
    (room : e + k < 2 ^ 63) :
    ∃ m f, stripZeros? n e = some (m, f) ∧ m ≤ n ∧ e ≤ f ∧ f ≤ e + k ∧
      (m : ℚ) * 10 ^ f = n * 10 ^ e := by
  induction k generalizing n e with
  | zero =>
    obtain rfl : n = 0 := by omega
    exact ⟨0, e, by rw [stripZeros?]; rfl, le_rfl, le_rfl, by simp, rfl⟩
  | succ k ih =>
    rw [stripZeros?]
    split
    · next zero =>
      have fits : Word.signed? 64 (e + 1) = some (e + 1) :=
        Word.signed?_of_mem (by omega) (by omega)
      obtain ⟨m, f, stripped, le, above, below, same⟩ :=
        ih (n := n / 10) (e := e + 1) (by omega) (by omega) (by push_cast at room; omega)
      have whole : (n : ℚ) = (n / 10 : ℕ) * 10 := by
        exact_mod_cast (Nat.div_mul_cancel (Nat.dvd_of_mod_eq_zero zero.2)).symm
      refine ⟨m, f, by rw [fits, Option.bind_eq_bind, Option.bind_some, stripped], by omega,
        by omega, by push_cast; omega, ?_⟩
      rw [same, whole, zpow_add_one₀ (by norm_num)]
      ring
    · exact ⟨n, e, rfl, le_rfl, le_rfl, by omega, rfl⟩

theorem abs_toRat (d : Decimal) :
    |d.toRat| = d.mantissa.toInt.natAbs * (10 : ℚ) ^ d.exponent.toInt := by
  have scale : (0 : ℚ) < 10 ^ d.exponent.toInt := by positivity
  rw [toRat, abs_mul, abs_of_pos scale, Nat.cast_natAbs, Int.cast_abs]

/-- A mantissa has at most nineteen digits, so a decimal can be stripped of zeros. -/
theorem reduced?_spec (d : Decimal) :
    ∃ m e, d.reduced? = some (m, e) ∧ m < 10 ^ 19 ∧ -2 ^ 31 ≤ e ∧ e < 2 ^ 32 ∧
      (m : ℚ) * 10 ^ e = |d.toRat| := by
  have mantissa : d.mantissa.toInt.natAbs < 10 ^ 19 := by
    have := d.mantissa.le_toInt
    have := d.mantissa.toInt_lt
    omega
  have := d.exponent.le_toInt
  have := d.exponent.toInt_lt
  obtain ⟨m, e, stripped, le, above, below, same⟩ :=
    stripZeros?_spec (e := d.exponent.toInt) mantissa (by omega) (by omega)
  exact ⟨m, e, stripped, by omega, by omega, by omega, same.trans (abs_toRat d).symm⟩

/-! ## Places -/

theorem countDigits?_eq {n : ℕ} {count : ℤ} (low : 0 ≤ count)
    (room : count + Nat.log 10 n < 2 ^ 63) :
    countDigits? count n = some (count + Nat.log 10 n) := by
  fun_induction countDigits? count n with
  | case1 count n more ih =>
    have step : Nat.log 10 n = Nat.log 10 (n / 10) + 1 :=
      Nat.log_of_one_lt_of_le (by norm_num) more
    have fits : Word.signed? 64 (count + 1) = some (count + 1) :=
      Word.signed?_of_mem (by omega) (by omega)
    rw [fits, Option.bind_eq_bind, Option.bind_some, ih _ (by omega) (by omega), step]
    congr 1
    push_cast
    ring
  | case2 count n few =>
    rw [Nat.log_of_lt (by omega)]
    simp

section Places

variable {m m' : ℕ} {e e' : ℤ}

/-- A number is at least the power of ten where its first digit stands. -/
theorem pow_place_le (nonzero : m ≠ 0) : (10 : ℚ) ^ (Nat.log 10 m + e) ≤ m * 10 ^ e := by
  have first : (10 : ℚ) ^ Nat.log 10 m ≤ m := by exact_mod_cast Nat.pow_log_le_self 10 nonzero
  rw [zpow_add₀ (by norm_num), zpow_natCast]
  gcongr

/-- A number is below the power of ten before its first digit. -/
theorem lt_pow_place : (m : ℚ) * 10 ^ e < 10 ^ (Nat.log 10 m + e + 1) := by
  have first : (m : ℚ) < 10 ^ (Nat.log 10 m + 1) := by
    exact_mod_cast Nat.lt_pow_succ_log_self (by norm_num) m
  rw [show (Nat.log 10 m + e + 1 : ℤ) = ((Nat.log 10 m + 1 : ℕ) : ℤ) + e by push_cast; ring,
    zpow_add₀ (by norm_num), zpow_natCast]
  gcongr

/-- Of two numbers, the one whose first digit stands at a higher place is greater. -/
theorem lt_of_place_lt (nonzero : m' ≠ 0) (lower : Nat.log 10 m + e < Nat.log 10 m' + e') :
    (m : ℚ) * 10 ^ e < m' * 10 ^ e' :=
  calc (m : ℚ) * 10 ^ e < 10 ^ (Nat.log 10 m + e + 1) := lt_pow_place
    _ ≤ 10 ^ (Nat.log 10 m' + e') := zpow_le_zpow_right₀ (by norm_num) (by omega)
    _ ≤ m' * 10 ^ e' := pow_place_le nonzero

/-- Fewer digits can be padded to as many as the others have. -/
theorem pad?_eq (nonzero : m' ≠ 0) (digits : m' < 10 ^ 19) (le : Nat.log 10 m ≤ Nat.log 10 m') :
    pad? m (Nat.log 10 m' - Nat.log 10 m) =
      some (m * 10 ^ (Nat.log 10 m' - Nat.log 10 m)) := by
  have few : Nat.log 10 m' < 19 := Nat.log_lt_of_lt_pow nonzero digits
  have scale : 10 ^ (Nat.log 10 m' - Nat.log 10 m) ≤ 10 ^ 18 :=
    Nat.pow_le_pow_right (by norm_num) (by omega)
  have padded : m * 10 ^ (Nat.log 10 m' - Nat.log 10 m) ≤ 10 ^ 19 :=
    calc m * 10 ^ (Nat.log 10 m' - Nat.log 10 m)
        ≤ 10 ^ (Nat.log 10 m + 1) * 10 ^ (Nat.log 10 m' - Nat.log 10 m) := by
          gcongr
          exact (Nat.lt_pow_succ_log_self (by norm_num) m).le
      _ = 10 ^ (Nat.log 10 m' + 1) := by rw [← pow_add]; congr 1; omega
      _ ≤ 10 ^ 19 := Nat.pow_le_pow_right (by norm_num) (by omega)
  rw [pad?, Word.unsigned?_of_lt (by omega)]
  show (Word.unsigned? 128 (10 ^ _) >>= fun scale => Word.unsigned? 128 (m * scale)) = _
  rw [Word.unsigned?_of_lt (by omega)]
  exact Word.unsigned?_of_lt (by omega)

/-- Numbers at one scale are ordered by their digits. -/
theorem cmp_digits : cmp ((m : ℚ) * 10 ^ e) (m' * 10 ^ e) = cmp m m' := by
  have scaled : StrictMono fun q : ℚ => q * 10 ^ e :=
    fun _ _ less => mul_lt_mul_of_pos_right less (by positivity)
  rw [scaled.cmp_map_eq, Nat.strictMono_cast.cmp_map_eq]

/-- Without digits on one side, the scale does not matter. -/
theorem cmp_of_zero (zero : m = 0 ∨ m' = 0) :
    cmp ((m : ℚ) * 10 ^ e) (m' * 10 ^ e') = cmp m m' := by
  rcases zero with rfl | rfl
  · rw [← cmp_digits (e := e'), Nat.cast_zero, zero_mul, zero_mul]
  · rw [← cmp_digits (e := e), Nat.cast_zero, zero_mul, zero_mul]

/-- At different places, numbers are ordered by the place. -/
theorem cmp_places (nonzero : m ≠ 0) (nonzero' : m' ≠ 0)
    (apart : Nat.log 10 m + e ≠ Nat.log 10 m' + e') :
    cmp ((m : ℚ) * 10 ^ e) (m' * 10 ^ e') = cmp (Nat.log 10 m + e) (Nat.log 10 m' + e') := by
  rcases lt_or_gt_of_ne apart with lower | higher
  · rw [(cmp_eq_lt_iff _ _).2 lower, (cmp_eq_lt_iff _ _).2 (lt_of_place_lt nonzero' lower)]
  · rw [(cmp_eq_gt_iff _ _).2 higher, (cmp_eq_gt_iff _ _).2 (lt_of_place_lt nonzero higher)]

/-- At one place, numbers are ordered by their digits once these are padded. -/
theorem cmp_padded (le : Nat.log 10 m ≤ Nat.log 10 m')
    (place : Nat.log 10 m + e = Nat.log 10 m' + e') :
    cmp ((m : ℚ) * 10 ^ e) (m' * 10 ^ e') =
      cmp (m * 10 ^ (Nat.log 10 m' - Nat.log 10 m)) m' := by
  rw [← cmp_digits (e := e')]
  congr 1
  rw [show e = ((Nat.log 10 m' - Nat.log 10 m : ℕ) : ℤ) + e' by omega, zpow_add₀ (by norm_num),
    zpow_natCast]
  push_cast
  ring

end Places

/-! ## The order -/

/-- The comparison of magnitudes has a result, and it is their order. -/
theorem compareMagnitude?_eq (a b : Decimal) :
    a.compareMagnitude? b = some (cmp |a.toRat| |b.toRat|) := by
  obtain ⟨m, e, stripped, digits, low, high, same⟩ := reduced?_spec a
  obtain ⟨m', e', stripped', digits', low', high', same'⟩ := reduced?_spec b
  have few : Nat.log 10 m < 19 := Nat.log_lt_of_lt_pow' (by norm_num) digits
  have few' : Nat.log 10 m' < 19 := Nat.log_lt_of_lt_pow' (by norm_num) digits'
  rw [compareMagnitude?, stripped, stripped', ← same, ← same']
  simp only [Option.bind_eq_bind, Option.bind_some]
  split
  · next zero =>
    rw [Bool.or_eq_true, beq_iff_eq, beq_iff_eq] at zero
    rw [cmp_of_zero zero, cmp_eq_compare]
  · next nonzero =>
    rw [Bool.or_eq_true, beq_iff_eq, beq_iff_eq, not_or] at nonzero
    obtain ⟨nonzero, nonzero'⟩ := nonzero
    rw [countDigits?_eq (by omega) (by omega), countDigits?_eq (by omega) (by omega)]
    simp only [Option.bind_some]
    rw [Word.signed?_of_mem (by omega) (by omega), Word.signed?_of_mem (by omega) (by omega)]
    simp only [Option.bind_some]
    split
    · next apart =>
      rw [bne_iff_ne] at apart
      rw [cmp_places nonzero nonzero' (by omega), ← cmp_eq_compare, add_assoc, add_assoc,
        cmp_add_left]
    · next place =>
      rw [Bool.not_eq_true, bne_eq_false_iff_eq] at place
      split
      · next fewer =>
        have gap : (1 + Nat.log 10 m' - (1 + Nat.log 10 m) : ℤ).toNat =
            Nat.log 10 m' - Nat.log 10 m := by omega
        rw [gap, pad?_eq nonzero' digits' (by omega), cmp_padded (by omega) (by omega),
          cmp_eq_compare]
        rfl
      · next more =>
        have gap : (1 + Nat.log 10 m - (1 + Nat.log 10 m') : ℤ).toNat =
            Nat.log 10 m - Nat.log 10 m' := by omega
        rw [gap, pad?_eq nonzero digits (by omega), ← cmp_swap,
          cmp_padded (by omega) (by omega), cmp_swap, cmp_eq_compare]
        rfl

/-! ### Signs -/

/-- The mantissa gives the sign of the number. -/
theorem sign_mantissa (d : Decimal) : d.mantissa.toInt.sign = SignType.sign d.toRat := by
  have scale : SignType.sign ((10 : ℚ) ^ d.exponent.toInt) = 1 := sign_pos (by positivity)
  rw [toRat, sign_mul, scale, mul_one, Int.sign_eq_sign]
  rcases lt_trichotomy d.mantissa.toInt 0 with negative | zero | positive
  · rw [sign_neg negative, sign_neg (by exact_mod_cast negative)]
  · rw [zero, Int.cast_zero, sign_zero, sign_zero]
  · rw [sign_pos positive, sign_pos (by exact_mod_cast positive)]

/-- Numbers of different signs are ordered by their signs. -/
theorem cmp_signs {a b : Decimal} (apart : a.mantissa.toInt.sign ≠ b.mantissa.toInt.sign) :
    cmp a.toRat b.toRat = cmp a.mantissa.toInt.sign b.mantissa.toInt.sign := by
  have mono {a b : Decimal} (le : a.toRat ≤ b.toRat) :
      a.mantissa.toInt.sign ≤ b.mantissa.toInt.sign := by
    have cast : ∀ s t : SignType, s ≤ t → (s : ℤ) ≤ t := by decide
    rw [sign_mantissa, sign_mantissa]
    exact cast _ _ (SignType.sign.monotone le)
  rcases lt_or_gt_of_ne apart with less | greater
  · rw [(cmp_eq_lt_iff _ _).2 less, cmp_eq_lt_iff]
    exact lt_of_not_ge fun le => absurd less (mono le).not_gt
  · rw [(cmp_eq_gt_iff _ _).2 greater, cmp_eq_gt_iff]
    exact lt_of_not_ge fun le => absurd greater (mono le).not_gt

/-- The comparison has a result, and it is the order of the numbers. -/
theorem compare?_eq (a b : Decimal) : a.compare? b = some (cmp a.toRat b.toRat) := by
  rw [compare?]
  split
  · next apart =>
    rw [bne_iff_ne] at apart
    rw [cmp_signs apart, cmp_eq_compare]
  · next same =>
    rw [Bool.not_eq_true, bne_eq_false_iff_eq] at same
    have same' : SignType.sign b.toRat = SignType.sign a.toRat := by
      have cast : ∀ s t : SignType, (s : ℤ) = t → t = s := by decide
      rw [sign_mantissa, sign_mantissa] at same
      exact cast _ _ same
    rw [sign_mantissa]
    rcases lt_trichotomy a.toRat 0 with negative | zero | positive
    · rw [sign_neg negative] at same' ⊢
      have negative' := sign_eq_neg_one_iff.1 same'
      have mirror : StrictAnti fun q : ℚ => -q := fun _ _ => neg_lt_neg
      rw [if_neg (by decide), if_neg (by decide), compareMagnitude?_eq, abs_of_neg negative,
        abs_of_neg negative', mirror.cmp_map_eq]
    · rw [zero, sign_zero] at same' ⊢
      rw [if_pos (by decide), sign_eq_zero_iff.1 same', cmp_self_eq_eq]
    · rw [sign_pos positive] at same' ⊢
      have positive' := sign_eq_one_iff.1 same'
      rw [if_neg (by decide), if_pos (by decide), compareMagnitude?_eq, abs_of_pos positive,
        abs_of_pos positive']

theorem compare_eq (a b : Decimal) : a.compare b = cmp a.toRat b.toRat := by
  rw [compare, compare?_eq, Option.getD_some]

theorem beq_iff {a b : Decimal} : (a == b) = true ↔ a.toRat = b.toRat := by
  show (a.compare b == .eq) = true ↔ _
  rw [compare_eq, beq_iff_eq, cmp_eq_eq_iff]

theorem lt_iff {a b : Decimal} : a < b ↔ a.toRat < b.toRat := by
  show a.compare b = .lt ↔ _
  rw [compare_eq, cmp_eq_lt_iff]

/-- Decimals are compared as the numbers they denote, and equal when these are. On the way, no
number leaves its word: the comparison always has a result. -/
theorem compare_exact (a b : Decimal) :
    a.compare? b = some (a.compare b) ∧ a.compare b = cmp a.toRat b.toRat ∧
      ((a == b) = true ↔ a.toRat = b.toRat) := by
  have exact : a.compare b = cmp a.toRat b.toRat := by rw [compare, compare?_eq, Option.getD_some]
  refine ⟨by rw [compare?_eq, exact], exact, ?_⟩
  show (a.compare b == .eq) = true ↔ _
  rw [exact, beq_iff_eq, cmp_eq_eq_iff]

end Decimal

end DeviceTree
