import DeviceTree.Double.Basic
import Mathlib

/-!
# Equal doubles

Doubles are compared by their sign, mantissa and exponent. Two of them are equal when these agree,
or when both are zeros (`eq_or_zeros`), so equal doubles compare alike with every other
(`compare_congr`): equality is symmetric and transitive, and bounds do not tell equal doubles apart.

The exact number of a double is read off the same parts (`decode_eq`), so equal doubles have the
same divisors (`isMultiple_congr`) and, as units, the same multiples (`isMultiple_unit_congr`).
-/

namespace DeviceTree.Double

open Float.Model Float.Model.UnpackedFloat

/-! ## Comparisons -/

section Compare

variable {a b : UnpackedFloat}

theorem sign_eq_of_compare {s s' : Sign} (h : compare s s' = .eq) : s = s' := by
  cases s <;> cases s' <;> first | rfl | contradiction

theorem parts_eq_of_compare {e e' : ℤ} {m m' : ℕ}
    (h : (compare e e').then (compare m m') = .eq) : e = e' ∧ m = m' := by
  obtain ⟨exponent, mantissa⟩ := Ordering.then_eq_eq.1 h
  exact ⟨Std.LawfulEqOrd.eq_of_compare exponent, Std.LawfulEqOrd.eq_of_compare mantissa⟩

/-- Equal doubles have the same parts, unless both are zeros, whose signs may differ. -/
theorem eq_or_zeros (h : a.compare b = some .eq) :
    a = b ∨ ∃ s s', a = .zero s ∧ b = .zero s' := by
  rw [UnpackedFloat.compare.eq_def] at h
  split at h
  case h_3 s s' =>
    rw [sign_eq_of_compare (Option.some.inj h)]
    exact .inl rfl
  case h_12 s s' => exact .inr ⟨s, s', rfl, rfl⟩
  case h_13 m e _ m' e' _ =>
    obtain ⟨rfl, rfl⟩ := parts_eq_of_compare (Ordering.swap_eq_eq.1 (Option.some.inj h))
    exact .inl rfl
  case h_16 m e _ m' e' _ =>
    obtain ⟨rfl, rfl⟩ := parts_eq_of_compare (Option.some.inj h)
    exact .inl rfl
  -- the others have different signs or different kinds
  all_goals cases h

/-- Equal doubles compare alike with every other, from either side. -/
theorem compare_congr (h : a.compare b = some .eq) (c : UnpackedFloat) :
    a.compare c = b.compare c ∧ c.compare a = c.compare b := by
  rcases eq_or_zeros h with rfl | ⟨s, s', rfl, rfl⟩
  · exact ⟨rfl, rfl⟩
  · cases c with
    | notANumber | zero => exact ⟨rfl, rfl⟩
    | infinity t | finite t => cases t <;> exact ⟨rfl, rfl⟩

end Compare

section

variable {x y : Float}

theorem beq_iff : (x == y) = true ↔ x.toModel.unpack.compare y.toModel.unpack = some .eq := by
  show (x.toModel.unpack.compare y.toModel.unpack == some .eq) = true ↔ _
  rw [beq_iff_eq]

theorem lt_iff : x < y ↔ x.toModel.unpack.compare y.toModel.unpack = some .lt := by
  show decide (x.toModel < y.toModel) = true ↔ _
  rw [decide_eq_true_iff]
  exact beq_iff_eq

theorem le_iff :
    x ≤ y ↔ (x.toModel.unpack.compare y.toModel.unpack).any (·.isLE) = true := by
  show decide (x.toModel ≤ y.toModel) = true ↔ _
  rw [decide_eq_true_iff]
  exact Iff.rfl

/-- Equal doubles are below the same doubles and above the same doubles. -/
theorem order_congr (h : (x == y) = true) (z : Float) :
    (x < z ↔ y < z) ∧ (z < x ↔ z < y) ∧ (x ≤ z ↔ y ≤ z) ∧ (z ≤ x ↔ z ≤ y) := by
  obtain ⟨left, right⟩ := compare_congr (beq_iff.1 h) z.toModel.unpack
  rw [lt_iff, lt_iff, lt_iff, lt_iff, le_iff, le_iff, le_iff, le_iff, left, right]
  exact ⟨Iff.rfl, Iff.rfl, Iff.rfl, Iff.rfl⟩

/-- Equal doubles are equal to the same doubles. -/
theorem beq_congr (h : (x == y) = true) (z : Float) :
    ((x == z) = true ↔ (y == z) = true) ∧ ((z == x) = true ↔ (z == y) = true) := by
  obtain ⟨left, right⟩ := compare_congr (beq_iff.1 h) z.toModel.unpack
  rw [beq_iff, beq_iff, beq_iff, beq_iff, left, right]
  exact ⟨Iff.rfl, Iff.rfl⟩

theorem beq_trans {z : Float} (h : (x == y) = true) (k : (y == z) = true) : (x == z) = true :=
  (beq_congr h z).1.2 k

theorem beq_symm (h : (x == y) = true) : (y == x) = true :=
  (beq_congr h x).1.1 ((beq_congr h x).2.2 h)

end

/-! ## Exact numbers -/

/-- The denotation of a double in parts. -/
def numberOf : UnpackedFloat → Denotation
  | .notANumber => .nan
  | .infinity s => .infinite (s == .negative)
  | .zero s => .finite (s == .negative) 0 (-1074)
  | .finite s m e _ => .finite (s == .negative) m e

section Fields

variable (bits : UInt64)

theorem sign_unpackSign :
    (Sign.ofBitVec (@unpackSign .binary64 bits.toBitVec) == .negative) =
      (bits.toNat / 0x8000000000000000 == 1) := by
  have bit : ∀ v : BitVec 1, (Sign.ofBitVec v == .negative) = (v.toNat == 1) := by decide
  have shifted : (@unpackSign .binary64 bits.toBitVec).toNat =
      bits.toNat / 0x8000000000000000 := by
    have := bits.toNat_lt
    show bits.toNat >>> 63 % 2 = _
    rw [Nat.shiftRight_eq_div_pow]
    omega
  rw [bit, shifted]

theorem toNat_unpackExponent :
    (@unpackExponent .binary64 bits.toBitVec).toNat =
      bits.toNat / 0x10000000000000 % 0x800 := by
  show bits.toNat >>> 52 % 0x800 = _
  rw [Nat.shiftRight_eq_div_pow]

theorem toNat_unpackMantissa :
    (@unpackMantissa .binary64 bits.toBitVec).toNat = bits.toNat % 0x10000000000000 := by
  show bits.toNat >>> 0 % 0x10000000000000 = _
  rw [Nat.shiftRight_zero]

end Fields

/-- The leading digit that is not written. -/
theorem toNat_one_append (v : BitVec 52) : (1#1 ++ v).toNat = 0x10000000000000 + v.toNat := by
  rw [BitVec.toNat_append, ← Nat.shiftLeft_add_eq_or_of_lt v.isLt]
  rfl

/-- Fields are the same when their numbers are. -/
theorem toNat_beq_iff {w : ℕ} {v u : BitVec w} : (v.toNat == u.toNat) = true ↔ v = u := by
  rw [beq_iff_eq, BitVec.toNat_inj]

/-- The number of a double is that of its parts. -/
theorem decodeBits_eq (bits : UInt64) :
    decodeBits bits = numberOf (UnpackedFloat.unpack .binary64 bits.toBitVec) := by
  have bias : (Format.binary64.exponentBias : ℤ) = 1023 := rfl
  have special : ((@unpackExponent .binary64 bits.toBitVec).toNat == 2047) = true ↔
      @unpackExponent .binary64 bits.toBitVec = -1#11 := toNat_beq_iff (u := -1#11)
  have small : ((@unpackExponent .binary64 bits.toBitVec).toNat == 0) = true ↔
      @unpackExponent .binary64 bits.toBitVec = 0#11 := toNat_beq_iff (u := 0#11)
  have whole : ((@unpackMantissa .binary64 bits.toBitVec).toNat == 0) = true ↔
      @unpackMantissa .binary64 bits.toBitVec = 0#52 := toNat_beq_iff (u := 0#52)
  rw [decodeBits, UnpackedFloat.unpack]
  dsimp only
  rw [← sign_unpackSign, ← toNat_unpackExponent, ← toNat_unpackMantissa]
  simp only [special, small, whole]
  split
  · split
    · rfl
    · rfl
  split
  · next zero =>
    split
    · next zero' =>
      rw [numberOf, zero']
      rfl
    · rw [numberOf, zero, bias]
      rfl
  · rw [numberOf, bias, toNat_one_append]
    rfl

theorem decode_eq (x : Float) : decode x = numberOf x.toModel.unpack :=
  decodeBits_eq x.toBits

/-- Equal doubles are multiples of the same units: zeros of either sign are multiples of all. -/
theorem isMultiple_congr {x y : Float} (h : (x == y) = true) (unit : Float) :
    isMultiple x unit = isMultiple y unit := by
  rw [isMultiple, isMultiple, decode_eq x, decode_eq y]
  rcases eq_or_zeros (beq_iff.1 h) with same | ⟨s, s', zero, zero'⟩
  · rw [same]
  · rw [zero, zero', numberOf, numberOf]
    cases decode unit <;> rfl

/-- Equal units have the same multiples: zeros of either sign have none. -/
theorem isMultiple_unit_congr {unit unit' : Float} (h : (unit == unit') = true) (x : Float) :
    isMultiple x unit = isMultiple x unit' := by
  rw [isMultiple, isMultiple, decode_eq unit, decode_eq unit']
  rcases eq_or_zeros (beq_iff.1 h) with same | ⟨s, s', zero, zero'⟩
  · rw [same]
  · rw [zero, zero', numberOf, numberOf]
    cases decode x <;> rfl

end DeviceTree.Double
