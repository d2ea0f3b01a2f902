import Mathlib.Data.Nat.Digits.Defs
import Mathlib.Data.Rat.Cast.Order
import Mathlib.Algebra.Order.Field.Power
import Mathlib.Tactic.FieldSimp
import Mathlib.Tactic.Positivity

/-! # Decimals written with an exponent

A decimal number is a coefficient and a power of ten, so one value has several
spellings. Its digits are counted as written, or after the trailing zeros are
dropped; either count bounds the value.
-/

namespace KitchenSense

/-- A finite `decimal.Decimal`. -/
structure Scientific where
  coefficient : ℤ
  exponent : ℤ
  deriving DecidableEq

namespace Scientific

def value (d : Scientific) : ℚ := d.coefficient * 10 ^ d.exponent

def numDigits (n : ℕ) : ℕ := max 1 (Nat.digits 10 n).length

def decimals (d : Scientific) : ℕ := (-d.exponent).toNat

/-- All digits, with the zeros a positive exponent stands for and those after the point. -/
def digits (d : Scientific) : ℕ :=
  max (numDigits d.coefficient.natAbs + d.exponent.toNat) d.decimals

def wholeDigits (d : Scientific) : ℕ := d.digits - d.decimals

def dropZeros : ℕ → ℤ → ℤ → Scientific
  | 0, c, e => ⟨c, e⟩
  | n + 1, c, e => if c % 10 = 0 then dropZeros n (c / 10) (e + 1) else ⟨c, e⟩

/-- `d.normalize()`: the same value without trailing zeros. -/
def normalize (d : Scientific) : Scientific :=
  if d.coefficient = 0 then ⟨0, 0⟩
  else dropZeros (numDigits d.coefficient.natAbs) d.coefficient d.exponent

def thousandths (d : Scientific) : ℤ :=
  if -3 ≤ d.exponent then d.coefficient * 10 ^ (d.exponent + 3).toNat
  else d.coefficient / 10 ^ (-3 - d.exponent).toNat

variable {d : Scientific}

theorem value_dropZeros (n : ℕ) (c e : ℤ) : (dropZeros n c e).value = c * 10 ^ e := by
  induction n generalizing c e with
  | zero => rfl
  | succ n ih =>
    unfold dropZeros
    split
    next h =>
      have hc : (c : ℚ) = 10 * ((c / 10 : ℤ) : ℚ) := by
        exact_mod_cast (Int.mul_ediv_cancel' (Int.dvd_of_emod_eq_zero h)).symm
      rw [ih, zpow_add_one₀ (by norm_num), hc]
      ring
    next => rfl

@[simp] theorem value_normalize (d : Scientific) : d.normalize.value = d.value := by
  unfold normalize
  split
  next h => simp [value, h]
  next => exact value_dropZeros ..

theorem natAbs_lt_pow_numDigits (c : ℤ) : c.natAbs < 10 ^ numDigits c.natAbs :=
  (Nat.lt_base_pow_length_digits (by norm_num)).trans_le
    (Nat.pow_le_pow_right (by norm_num) (le_max_right ..))

theorem abs_value_lt (d : Scientific) : |d.value| < 10 ^ d.wholeDigits := by
  have hc : |(d.coefficient : ℚ)| < 10 ^ (numDigits d.coefficient.natAbs : ℤ) := by
    rw [← Int.cast_abs, Int.abs_eq_natAbs, zpow_natCast]
    exact_mod_cast natAbs_lt_pow_numDigits d.coefficient
  have hpos : (0 : ℚ) < 10 ^ d.exponent := by positivity
  have hdigits : (numDigits d.coefficient.natAbs : ℤ) + d.exponent ≤ d.wholeDigits := by
    unfold wholeDigits digits decimals
    omega
  calc |d.value| = |(d.coefficient : ℚ)| * 10 ^ d.exponent := by
        rw [value, abs_mul, abs_of_pos hpos]
    _ < 10 ^ (numDigits d.coefficient.natAbs : ℤ) * 10 ^ d.exponent :=
        mul_lt_mul_of_pos_right hc hpos
    _ = 10 ^ ((numDigits d.coefficient.natAbs : ℤ) + d.exponent) :=
        (zpow_add₀ (by norm_num) ..).symm
    _ ≤ 10 ^ (d.wholeDigits : ℤ) := zpow_le_zpow_right₀ (by norm_num) hdigits
    _ = 10 ^ d.wholeDigits := zpow_natCast ..

/-- With at most three decimals the value is a number of thousandths. -/
theorem exists_thousandths (h : d.decimals ≤ 3) : ∃ m : ℤ, d.value * 1000 = m := by
  have he : 0 ≤ d.exponent + 3 := by
    unfold decimals at h
    omega
  refine ⟨d.coefficient * 10 ^ (d.exponent + 3).toNat, ?_⟩
  have hpow : (10 : ℚ) ^ (d.exponent + 3).toNat = 10 ^ d.exponent * 1000 := by
    rw [← zpow_natCast, Int.toNat_of_nonneg he, zpow_add₀ (by norm_num)]
    norm_num
  push_cast
  rw [hpow, value, mul_assoc]

theorem thousandths_eq {m : ℤ} (h : d.value * 1000 = m) : d.thousandths = m := by
  unfold thousandths
  split
  next he =>
    have hpow : (10 : ℚ) ^ (d.exponent + 3).toNat = 10 ^ d.exponent * 1000 := by
      rw [← zpow_natCast, Int.toNat_of_nonneg (by omega), zpow_add₀ (by norm_num)]
      norm_num
    have hq : ((d.coefficient * 10 ^ (d.exponent + 3).toNat : ℤ) : ℚ) = m := by
      push_cast
      rw [hpow, ← h, value, mul_assoc]
    exact_mod_cast hq
  next he =>
    have hpow : (10 : ℚ) ^ d.exponent * 1000 * 10 ^ (-3 - d.exponent).toNat = 1 := by
      rw [← zpow_natCast, Int.toNat_of_nonneg (by omega), mul_right_comm,
        ← zpow_add₀ (by norm_num)]
      have hs : d.exponent + (-3 - d.exponent) = -3 := by ring
      rw [hs]
      norm_num
    have hc : d.coefficient = m * 10 ^ (-3 - d.exponent).toNat := by
      have hq : (d.coefficient : ℚ) = ((m * 10 ^ (-3 - d.exponent).toNat : ℤ) : ℚ) := by
        push_cast
        rw [← h, value, mul_assoc, mul_assoc, ← mul_assoc (10 ^ d.exponent), hpow, mul_one]
      exact_mod_cast hq
    rw [hc, Int.mul_ediv_cancel _ (by positivity)]

end Scientific

end KitchenSense
