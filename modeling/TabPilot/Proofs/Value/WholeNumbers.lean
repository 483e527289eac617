import Mathlib.Algebra.Order.Field.Rat
import Mathlib.Algebra.Ring.Int.Parity
import Mathlib.Data.Rat.Cast.Order
import Mathlib.Tactic.NormNum
import Mathlib.Tactic.Ring
import TabPilot.Decimal.Binary64

set_option autoImplicit false

/-! # Whole numbers in binary64

`Parts.value` is the rational number that a finite binary64 number is, and `IsSmallWhole` says by
it that a number is an integer of magnitude at most `2 ^ 53`. The view that scripts use,
`exactInt?`, works on mantissa and exponent; `exactInt?_eq_some_iff` says that it finds the
integer whenever there is one.
-/

namespace TabPilot.Binary64

/-- The number itself: `± mantissa · 2 ^ exponent`. -/
def Parts.value (p : Parts) : ℚ :=
  (if p.negative then -1 else 1) * p.mantissa * 2 ^ p.exponent

/-- Whether a number is an integer of magnitude at most `2 ^ 53`. -/
def IsSmallWhole (f : Float) : Prop :=
  ∃ p, parts f = some p ∧ ∃ i : ℤ, |i| ≤ 2 ^ 53 ∧ p.value = i

namespace Parts

variable {p : Parts}

theorem abs_truncate (p : Parts) : |p.truncate| = p.magnitude := by
  unfold truncate
  split <;> simp

/-- With an exponent below zero the point stands inside the mantissa. -/
theorem magnitude_mul_of_isWhole (h : p.isWhole = true) (hneg : p.exponent < 0) :
    p.magnitude * 2 ^ (-p.exponent).toNat = p.mantissa := by
  have hnot : ¬ 0 ≤ p.exponent := Int.not_le.mpr hneg
  simp only [isWhole, hnot, decide_false, Bool.false_or, decide_eq_true_eq] at h
  rw [magnitude, if_neg hnot]
  exact Nat.div_mul_cancel (Nat.dvd_of_mod_eq_zero h)

/-- The magnitude, with what the mantissa and the exponent say. -/
theorem mantissa_mul_of_isWhole (h : p.isWhole = true) :
    (p.mantissa : ℚ) * 2 ^ p.exponent = p.magnitude := by
  rcases lt_or_ge p.exponent 0 with hneg | hpos
  · obtain ⟨k, hk⟩ : ∃ k : ℕ, p.exponent = -k := ⟨(-p.exponent).toNat, by omega⟩
    have hmantissa := magnitude_mul_of_isWhole h hneg
    have hto : (-p.exponent).toNat = k := by omega
    rw [hto] at hmantissa
    have hpow : (2 : ℚ) ^ k ≠ 0 := pow_ne_zero k two_ne_zero
    calc (p.mantissa : ℚ) * 2 ^ p.exponent
        = ((p.magnitude * 2 ^ k : ℕ) : ℚ) * 2 ^ (-(k : ℤ)) := by rw [hmantissa, hk]
      _ = p.magnitude * ((2 : ℚ) ^ k * (2 ^ k)⁻¹) := by
          rw [zpow_neg, zpow_natCast]; push_cast; ring
      _ = p.magnitude := by rw [mul_inv_cancel₀ hpow, mul_one]
  · obtain ⟨k, hk⟩ := Int.eq_ofNat_of_zero_le hpos
    have hmagnitude : p.magnitude = p.mantissa * 2 ^ k := by
      rw [magnitude, if_pos hpos, hk]
      rfl
    rw [hmagnitude, hk, zpow_natCast]
    push_cast
    ring

theorem value_eq_truncate (h : p.isWhole = true) : p.value = p.truncate := by
  rw [value, mul_assoc, mantissa_mul_of_isWhole h, truncate]
  split <;> simp

theorem abs_value (p : Parts) : |p.value| = p.mantissa * 2 ^ p.exponent := by
  have hpos : (0 : ℚ) ≤ p.mantissa * 2 ^ p.exponent :=
    mul_nonneg (Nat.cast_nonneg _) (zpow_nonneg zero_le_two _)
  rw [value, mul_assoc]
  split
  · rw [neg_one_mul, abs_neg, abs_of_nonneg hpos]
  · rw [one_mul, abs_of_nonneg hpos]

/-- A number that is an integer has no part after the point. -/
theorem isWhole_of_value_eq {i : ℤ} (h : p.value = i) : p.isWhole = true := by
  rcases lt_or_ge p.exponent 0 with hneg | hpos
  · obtain ⟨k, hk⟩ : ∃ k : ℕ, p.exponent = -k := ⟨(-p.exponent).toNat, by omega⟩
    have hpow : (2 : ℚ) ^ k ≠ 0 := pow_ne_zero k two_ne_zero
    have habs : (p.mantissa : ℚ) * (2 ^ k)⁻¹ = (i.natAbs : ℚ) := by
      rw [← zpow_natCast, ← zpow_neg, ← hk, ← abs_value, h, Nat.cast_natAbs, Int.cast_abs]
    have hmantissa : p.mantissa = i.natAbs * 2 ^ k := by
      have : (p.mantissa : ℚ) = i.natAbs * 2 ^ k := by
        rw [← habs, mul_assoc, inv_mul_cancel₀ hpow, mul_one]
      exact_mod_cast this
    have hto : (-p.exponent).toNat = k := by omega
    have hmod : p.mantissa % 2 ^ (-p.exponent).toNat = 0 := by
      rw [hto, hmantissa, Nat.mul_mod_left]
    rw [isWhole, Bool.or_eq_true]
    exact .inr (decide_eq_true hmod)
  · rw [isWhole, decide_eq_true hpos, Bool.true_or]

end Parts

/-- **The exact view.** What `exactInt?` finds is the integer that the number is, and it finds one
for every integer of magnitude at most `2 ^ 53`. -/
theorem exactInt?_eq_some_iff {f : Float} {i : ℤ} :
    exactInt? f = some i ↔ |i| ≤ 2 ^ 53 ∧ ∃ p, parts f = some p ∧ p.value = i := by
  have hbound (p : Parts) : |p.truncate| ≤ 2 ^ 53 ↔ p.magnitude ≤ twoTo 53 := by
    rw [p.abs_truncate]
    exact Nat.cast_le (α := ℤ)
  unfold exactInt?
  constructor
  · intro h
    split at h
    · next p hp =>
        split at h
        · next hwhole =>
            obtain rfl := Option.some.inj h
            rw [Bool.and_eq_true, decide_eq_true_eq] at hwhole
            exact ⟨(hbound p).mpr hwhole.2, p, hp, Parts.value_eq_truncate hwhole.1⟩
        · cases h
    · cases h
  · rintro ⟨hi, p, hp, hvalue⟩
    have hwhole : p.isWhole = true := Parts.isWhole_of_value_eq hvalue
    have htruncate : p.truncate = i := by
      have := (Parts.value_eq_truncate hwhole).symm.trans hvalue
      exact_mod_cast this
    have hmagnitude : p.magnitude ≤ twoTo 53 := (hbound p).mp (htruncate ▸ hi)
    simp [hp, hwhole, hmagnitude, htruncate]

theorem isSmallWhole_iff {f : Float} : IsSmallWhole f ↔ ∃ i, exactInt? f = some i := by
  constructor
  · rintro ⟨p, hp, i, hbound, hvalue⟩
    exact ⟨i, exactInt?_eq_some_iff.mpr ⟨hbound, p, hp, hvalue⟩⟩
  · rintro ⟨i, hi⟩
    obtain ⟨hbound, p, hp, hvalue⟩ := exactInt?_eq_some_iff.mp hi
    exact ⟨p, hp, i, hbound, hvalue⟩

theorem exactInt?_eq_none_iff {f : Float} : exactInt? f = none ↔ ¬ IsSmallWhole f := by
  rw [isSmallWhole_iff, ← Option.ne_none_iff_exists', not_not]

theorem isSmallWhole_two : IsSmallWhole 2.0 :=
  isSmallWhole_iff.mpr ⟨2, by decide +kernel⟩

end TabPilot.Binary64
