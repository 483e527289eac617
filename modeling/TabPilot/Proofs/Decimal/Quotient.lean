import TabPilot.Proofs.Decimal.Equality

set_option autoImplicit false

/-! # Quotients in binary64

The quotient of two normal numbers is a normal number if it lies in the range of these. So the
quotient of two integers of 64 bits is a finite number (`isFinite_div_ofInt`), unless the second is
zero.
-/

namespace TabPilot.Binary64

open Float.Model Float.Model.UnpackedFloat

/-! ## Rounding what is left of a division -/

theorem shiftRight_mantissa (em : ExtendedMantissa) (k : Nat) :
    (em >>> k).mantissa = em.mantissa / 2 ^ k := by
  induction k with
  | zero => simp [HShiftRight.hShiftRight, Nat.repeat]
  | succ k ih =>
      show ((em >>> k).shiftRightOne).mantissa = _
      rw [ExtendedMantissa.shiftRightOne, pow_succ, ← Nat.div_div_eq_div_mul, ← ih]

theorem roundedMantissa_bounds (em : ExtendedMantissa) :
    em.mantissa ≤ em.roundedMantissa ∧ em.roundedMantissa ≤ em.mantissa + 1 := by
  unfold ExtendedMantissa.roundedMantissa Accuracy.roundToNearestEven
  split <;> omega

theorem mantissa_ofMantissaAndAccuracy (m : Nat) (acc : Accuracy) :
    (ExtendedMantissa.ofMantissaAndAccuracy m acc).mantissa = m := by
  unfold ExtendedMantissa.ofMantissaAndAccuracy
  split <;> rfl

/-- Whatever a mantissa of 53 digits or more leaves out, it is rounded to a normal number. -/
theorem normal_roundWithAccuracy (s : Sign) {m : Nat} {e : Int} (acc : Accuracy)
    (digits : 52 ≤ m.log2) (low : -1074 ≤ e) (high : e + excess m ≤ 970) :
    Normal (roundWithAccuracy .binary64 s m e acc) := by
  have htarget : Format.binary64.targetExponent (totalExponent m e) = e + excess m := by
    rw [targetExponent_eq, excess]
    omega
  obtain ⟨hlow, hhigh⟩ := quotient_bounds digits
  obtain ⟨hle, hge⟩ := roundedMantissa_bounds
    (ExtendedMantissa.ofMantissaAndAccuracy m acc >>> excess m)
  rw [shiftRight_mantissa, mantissa_ofMantissaAndAccuracy] at hle hge
  exact (roundWithAccuracy_settles s acc htarget rfl (hlow.trans hle) (hge.trans hhigh) (by omega)
    high).1

theorem divCore_eq {m n : Nat} {e f : Int} (hm : m.log2 = 52) (hn : n.log2 = 52)
    (low : -1021 ≤ e - f) :
    divCore .binary64 m e n f =
      (m <<< 53 / n, e - f - 53, accuracyOfFraction (m <<< 53 % n) n) := by
  have htarget : min (e - f)
      (Format.binary64.targetExponent (totalExponent m e - totalExponent n f)) = e - f - 53 := by
    have htotal : totalExponent m e - totalExponent n f = e - f := by
      rw [totalExponent, totalExponent, hm, hn]
      omega
    rw [htotal, Format.targetExponent]
    show min (e - f) (max (e - f - ((1 + 52 : Nat) : Int)) (-1074)) = _
    omega
  have hshift : (e - f - (e - f - 53)).toNat = 53 := by omega
  rw [divCore]
  simp only [htarget, hshift]

/-- The quotient of two mantissas of 53 digits. -/
theorem normal_div {s t : Sign} {m n : Nat} {e f : Int} {mpos : 0 < m} {npos : 0 < n}
    (hm : m.log2 = 52) (hn : n.log2 = 52) (low : -1021 ≤ e - f) (high : e - f ≤ 970) :
    Normal (UnpackedFloat.div .binary64 (.finite s m e mpos) (.finite t n f npos)) := by
  obtain ⟨hmlow, hmhigh⟩ := mantissa_bounds mpos hm
  obtain ⟨hnlow, hnhigh⟩ := mantissa_bounds npos hn
  have hqlow : 2 ^ 52 ≤ m <<< 53 / n := by
    rw [Nat.shiftLeft_eq, Nat.le_div_iff_mul_le npos]
    exact Nat.mul_le_mul hmlow hnhigh.le
  have hqhigh : m <<< 53 / n < 2 ^ 54 := by
    rw [Nat.shiftLeft_eq, Nat.div_lt_iff_lt_mul npos]
    omega
  have hqpos : m <<< 53 / n ≠ 0 := by omega
  have hqlog : (m <<< 53 / n).log2 < 54 := (Nat.log2_lt hqpos).mpr hqhigh
  rw [UnpackedFloat.div, divCore_eq hm hn low]
  exact normal_roundWithAccuracy (s / t) _ ((Nat.le_log2 hqpos).mpr hqlow) (by omega)
    (by rw [excess]; omega)

/-- A mantissa of 53 digits stands for a number of at least one and at most `2 ^ 64` with a moderate
exponent only. -/
theorem exponent_bounds {s : Sign} {m : Nat} {e : Int} {pos : 0 < m} (bits : m.log2 = 52)
    (low : 1 ≤ |rational (.finite s m e pos)|) (high : |rational (.finite s m e pos)| ≤ 2 ^ 64) :
    -53 ≤ e ∧ e ≤ 12 := by
  obtain ⟨hlow, hhigh⟩ := mantissa_bounds pos bits
  have hpos : (0 : ℚ) < 2 ^ e := zpow_pos two_pos e
  have hmagnitude : |rational (.finite s m e pos)| = m * 2 ^ e := by
    cases s with
    | positive => rw [rational_positive, abs_of_nonneg (by positivity)]
    | negative => rw [rational_negative, abs_neg, abs_of_nonneg (by positivity)]
  rw [hmagnitude] at low high
  have hlow' : (2 : ℚ) ^ (52 : ℤ) ≤ m := by exact_mod_cast hlow
  have hhigh' : (m : ℚ) < 2 ^ (53 : ℤ) := by exact_mod_cast hhigh
  constructor
  · have hone : (2 : ℚ) ^ (0 : ℤ) < 2 ^ (53 + e) := by
      rw [zpow_zero, zpow_add₀ two_ne_zero]
      exact low.trans_lt (mul_lt_mul_of_pos_right hhigh' hpos)
    have := (zpow_lt_zpow_iff_right₀ one_lt_two).mp hone
    omega
  · have hlimit : (2 : ℚ) ^ (52 + e) ≤ 2 ^ (64 : ℤ) := by
      rw [zpow_add₀ two_ne_zero]
      exact (mul_le_mul_of_nonneg_right hlow' hpos.le).trans (by exact_mod_cast high)
    have := (zpow_le_zpow_iff_right₀ one_lt_two).mp hlimit
    omega

theorem abs_rounded {i : Int} (h : i.natAbs < 2 ^ 64) (hne : i ≠ 0) :
    1 ≤ |rounded i| ∧ |rounded i| ≤ 2 ^ 64 := by
  have habs : |rounded i| = roundNat i.natAbs := by
    unfold rounded
    split
    · rw [abs_neg, Nat.abs_cast]
    · rw [Nat.abs_cast]
  have hnat : i.natAbs ≠ 0 := Int.natAbs_ne_zero.mpr hne
  obtain ⟨hlow, hhigh⟩ := roundNat_bounds hnat
  have hlog : i.natAbs.log2 < 64 := (Nat.log2_lt hnat).mpr h
  rw [habs]
  constructor
  · exact_mod_cast Nat.one_le_two_pow.trans hlow
  · exact_mod_cast hhigh.trans (Nat.pow_le_pow_right two_pos hlog)

/-- An integer of 64 bits that is not zero, unpacked. -/
theorem unpack_ofInt {i : Int} (h : i.natAbs < 2 ^ 64) (hne : i ≠ 0) :
    ∃ s m e, ∃ pos : 0 < m, (ofInt i).toModel.unpack = .finite s m e pos ∧ m.log2 = 52 ∧
      -53 ≤ e ∧ e ≤ 12 := by
  obtain ⟨hnormal, hvalue⟩ := value_ofInt h
  obtain ⟨hlow, hhigh⟩ := abs_rounded h hne
  have hlow' : 1 ≤ |value (ofInt i)| := by rw [hvalue]; exact_mod_cast hlow
  have hhigh' : |value (ofInt i)| ≤ 2 ^ 64 := by rw [hvalue]; exact_mod_cast hhigh
  unfold IsNormal at hnormal
  unfold value at hlow' hhigh'
  cases hunpack : (ofInt i).toModel.unpack with
  | finite s m e pos =>
      rw [hunpack] at hnormal hlow' hhigh'
      have hbits : m.log2 = 52 := by
        cases hnormal
        assumption
      exact ⟨s, m, e, pos, rfl, hbits, exponent_bounds hbits hlow' hhigh'⟩
  | zero s =>
      have hzero : rational (.zero s) = 0 := rfl
      rw [hunpack, hzero, abs_zero] at hlow'
      exact absurd hlow' (by norm_num)
  | infinity s | notANumber =>
      rw [hunpack] at hnormal
      cases hnormal

/-- **The quotient** of two integers of 64 bits is finite, unless the second one is zero. -/
theorem isFinite_div_ofInt {i j : Int} (hi : i.natAbs < 2 ^ 64) (hj : j.natAbs < 2 ^ 64)
    (hne : j ≠ 0) : isFinite (ofInt i / ofInt j) = true := by
  obtain ⟨t, n, f, npos, hunpack, hn, hlow, hhigh⟩ := unpack_ofInt hj hne
  suffices hnormal : Normal (UnpackedFloat.div .binary64 (ofInt i).toModel.unpack
      (ofInt j).toModel.unpack) from (isNormal_pack hnormal).isFinite
  rw [hunpack]
  by_cases hzero : i = 0
  · subst hzero
    exact .zero _
  · obtain ⟨s, m, e, mpos, hunpack', hm, hlow', hhigh'⟩ := unpack_ofInt hi hzero
    rw [hunpack']
    exact normal_div hm hn (by omega) (by omega)

end TabPilot.Binary64
