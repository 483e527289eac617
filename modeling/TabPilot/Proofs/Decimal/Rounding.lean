import TabPilot.Proofs.Decimal.Comparing

set_option autoImplicit false

/-! # Integers in binary64

`rounded` is the integer nearest to a given one among those with 53 binary digits and zeros after
them. It is the number that an integer becomes in binary64 (`value_ofInt`); so integers keep their
order there (`rounded_mono`), and those of magnitude at most `2 ^ 53` are kept (`rounded_eq_self`).
-/

namespace TabPilot.Binary64

open Float.Model Float.Model.UnpackedFloat

/-! ## Rounding to 53 digits -/

/-- The integer nearest to `n / 2 ^ k`; of two equally near ones the even one. -/
def nearestQuotient (n k : Nat) : Nat :=
  if 2 * (n % 2 ^ k) < 2 ^ k then n / 2 ^ k
  else if 2 * (n % 2 ^ k) = 2 ^ k then n / 2 ^ k + n / 2 ^ k % 2
  else n / 2 ^ k + 1

/-- How many binary digits of a natural number are more than 53. -/
def excess (n : Nat) : Nat := n.log2 - 52

/-- A natural number rounded to 53 binary digits. -/
def roundNat (n : Nat) : Nat := nearestQuotient n (excess n) * 2 ^ excess n

def rounded (i : Int) : Int := if i < 0 then -(roundNat i.natAbs : Int) else roundNat i.natAbs

theorem nearestQuotient_zero (n : Nat) : nearestQuotient n 0 = n := by
  simp [nearestQuotient, Nat.mod_one]

theorem nearestQuotient_bounds (n k : Nat) :
    n / 2 ^ k ≤ nearestQuotient n k ∧ nearestQuotient n k ≤ n / 2 ^ k + 1 := by
  unfold nearestQuotient
  split
  · omega
  · split <;> omega

theorem nearestQuotient_mono {m n : Nat} (k : Nat) (h : m ≤ n) :
    nearestQuotient m k ≤ nearestQuotient n k := by
  have hquotient : m / 2 ^ k ≤ n / 2 ^ k := Nat.div_le_div_right h
  rcases Nat.eq_or_lt_of_le hquotient with heq | hlt
  · -- Between the same two candidates what is left over decides.
    have hrest : m % 2 ^ k ≤ n % 2 ^ k := by
      have hm := Nat.div_add_mod m (2 ^ k)
      have hn := Nat.div_add_mod n (2 ^ k)
      rw [heq] at hm
      omega
    unfold nearestQuotient
    rw [heq]
    split_ifs <;> omega
  · exact ((nearestQuotient_bounds m k).2.trans hlt).trans (nearestQuotient_bounds n k).1

/-- The quotient has 53 digits if there are that many. -/
theorem quotient_bounds {n : Nat} (h : 52 ≤ n.log2) :
    2 ^ 52 ≤ n / 2 ^ excess n ∧ n / 2 ^ excess n < 2 ^ 53 := by
  have hn : n ≠ 0 := by
    rintro rfl
    simp at h
  have hlog : excess n + 52 = n.log2 := by
    unfold excess
    omega
  constructor
  · rw [Nat.le_div_iff_mul_le (Nat.two_pow_pos _), ← pow_add, Nat.add_comm, hlog]
    exact Nat.log2_self_le hn
  · rw [Nat.div_lt_iff_lt_mul (Nat.two_pow_pos _), ← pow_add]
    have : 53 + excess n = n.log2 + 1 := by omega
    rw [this]
    exact Nat.lt_log2_self

theorem roundNat_eq_self {n : Nat} (h : n ≤ 2 ^ 53) : roundNat n = n := by
  rcases Nat.eq_or_lt_of_le h with rfl | hlt
  · decide
  · have hexcess : excess n = 0 := by
      rcases Nat.eq_zero_or_pos n with rfl | hpos
      · rfl
      · have := (Nat.log2_lt (Nat.ne_of_gt hpos)).mpr hlt
        unfold excess
        omega
    rw [roundNat, hexcess, nearestQuotient_zero, pow_zero, Nat.mul_one]

/-- A number does not leave the powers of two that it lies between. -/
theorem roundNat_bounds {n : Nat} (h : n ≠ 0) :
    2 ^ n.log2 ≤ roundNat n ∧ roundNat n ≤ 2 ^ (n.log2 + 1) := by
  rcases Nat.lt_or_ge n (2 ^ 53) with hsmall | hlarge
  · rw [roundNat_eq_self hsmall.le]
    exact ⟨Nat.log2_self_le h, Nat.lt_log2_self.le⟩
  · have hlog : 53 ≤ n.log2 := (Nat.le_log2 h).mpr hlarge
    obtain ⟨hlow, hhigh⟩ := quotient_bounds (n := n) (by omega)
    obtain ⟨hle, hge⟩ := nearestQuotient_bounds n (excess n)
    have hexcess : 52 + excess n = n.log2 := by
      unfold excess
      omega
    constructor
    · rw [← hexcess, pow_add]
      exact Nat.mul_le_mul_right _ (hlow.trans hle)
    · have hsum : n.log2 + 1 = 53 + excess n := by omega
      rw [hsum, pow_add]
      exact Nat.mul_le_mul_right _ (hge.trans hhigh)

theorem roundNat_mono {m n : Nat} (h : m ≤ n) : roundNat m ≤ roundNat n := by
  rcases Nat.eq_zero_or_pos m with rfl | hm
  · exact Nat.zero_le _
  · have hm : m ≠ 0 := Nat.ne_of_gt hm
    have hn : n ≠ 0 := by omega
    have hlog : m.log2 ≤ n.log2 := (Nat.le_log2 hn).mpr ((Nat.log2_self_le hm).trans h)
    rcases Nat.eq_or_lt_of_le hlog with heq | hlt
    · have hexcess : excess m = excess n := by rw [excess, excess, heq]
      rw [roundNat, roundNat, hexcess]
      exact Nat.mul_le_mul_right _ (nearestQuotient_mono _ h)
    · calc roundNat m ≤ 2 ^ (m.log2 + 1) := (roundNat_bounds hm).2
        _ ≤ 2 ^ n.log2 := Nat.pow_le_pow_right two_pos hlt
        _ ≤ roundNat n := (roundNat_bounds hn).1

theorem roundNat_eq_zero {n : Nat} (h : roundNat n = 0) : n = 0 := by
  by_contra hn
  have := (roundNat_bounds hn).1
  have := Nat.two_pow_pos n.log2
  omega

/-- **Integers keep their order.** -/
theorem rounded_mono {i j : Int} (h : i ≤ j) : rounded i ≤ rounded j := by
  unfold rounded
  split
  · split
    · have hnat : j.natAbs ≤ i.natAbs := by omega
      have := roundNat_mono hnat
      omega
    · omega
  · rw [if_neg (by omega)]
    have hnat : i.natAbs ≤ j.natAbs := by omega
    exact_mod_cast roundNat_mono hnat

theorem rounded_eq_self {i : Int} (h : |i| ≤ 2 ^ 53) : rounded i = i := by
  have hnat : i.natAbs ≤ 2 ^ 53 := by
    rw [Int.abs_eq_natAbs] at h
    exact_mod_cast h
  rw [rounded, roundNat_eq_self hnat]
  split <;> omega

theorem rounded_eq_zero {i : Int} : rounded i = 0 ↔ i = 0 := by
  constructor
  · intro h
    have hnat : roundNat i.natAbs = 0 := by
      unfold rounded at h
      split at h <;> omega
    exact Int.natAbs_eq_zero.mp (roundNat_eq_zero hnat)
  · rintro rfl
    rfl

/-! ## Shifting -/

/-- What is known of a mantissa after `k` shifts: the quotient, whether at least half of a unit is
left over, and whether anything is left over beside that. -/
theorem shiftRight_exact (n k : Nat) :
    (⟨n, false, false⟩ : ExtendedMantissa) >>> k =
      ⟨n / 2 ^ k, decide (2 ^ k ≤ 2 * (n % 2 ^ k)), decide (2 * (n % 2 ^ k) % 2 ^ k ≠ 0)⟩ := by
  induction k with
  | zero => simp [HShiftRight.hShiftRight, Nat.repeat, Nat.mod_one]
  | succ k ih =>
      show ((⟨n, false, false⟩ : ExtendedMantissa) >>> k).shiftRightOne = _
      have hpos : 0 < 2 ^ k := Nat.two_pow_pos k
      have hlt : n % 2 ^ k < 2 ^ k := Nat.mod_lt _ hpos
      have hmod : n % 2 ^ (k + 1) = n % 2 ^ k + 2 ^ k * (n / 2 ^ k % 2) := Nat.mod_pow_succ
      rw [ih, ExtendedMantissa.shiftRightOne, hmod, pow_succ, Nat.div_div_eq_div_mul]
      have hbit : n / 2 ^ k % 2 = 0 ∨ n / 2 ^ k % 2 = 1 := by omega
      generalize n / 2 ^ k % 2 = bit at hbit ⊢
      generalize n % 2 ^ k = rest at hlt ⊢
      generalize 2 ^ k = unit at hpos hlt ⊢
      -- The digit that is shifted out is the half, and all that was left over before is beside it.
      have hhalf : (bit != 0) = decide (unit * 2 ≤ 2 * (rest + unit * bit)) := by
        rcases hbit with rfl | rfl
        · rw [eq_comm, decide_eq_false (by omega)]
          rfl
        · rw [eq_comm, decide_eq_true (by omega)]
          rfl
      have hall : 2 * (rest + unit * bit) % (unit * 2) = 2 * rest := by
        have hsum : 2 * (rest + unit * bit) = 2 * rest + unit * 2 * bit := by ring
        rw [hsum, Nat.add_mul_mod_self_left, Nat.mod_eq_of_lt (by omega)]
      have hbeside : (decide (unit ≤ 2 * rest) || decide (2 * rest % unit ≠ 0)) =
          decide (2 * rest ≠ 0) := by
        rcases Nat.lt_or_ge (2 * rest) unit with hless | hmore
        · rw [Nat.mod_eq_of_lt hless, decide_eq_false (Nat.not_le.mpr hless), Bool.false_or]
        · rw [decide_eq_true hmore, Bool.true_or, eq_comm, decide_eq_true (by omega)]
      rw [hhalf, hall, hbeside]

/-- Rounding a mantissa after `k` shifts. -/
theorem roundedMantissa_shiftRight (n k : Nat) :
    ((⟨n, false, false⟩ : ExtendedMantissa) >>> k).roundedMantissa = nearestQuotient n k := by
  have hlt : n % 2 ^ k < 2 ^ k := Nat.mod_lt _ (Nat.two_pow_pos k)
  rw [shiftRight_exact, nearestQuotient]
  generalize n % 2 ^ k = rest at hlt ⊢
  generalize 2 ^ k = unit at hlt ⊢
  rcases Nat.lt_trichotomy (2 * rest) unit with hless | heq | hmore
  · rw [if_pos hless, decide_eq_false (Nat.not_le.mpr hless)]
    cases decide (2 * rest % unit ≠ 0) <;> rfl
  · rw [if_neg (by omega), if_pos heq, decide_eq_true heq.ge, heq, Nat.mod_self]
    rfl
  · have hmod : 2 * rest % unit = 2 * rest - unit := by
      rw [Nat.mod_eq_sub_mod hmore.le, Nat.mod_eq_of_lt (by omega)]
    have hmore' : 2 * rest - unit ≠ 0 := by omega
    rw [if_neg (by omega), if_neg (by omega), decide_eq_true hmore.le, hmod,
      decide_eq_true hmore']
    rfl

/-! ## The number nearest to an integer -/

theorem targetExponent_eq (m : Nat) (e : Int) :
    Format.binary64.targetExponent (totalExponent m e) = max (m.log2 + e - 52) (-1074) := by
  unfold Format.targetExponent totalExponent
  show max ((m.log2 : Int) + 1 + e - ((1 + 52 : Nat) : Int))
    (3 - 2 ^ (11 - 1) - ((1 + 52 : Nat) : Int)) = _
  norm_num
  omega

/-- A shift to an exponent that is `k` greater. -/
theorem shiftToTargetExponent_eq {m k : Nat} {e : Int} {acc : Accuracy}
    (h : Format.binary64.targetExponent (totalExponent m e) = e + k) :
    shiftToTargetExponent .binary64 m e acc =
      (ExtendedMantissa.ofMantissaAndAccuracy m acc >>> k, e + k) := by
  have hshift : (e + k - e).toNat = k := by omega
  rw [shiftToTargetExponent, h, shiftToExponent, hshift]

/-- A mantissa of 53 digits, or the one after these, needs no more rounding. -/
theorem round_settles (s : Sign) {r : Nat} {e : Int} (low : 2 ^ 52 ≤ r) (high : r ≤ 2 ^ 53)
    (elow : -1074 ≤ e) (ehigh : e ≤ 970) :
    ∃ m e', ∃ pos : 0 < m, Normal (.finite s m e' pos) ∧
      rational (.finite s m e' pos) = s.apply r * 2 ^ e ∧
      (shiftToTargetExponent .binary64 r e .exact).1.mantissa = m ∧
      (shiftToTargetExponent .binary64 r e .exact).2 = e' := by
  rcases Nat.eq_or_lt_of_le high with rfl | hlt
  · -- Rounded up to a power of two, the number has a digit too many and is shifted by one.
    have htarget : Format.binary64.targetExponent (totalExponent (2 ^ 53) e) = e + (1 : Nat) := by
      rw [targetExponent_eq, Nat.log2_two_pow]
      omega
    refine ⟨2 ^ 52, e + 1, by decide,
      .finite s _ Nat.log2_two_pow (by omega) (by omega), ?_, ?_, ?_⟩
    · have hpow : (2 : ℚ) ^ (e + 1) = 2 ^ e * 2 := zpow_add_one₀ two_ne_zero e
      cases s <;> simp only [rational, Sign.apply, hpow] <;> push_cast <;> ring
    · rw [shiftToTargetExponent_eq htarget]
      show (ExtendedMantissa.mk (2 ^ 53) false false >>> 1).mantissa = 2 ^ 52
      rw [shiftRight_exact]
      exact Nat.pow_div (by decide) two_pos
    · rw [shiftToTargetExponent_eq htarget]
      rfl
  · have hpos : 0 < r := by omega
    have hbits : r.log2 = 52 := (Nat.log2_eq_iff (Nat.ne_of_gt hpos)).mpr ⟨low, hlt⟩
    have htarget : Format.binary64.targetExponent (totalExponent r e) = e + (0 : Nat) := by
      rw [targetExponent_eq, hbits]
      omega
    refine ⟨r, e, hpos, .finite s hpos hbits elow (by omega), rfl, ?_, ?_⟩
    · rw [shiftToTargetExponent_eq htarget]
      rfl
    · rw [shiftToTargetExponent_eq htarget]
      exact Int.add_zero e

/-- A mantissa that is shifted and rounded to 53 digits, or to the one after these, is settled. -/
theorem roundWithAccuracy_settles (s : Sign) {m k r : Nat} {e : Int} (acc : Accuracy)
    (target : Format.binary64.targetExponent (totalExponent m e) = e + k)
    (round : (ExtendedMantissa.ofMantissaAndAccuracy m acc >>> k).roundedMantissa = r)
    (low : 2 ^ 52 ≤ r) (high : r ≤ 2 ^ 53) (elow : -1074 ≤ e + k) (ehigh : e + k ≤ 970) :
    Normal (roundWithAccuracy .binary64 s m e acc) ∧
      rational (roundWithAccuracy .binary64 s m e acc) = s.apply r * 2 ^ (e + k) := by
  obtain ⟨m', e', pos, hnormal, hvalue, hm, he⟩ := round_settles s low high elow ehigh
  have heq : roundWithAccuracy .binary64 s m e acc = .finite s m' e' pos := by
    rw [roundWithAccuracy, shiftToTargetExponent_eq target]
    simp only [round, hm, he]
    exact dif_neg (Nat.ne_of_gt pos)
  rw [heq]
  exact ⟨hnormal, hvalue⟩

/-- Rounding an exact mantissa of 53 digits or more. -/
theorem roundWithAccuracy_exact (s : Sign) {m : Nat} {e : Int} (digits : 52 ≤ m.log2)
    (low : -1074 ≤ e) (high : e + excess m ≤ 970) :
    Normal (roundWithAccuracy .binary64 s m e .exact) ∧
      rational (roundWithAccuracy .binary64 s m e .exact) = s.apply (roundNat m) * 2 ^ e := by
  have htarget : Format.binary64.targetExponent (totalExponent m e) = e + excess m := by
    rw [targetExponent_eq, excess]
    omega
  obtain ⟨hlow, hhigh⟩ := quotient_bounds digits
  obtain ⟨hle, hge⟩ := nearestQuotient_bounds m (excess m)
  obtain ⟨hnormal, hvalue⟩ := roundWithAccuracy_settles s .exact htarget
    (roundedMantissa_shiftRight m (excess m)) (hlow.trans hle) (hge.trans hhigh) (by omega) high
  refine ⟨hnormal, hvalue.trans ?_⟩
  have hpow : (2 : ℚ) ^ (e + excess m) = 2 ^ excess m * 2 ^ e := by
    rw [add_comm, zpow_add₀ two_ne_zero, zpow_natCast]
  rw [hpow, roundNat]
  cases s <;> simp only [Sign.apply] <;> push_cast <;> ring

/-- Rounding a positive number of at most 64 digits. -/
theorem round_natural (s : Sign) {n : Nat} (pos : 0 < n) (high : n.log2 < 64) :
    Normal (UnpackedFloat.round .binary64 s n 0) ∧
      rational (UnpackedFloat.round .binary64 s n 0) = s.apply (roundNat n) := by
  have hn : n ≠ 0 := Nat.ne_of_gt pos
  have hround : UnpackedFloat.round .binary64 s n 0 =
      roundWithAccuracy .binary64 s (n <<< (52 - n.log2)) (-(52 - n.log2 : Nat)) .exact := by
    have hshift : (0 - max ((n.log2 : Int) + 0 - 52) (-1074)).toNat = 52 - n.log2 := by omega
    rw [UnpackedFloat.round, decreaseExponent]
    simp only [targetExponent_eq, hshift]
    rw [Int.zero_sub]
  rw [hround]
  rcases Nat.lt_or_ge n.log2 52 with hshort | hlong
  · -- A shorter number is made 53 digits long first, and these are all kept.
    have hpow : 2 ^ n.log2 * 2 ^ (52 - n.log2) = 2 ^ 52 := by
      rw [← pow_add]
      congr 1
      omega
    have hlow : 2 ^ 52 ≤ n <<< (52 - n.log2) := by
      rw [Nat.shiftLeft_eq, ← hpow]
      exact Nat.mul_le_mul_right _ (Nat.log2_self_le hn)
    have hhigh : n <<< (52 - n.log2) < 2 ^ 53 := by
      rw [Nat.shiftLeft_eq, pow_succ, ← hpow, mul_right_comm, ← pow_succ]
      exact Nat.mul_lt_mul_of_pos_right Nat.lt_log2_self (Nat.two_pow_pos _)
    have hbits : (n <<< (52 - n.log2)).log2 = 52 :=
      (Nat.log2_eq_iff (by omega)).mpr ⟨hlow, hhigh⟩
    obtain ⟨hnormal, hvalue⟩ := roundWithAccuracy_exact s (e := -(52 - n.log2 : Nat)) hbits.ge
      (by omega) (by rw [excess, hbits]; omega)
    refine ⟨hnormal, hvalue.trans ?_⟩
    have hsmall : n ≤ 2 ^ 53 := by
      rw [Nat.shiftLeft_eq] at hhigh
      exact ((Nat.le_mul_of_pos_right n (Nat.two_pow_pos _)).trans_lt hhigh).le
    rw [roundNat_eq_self hhigh.le, roundNat_eq_self hsmall, Nat.shiftLeft_eq, zpow_neg,
      zpow_natCast]
    have hne : (2 : ℚ) ^ (52 - n.log2) ≠ 0 := pow_ne_zero _ two_ne_zero
    cases s <;> simp only [Sign.apply] <;> push_cast <;> field_simp
  · -- A longer number is rounded as it is.
    obtain ⟨hnormal, hvalue⟩ := roundWithAccuracy_exact s (e := 0) hlong (by omega)
      (by rw [excess]; omega)
    have hzero : 52 - n.log2 = 0 := by omega
    rw [hzero]
    exact ⟨hnormal, hvalue.trans (mul_one _)⟩

/-- A natural number of 64 bits becomes the number that it is when rounded to 53 digits. -/
theorem value_ofNat {n : Nat} (h : n < 2 ^ 64) :
    IsNormal (UInt64.ofNat n).toFloat ∧ value (UInt64.ofNat n).toFloat = roundNat n := by
  have hpack : (UInt64.ofNat n).toFloat =
      ⟨Float.Model.pack (UnpackedFloat.ofNat .binary64 n)⟩ := by
    show Float.ofModel (Float.Model.pack (UnpackedFloat.ofNat .binary64 (UInt64.ofNat n).toNat)) = _
    rw [UInt64.toNat_ofNat', Nat.mod_eq_of_lt h]
  rcases Nat.eq_zero_or_pos n with rfl | hpos
  · exact ⟨hpack ▸ isNormal_pack (.zero .positive), hpack ▸ value_pack (.zero .positive)⟩
  · have hround :
        UnpackedFloat.ofNat .binary64 n = UnpackedFloat.round .binary64 .positive n 0 := by
      rw [UnpackedFloat.ofNat, UnpackedFloat.ofInt, UnpackedFloat.normalize,
        compare_gt_iff_gt.mpr (Int.natCast_pos.mpr hpos)]
      rfl
    have hlog : n.log2 < 64 := (Nat.log2_lt (Nat.ne_of_gt hpos)).mpr h
    obtain ⟨hnormal, hvalue⟩ := round_natural .positive hpos hlog
    rw [hpack, hround]
    exact ⟨isNormal_pack hnormal, (value_pack hnormal).trans (hvalue.trans (Int.cast_natCast _))⟩

/-- **An integer** of 64 bits becomes the number that it is when rounded to 53 digits. -/
theorem value_ofInt {i : Int} (h : i.natAbs < 2 ^ 64) :
    IsNormal (ofInt i) ∧ value (ofInt i) = rounded i := by
  obtain ⟨hnormal, hvalue⟩ := value_ofNat h
  unfold ofInt rounded
  split
  · exact ⟨hnormal.neg, by rw [value_neg hnormal, hvalue]; push_cast; rfl⟩
  · exact ⟨hnormal, by exact_mod_cast hvalue⟩

end TabPilot.Binary64
