import Mathlib
import TabPilot.Proofs.Decimal.Quotient
import TabPilot.Value.Operator

set_option autoImplicit false

/-! # Arithmetic on integers

On integers of the signed range the operators give the exact result wherever it lies in that range
(`integer_arithmetic`). The steps of this arithmetic are checked, but for the one that turns the
remainder to the sign of the divisor, which never leaves the range (`isSigned_withSignOf`). What is
not exact goes through binary64; there a division fails for a divisor of zero only.
-/

namespace TabPilot.Value

/-- Whether an integer lies in the signed range. -/
def IsSigned (i : Int) : Prop := -Word.signedLimit ≤ i ∧ i < Word.signedLimit

instance (i : Int) : Decidable (IsSigned i) := inferInstanceAs (Decidable (_ ∧ _))

/-- A remainder with the sign of the divisor. -/
structure IsRemainder (x y r : Int) : Prop where
  divides : y ∣ x - r
  sign : r = 0 ∨ r.sign = y.sign
  less : |r| < |y|

theorem inSigned?_of_isSigned {i : Int} (h : IsSigned i) : Word.inSigned? i = some i := by
  rw [Word.inSigned?, decide_eq_true h.1, decide_eq_true h.2]
  rfl

theorem isSigned_of_inSigned? {i j : Int} (h : Word.inSigned? i = some j) : j = i ∧ IsSigned i := by
  simp only [Word.inSigned?, Bool.and_eq_true, decide_eq_true_eq,
    Option.ite_none_right_eq_some, Option.some.injEq] at h
  exact ⟨h.2.symm, h.1⟩

theorem inSigned?_eq_none {i : Int} (h : ¬ IsSigned i) : Word.inSigned? i = none := by
  cases hi : Word.inSigned? i with
  | none => rfl
  | some j => exact absurd (isSigned_of_inSigned? hi).2 h

theorem natAbs_lt_of_isSigned {i : Int} (h : IsSigned i) : i.natAbs < 2 ^ 64 := by
  unfold IsSigned Word.signedLimit at h
  omega

/-! ## Powers -/

/-- A power with a base of magnitude at least two leaves the range from the sixty-fourth on. -/
theorem not_isSigned_pow {x : Int} {n : Nat} (hx : 2 ≤ x.natAbs) (hn : 64 ≤ n) :
    ¬ IsSigned (x ^ n) := by
  have hpow : 2 ^ 64 ≤ (x ^ n).natAbs := by
    rw [Int.natAbs_pow]
    calc 2 ^ 64 ≤ 2 ^ n := Nat.pow_le_pow_right two_pos hn
      _ ≤ x.natAbs ^ n := Nat.pow_le_pow_left hx n
  unfold IsSigned Word.signedLimit
  omega

/-- The power that is looked for is the power itself if that lies in the range. -/
theorem exactPower?_eq (x : Int) (n : Nat) : exactPower? x n = Word.inSigned? (x ^ n) := by
  unfold exactPower?
  by_cases hzero : x = 0
  · subst hzero
    rw [zero_pow_eq]
    rfl
  by_cases hone : x = 1
  · subst hone
    rw [one_pow]
    simp
  by_cases hminus : x = -1
  · subst hminus
    simp only [Int.reduceNeg, neg_eq_zero, one_ne_zero, Int.reduceEq, decide_false, Bool.or_self,
      Bool.false_eq_true, if_false, if_true]
    rcases Nat.even_or_odd n with heven | hodd
    · rw [if_pos (Nat.even_iff.mp heven), heven.neg_one_pow]
      rfl
    · rw [if_neg (by rw [Nat.odd_iff.mp hodd]; decide), hodd.neg_one_pow]
      rfl
  · have hbase : 2 ≤ x.natAbs := by omega
    simp only [hzero, hone, hminus, decide_false, Bool.or_self, Bool.false_eq_true, if_false]
    by_cases hn : n < 64
    · rw [if_pos hn]
      rfl
    · rw [if_neg hn, inSigned?_eq_none (not_isSigned_pow hbase (Nat.le_of_not_lt hn))]

/-! ## Quotients and remainders -/

variable {x y : Int}

/-- A quotient lies in the range, but that of the least integer by `-1`. -/
theorem isSigned_tdiv (hx : IsSigned x) (hpair : ¬ (x = -Word.signedLimit ∧ y = -1)) :
    IsSigned (x.tdiv y) := by
  have hle : (x.tdiv y).natAbs ≤ x.natAbs := Int.natAbs_tdiv_le_natAbs x y
  unfold IsSigned Word.signedLimit at hx ⊢
  unfold Word.signedLimit at hpair
  rcases Nat.lt_or_ge y.natAbs 2 with hunit | hlarge
  · obtain rfl | rfl | rfl : y = 0 ∨ y = 1 ∨ y = -1 := by omega
    · simp
    · rw [Int.tdiv_one]
      exact hx
    · rw [Int.tdiv_neg, Int.tdiv_one]
      omega
  · have hhalf : (x.tdiv y).natAbs ≤ x.natAbs / 2 := by
      rw [Int.natAbs_tdiv]
      exact Nat.div_le_div_left hlarge two_pos
    omega

theorem quotient?_eq_some (hx : IsSigned x) (hy : y ≠ 0)
    (hpair : ¬ (x = -Word.signedLimit ∧ y = -1)) : quotient? x y = some (x.tdiv y) := by
  rw [quotient?, if_neg hy, inSigned?_of_isSigned (isSigned_tdiv hx hpair)]

theorem euclidean?_eq_some (hx : IsSigned x) (hy : y ≠ 0)
    (hpair : ¬ (x = -Word.signedLimit ∧ y = -1)) : euclidean? x y = some (x % y) := by
  rw [euclidean?, quotient?_eq_some hx hy hpair]
  rfl

theorem withSignOf_eq (y r : Int) : withSignOf y r = if y < 0 ∧ r ≠ 0 then r + y else r := by
  simp [withSignOf]

/-- The remainder that is never negative is below the divisor, so that neither it nor what the
divisor is added to leaves the range. -/
theorem isSigned_withSignOf (hy : IsSigned y) {r : Int} (h : euclidean? x y = some r) :
    IsSigned r ∧ IsSigned (withSignOf y r) := by
  obtain ⟨q, hq, rfl⟩ := Option.map_eq_some_iff.mp h
  have hne : y ≠ 0 := by
    rintro rfl
    cases hq
  change IsSigned (x % y) ∧ IsSigned (withSignOf y (x % y))
  have hlow : 0 ≤ x % y := Int.emod_nonneg x hne
  have hhigh : x % y < y.natAbs := Int.emod_lt x hne
  unfold IsSigned Word.signedLimit at hy ⊢
  refine ⟨by omega, ?_⟩
  rw [withSignOf_eq]
  split <;> omega

theorem isRemainder_withSignOf (x : Int) (hy : y ≠ 0) :
    IsRemainder x y (withSignOf y (x % y)) := by
  have hlow : 0 ≤ x % y := Int.emod_nonneg x hy
  have hhigh : x % y < |y| := Int.emod_lt_abs x hy
  have hdvd : y ∣ x - x % y := Int.dvd_self_sub_emod
  rw [withSignOf_eq]
  by_cases hcorrected : y < 0 ∧ x % y ≠ 0
  · rw [if_pos hcorrected]
    obtain ⟨hneg, hne⟩ := hcorrected
    rw [abs_of_neg hneg] at hhigh
    refine ⟨?_, .inr ?_, ?_⟩
    · have hsum : x - (x % y + y) = x - x % y - y := by ring
      rw [hsum]
      exact dvd_sub hdvd dvd_rfl
    · rw [Int.sign_eq_neg_one_of_neg hneg, Int.sign_eq_neg_one_of_neg (by omega)]
    · rw [abs_of_neg hneg, abs_of_neg (by omega)]
      omega
  · rw [if_neg hcorrected]
    refine ⟨hdvd, ?_, by rwa [abs_of_nonneg hlow]⟩
    rcases Int.lt_or_gt_of_ne hy with hneg | hpos
    · exact .inl (by_contra fun hne => hcorrected ⟨hneg, hne⟩)
    · rcases hlow.eq_or_lt with hzero | hpos'
      · exact .inl hzero.symm
      · exact .inr (by rw [Int.sign_eq_one_of_pos hpos, Int.sign_eq_one_of_pos hpos'])

/-- A remainder lies between zero and the divisor. -/
theorem IsRemainder.between {r : Int} (hy : y ≠ 0) (h : IsRemainder x y r) :
    0 < y ∧ 0 ≤ r ∧ r < y ∨ y < 0 ∧ y < r ∧ r ≤ 0 := by
  have hless := h.less
  rcases Int.lt_or_gt_of_ne hy with hneg | hpos
  · have hle : r ≤ 0 := by
      rcases h.sign with rfl | hsign
      · exact le_rfl
      · rw [Int.sign_eq_neg_one_of_neg hneg, Int.sign_eq_neg_one_iff_neg] at hsign
        exact hsign.le
    rw [abs_of_neg hneg, abs_of_nonpos hle] at hless
    exact .inr ⟨hneg, by omega, hle⟩
  · have hge : 0 ≤ r := by
      rcases h.sign with rfl | hsign
      · exact le_rfl
      · rw [Int.sign_eq_one_of_pos hpos, Int.sign_eq_one_iff_pos] at hsign
        exact hsign.le
    rw [abs_of_pos hpos, abs_of_nonneg hge] at hless
    exact .inl ⟨hpos, hge, hless⟩

/-- There is no other remainder with the sign of the divisor. -/
theorem IsRemainder.unique {r r' : Int} (hy : y ≠ 0) (h : IsRemainder x y r)
    (h' : IsRemainder x y r') : r' = r := by
  have hdvd : y ∣ r' - r := by
    have hdiff : r' - r = (x - r) - (x - r') := by ring
    rw [hdiff]
    exact dvd_sub h.divides h'.divides
  have hless : |r' - r| < |y| := by
    rw [abs_lt]
    have hbetween := h.between hy
    have hbetween' := h'.between hy
    rcases Int.lt_or_gt_of_ne hy with hneg | hpos
    · rw [abs_of_neg hneg]
      omega
    · rw [abs_of_pos hpos]
      omega
  have hzero := Int.eq_zero_of_abs_lt_dvd ((abs_dvd y _).mpr hdvd) hless
  omega

/-! ## Operators on integers -/

theorem numeric?_signed (hx : IsSigned x) : (Value.int x).numeric? = some (.int x) := by
  simp [numeric?, signed?, hx.2]

/-- The exact result, if there is one. -/
theorem binary_of_whole {op : BinaryOp} (hx : IsSigned x) (hy : IsSigned y) {i : Int}
    (h : wholeResult? op x y = some i) : binary op (.int x) (.int y) = .ok (.int i) := by
  cases op with
  | bitAnd | bitOr | bitXor => cases h
  | _ => simp only [binary, numeric?_signed hx, numeric?_signed hy, arithmetic, h]

/-- What is not exact goes through binary64. -/
theorem binary_of_inexact {op : BinaryOp} (hop : op = .divide ∨ op = .modulo) (hx : IsSigned x)
    (hy : IsSigned y) (h : wholeResult? op x y = none) :
    binary op (.int x) (.int y) = inexact op (Binary64.ofInt x) (Binary64.ofInt y) := by
  rcases hop with rfl | rfl
  · simp only [binary, numeric?_signed hx, numeric?_signed hy, arithmetic, h]
  · simp only [binary, numeric?_signed hx, numeric?_signed hy, arithmetic, h]

/-- Only zero is zero in binary64. -/
theorem ofInt_beq_zero (hy : IsSigned y) : (Binary64.ofInt y == 0.0) = true ↔ y = 0 := by
  obtain ⟨hnormal, hvalue⟩ := Binary64.value_ofInt (natAbs_lt_of_isSigned hy)
  have hunpack : (0.0 : Float).toModel.unpack = .zero .positive := rfl
  have hzero : Binary64.IsNormal 0.0 := by
    rw [Binary64.IsNormal, hunpack]
    exact .zero .positive
  have hvalue' : Binary64.value 0.0 = 0 := congrArg Binary64.rational hunpack
  rw [Binary64.beq_iff hnormal hzero, hvalue, hvalue', Int.cast_eq_zero, Binary64.rounded_eq_zero]

/-- A division fails just if the divisor is zero. -/
theorem divide_fails_iff (hx : IsSigned x) (hy : IsSigned y) :
    (∃ failure, binary .divide (.int x) (.int y) = .error failure) ↔ y = 0 := by
  constructor
  · rintro ⟨failure, hfailure⟩
    by_contra hne
    cases hwhole : wholeResult? .divide x y with
    | some i =>
        rw [binary_of_whole hx hy hwhole] at hfailure
        cases hfailure
    | none =>
        have hfinite := Binary64.isFinite_div_ofInt (natAbs_lt_of_isSigned hx)
          (natAbs_lt_of_isSigned hy) hne
        rw [binary_of_inexact (.inl rfl) hx hy hwhole] at hfailure
        simp only [inexact, ofInt_beq_zero hy, hne, if_false, finite, hfinite, if_true] at hfailure
        cases hfailure
  · rintro rfl
    refine ⟨.divisionByZero, ?_⟩
    rw [binary_of_inexact (.inl rfl) hx hy rfl]
    simp only [inexact, ofInt_beq_zero hy, if_true]

/-- The least integer by `-1` leaves nothing over. -/
theorem modulo_pair :
    binary .modulo (.int (-Word.signedLimit)) (.int (-1)) = .ok (.int 0) := by
  have hexact : Binary64.exactInt? (Binary64.ofInt (-Word.signedLimit) -
      Binary64.ofInt (-1) * Binary64.floor
        (Binary64.ofInt (-Word.signedLimit) / Binary64.ofInt (-1))) = some 0 := by
    decide +kernel
  have hfinite : Binary64.isFinite (Binary64.ofInt (-Word.signedLimit) -
      Binary64.ofInt (-1) * Binary64.floor
        (Binary64.ofInt (-Word.signedLimit) / Binary64.ofInt (-1))) = true := by
    decide +kernel
  have hdivisor : ¬ (Binary64.ofInt (-1) == 0.0) = true := by
    rw [ofInt_beq_zero (by decide)]
    decide
  rw [binary_of_inexact (.inr rfl) (by decide) (by decide) rfl]
  simp only [inexact, hdivisor, Bool.false_eq_true, if_false, finite, hfinite, if_true, ofFloat,
    hexact]

/-- **Remainders** are those with the sign of the divisor. -/
theorem modulo_eq (hx : IsSigned x) (hy : IsSigned y) (hne : y ≠ 0) :
    ∃ r, binary .modulo (.int x) (.int y) = .ok (.int r) ∧ IsRemainder x y r := by
  by_cases hpair : x = -Word.signedLimit ∧ y = -1
  · obtain ⟨rfl, rfl⟩ := hpair
    exact ⟨0, modulo_pair, by decide, .inl rfl, by decide⟩
  · have hwhole : wholeResult? .modulo x y = some (withSignOf y (x % y)) := by
      rw [wholeResult?, euclidean?_eq_some hx hne hpair]
      rfl
    exact ⟨_, binary_of_whole hx hy hwhole, isRemainder_withSignOf x hne⟩

theorem modulo_fails_iff (hx : IsSigned x) (hy : IsSigned y) :
    (∃ failure, binary .modulo (.int x) (.int y) = .error failure) ↔ y = 0 := by
  constructor
  · rintro ⟨failure, hfailure⟩
    by_contra hne
    obtain ⟨r, hr, -⟩ := modulo_eq hx hy hne
    rw [hr] at hfailure
    cases hfailure
  · rintro rfl
    refine ⟨.moduloByZero, ?_⟩
    rw [binary_of_inexact (.inr rfl) hx hy rfl]
    simp only [inexact, ofInt_beq_zero hy, if_true]

/-- A quotient that leaves nothing over. -/
theorem divide_eq (hx : IsSigned x) (hy : IsSigned y) (hne : y ≠ 0) {q : Int} (h : x = q * y)
    (hq : IsSigned q) : binary .divide (.int x) (.int y) = .ok (.int q) := by
  have hquotient : x.tdiv y = q := by rw [h, Int.mul_tdiv_cancel q hne]
  have hremainder : x.tmod y = 0 := by rw [h, Int.mul_tmod_left]
  have hwhole : wholeResult? .divide x y = some q := by
    have hsome : quotient? x y = some q := by
      rw [quotient?, if_neg hne, hquotient, inSigned?_of_isSigned hq]
    rw [wholeResult?, remainder?, hsome, Option.map_some, hremainder, if_pos rfl]
  exact binary_of_whole hx hy hwhole

theorem power_eq (hx : IsSigned x) (hy : IsSigned y) {n : Nat} (h : y = n) (hn : n < 2 ^ 32)
    (hpower : IsSigned (x ^ n)) : binary .power (.int x) (.int y) = .ok (.int (x ^ n)) := by
  subst h
  have hwhole : wholeResult? .power x n = some (x ^ n) := by
    have hlimit : n < twoTo 32 := hn
    simp only [wholeResult?, Int.natCast_nonneg, decide_true, Int.toNat_natCast, hlimit,
      Bool.and_self, if_true, exactPower?_eq, inSigned?_of_isSigned hpower]
  exact binary_of_whole hx hy hwhole

/-- **Arithmetic on integers** of the signed range is exact: sums, differences, products, quotients
that leave nothing over and powers with an exponent below `2 ^ 32` are the integers that they are,
wherever these lie in the range; a remainder is the one with the sign of the divisor; and division
and remainder fail for a divisor of zero only. The remainder is turned to that sign by a step that
nothing checks, and that never leaves the range. -/
theorem integer_arithmetic (hx : IsSigned x) (hy : IsSigned y) :
    (IsSigned (x + y) → binary .add (.int x) (.int y) = .ok (.int (x + y))) ∧
      (IsSigned (x - y) → binary .subtract (.int x) (.int y) = .ok (.int (x - y))) ∧
      (IsSigned (x * y) → binary .multiply (.int x) (.int y) = .ok (.int (x * y))) ∧
      (∀ q, y ≠ 0 → x = q * y → IsSigned q → binary .divide (.int x) (.int y) = .ok (.int q)) ∧
      (∀ n : Nat, y = n → n < 2 ^ 32 → IsSigned (x ^ n) →
        binary .power (.int x) (.int y) = .ok (.int (x ^ n))) ∧
      (y ≠ 0 → ∃ r, binary .modulo (.int x) (.int y) = .ok (.int r) ∧ IsRemainder x y r ∧
        ∀ r', IsRemainder x y r' → r' = r) ∧
      ((∃ failure, binary .divide (.int x) (.int y) = .error failure) ↔ y = 0) ∧
      ((∃ failure, binary .modulo (.int x) (.int y) = .error failure) ↔ y = 0) ∧
      (∀ r, euclidean? x y = some r → IsSigned r ∧ IsSigned (withSignOf y r)) := by
  refine ⟨fun h => binary_of_whole hx hy (inSigned?_of_isSigned h),
    fun h => binary_of_whole hx hy (inSigned?_of_isSigned h),
    fun h => binary_of_whole hx hy (inSigned?_of_isSigned h),
    fun q hne h hq => divide_eq hx hy hne h hq, fun n h hn hpower => power_eq hx hy h hn hpower,
    fun hne => ?_, divide_fails_iff hx hy, modulo_fails_iff hx hy,
    fun r h => isSigned_withSignOf hy h⟩
  obtain ⟨r, hr, hremainder⟩ := modulo_eq hx hy hne
  exact ⟨r, hr, hremainder, fun r' hr' => hremainder.unique hne hr'⟩

theorem integer_arithmetic_negative :
    binary .modulo (.int (-7)) (.int 3) = .ok (.int 2) := by
  obtain ⟨r, hr, -, hunique⟩ := (integer_arithmetic (x := -7) (y := 3) (by decide)
    (by decide)).2.2.2.2.2.1 (by decide)
  rw [hr, hunique 2 ⟨by decide, .inr rfl, by decide⟩]

end TabPilot.Value
