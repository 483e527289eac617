import TabPilot.Proofs.Decimal.Negation
import TabPilot.Proofs.Decimal.Rounding
import TabPilot.Proofs.Value.WholeNumbers

set_option autoImplicit false

/-! # Equal numbers in binary64

The parts of a number say which rational number it is (`parts_eq`), and numbers that are equal are
the same rational number. So equal numbers are the same integer, if they are one
(`exactInt?_congr`).
-/

namespace TabPilot.Binary64

open Float.Model Float.Model.UnpackedFloat

variable {f g : Float} {u v : UnpackedFloat}

/-! ## Comparing -/

/-- What compares equal is the same number. -/
theorem rational_of_compare (h : u.compare v = some .eq) :
    u.isFinite = v.isFinite ∧ rational u = rational v := by
  cases u with
  | notANumber => cases v <;> cases h
  | infinity s =>
      cases v with
      | infinity t => exact ⟨rfl, rfl⟩
      | _ => cases s <;> cases h
  | zero s =>
      cases v with
      | notANumber => cases h
      | infinity t => cases t <;> cases h
      | zero t => exact ⟨rfl, rfl⟩
      | finite t => cases t <;> cases h
  | finite s m d _ =>
      cases v with
      | notANumber => cases h
      | infinity t => cases s <;> cases t <;> cases h
      | zero t => cases s <;> cases h
      | finite t n e _ =>
          have hfields : s = t ∧ d = e ∧ m = n := by
            cases s <;> cases t <;>
              simp_all [UnpackedFloat.compare, Ordering.swap_then, Ordering.then_eq_eq]
          obtain ⟨rfl, rfl, rfl⟩ := hfields
          exact ⟨rfl, rfl⟩

/-! ## What the bits mean -/

theorem apply_ofBitVec (m : Nat) :
    ((Sign.ofBitVec (@unpackSign .binary64 f.toBits.toBitVec)).apply m : ℚ) =
      (if isNegative f then -1 else 1) * m := by
  rw [isNegative_eq]
  generalize @unpackSign .binary64 f.toBits.toBitVec = sign
  have hcases : sign = 0#1 ∨ sign = 1#1 := by
    revert sign
    decide
  rcases hcases with rfl | rfl <;> simp [Sign.ofBitVec, Sign.apply]

theorem value_of_unpack {m : Nat} {e : Int} {pos : 0 < m}
    (h : f.toModel.unpack =
      .finite (Sign.ofBitVec (@unpackSign .binary64 f.toBits.toBitVec)) m e pos) :
    value f = (⟨isNegative f, m, e⟩ : Parts).value := by
  rw [value, h, rational, apply_ofBitVec, Parts.value]

/-- A number has parts if it is finite, and the parts say which number it is. -/
theorem parts_eq (f : Float) :
    f.toModel.unpack.isFinite = (parts f).isSome ∧ ∀ p ∈ parts f, value f = p.value := by
  have hunpack : f.toModel.unpack = UnpackedFloat.unpack .binary64 f.toBits.toBitVec := rfl
  simp only [UnpackedFloat.unpack] at hunpack
  -- The exponent field tells the kinds apart: all ones for what is not finite.
  by_cases hones : f.toBits.toNat / twoTo 52 % twoTo 11 = 2047
  · have hfield : @unpackExponent .binary64 f.toBits.toBitVec = -1#11 :=
      BitVec.eq_of_toNat_eq ((biased_eq f).symm.trans hones)
    have hnone : parts f = none := if_pos hones
    rw [if_pos hfield] at hunpack
    rw [hnone, hunpack]
    refine ⟨?_, fun p hp => nomatch hp⟩
    split <;> rfl
  have hfield : @unpackExponent .binary64 f.toBits.toBitVec ≠ -1#11 := fun heq =>
    hones ((biased_eq f).trans (congrArg BitVec.toNat heq))
  rw [if_neg hfield] at hunpack
  -- All zeros for zero and the subnormal numbers, which have no implicit bit.
  by_cases hzeros : f.toBits.toNat / twoTo 52 % twoTo 11 = 0
  · have hfield' : @unpackExponent .binary64 f.toBits.toBitVec = 0#11 :=
      BitVec.eq_of_toNat_eq ((biased_eq f).symm.trans hzeros)
    have hparts : parts f = some ⟨isNegative f, f.toBits.toNat % twoTo 52, -1074⟩ :=
      (if_neg hones).trans (if_pos hzeros)
    rw [if_pos hfield'] at hunpack
    rw [hparts]
    by_cases hmantissa : @unpackMantissa .binary64 f.toBits.toBitVec = 0#52
    · have hfraction : f.toBits.toNat % twoTo 52 = 0 :=
        (fraction_eq f).trans (congrArg BitVec.toNat hmantissa)
      rw [dif_pos hmantissa] at hunpack
      refine ⟨by rw [hunpack]; rfl, fun p hp => ?_⟩
      obtain rfl := Option.some.inj hp
      simp [value, hunpack, rational, Parts.value, hfraction]
    · rw [dif_neg hmantissa] at hunpack
      refine ⟨by rw [hunpack]; rfl, fun p hp => ?_⟩
      obtain rfl := Option.some.inj hp
      rw [value_of_unpack hunpack]
      rw [hfield', fraction_eq]
      rfl
  · have hfield' : @unpackExponent .binary64 f.toBits.toBitVec ≠ 0#11 := fun heq =>
      hzeros ((biased_eq f).trans (congrArg BitVec.toNat heq))
    have hparts : parts f = some ⟨isNegative f, f.toBits.toNat % twoTo 52 + twoTo 52,
        (f.toBits.toNat / twoTo 52 % twoTo 11 : Nat) - 1075⟩ :=
      (if_neg hones).trans (if_neg hzeros)
    rw [if_neg hfield'] at hunpack
    rw [hparts]
    refine ⟨by rw [hunpack]; rfl, fun p hp => ?_⟩
    obtain rfl := Option.some.inj hp
    rw [value_of_unpack hunpack]
    congr 2
    · rw [BitVec.toNat_append, ← Nat.shiftLeft_add_eq_or_of_lt (BitVec.isLt _), fraction_eq,
        Nat.add_comm]
      rfl
    · rw [biased_eq]
      rfl

theorem Normal.isFinite (h : Normal u) : u.isFinite = true := by
  cases h <;> rfl

/-- A normal number is finite. -/
theorem IsNormal.isFinite (h : IsNormal f) : isFinite f = true :=
  (parts_eq f).1.symm.trans (Normal.isFinite h)

/-! ## Integers -/

/-- The integer that a number is, read off its value. -/
theorem exactInt?_eq_some_iff_value {i : ℤ} :
    exactInt? f = some i ↔ |i| ≤ 2 ^ 53 ∧ f.toModel.unpack.isFinite = true ∧ value f = i := by
  obtain ⟨hfinite, hvalue⟩ := parts_eq f
  rw [exactInt?_eq_some_iff, hfinite, Option.isSome_iff_exists]
  constructor
  · rintro ⟨hbound, p, hp, hi⟩
    exact ⟨hbound, ⟨p, hp⟩, (hvalue p hp).trans hi⟩
  · rintro ⟨hbound, ⟨p, hp⟩, hi⟩
    exact ⟨hbound, p, hp, (hvalue p hp).symm.trans hi⟩

/-- **Equal numbers** are the same integer, or both are none. -/
theorem exactInt?_congr (h : (f == g) = true) : exactInt? f = exactInt? g := by
  have hcompare : f.toModel.unpack.compare g.toModel.unpack = some .eq := beq_iff_eq.mp h
  obtain ⟨hfinite, hvalue⟩ := rational_of_compare hcompare
  apply Option.ext
  intro i
  rw [exactInt?_eq_some_iff_value, exactInt?_eq_some_iff_value, hfinite]
  show _ ∧ _ ∧ rational _ = _ ↔ _
  rw [hvalue]
  rfl

theorem exactInt?_ofInt {i : ℤ} (h : |i| ≤ 2 ^ 53) : exactInt? (ofInt i) = some i := by
  have hword : i.natAbs < 2 ^ 64 := by
    have := abs_le.mp h
    omega
  obtain ⟨hnormal, hvalue⟩ := value_ofInt hword
  refine exactInt?_eq_some_iff_value.mpr ⟨h, ?_, ?_⟩
  · exact Normal.isFinite hnormal
  · rw [hvalue, rounded_eq_self h]

end TabPilot.Binary64
