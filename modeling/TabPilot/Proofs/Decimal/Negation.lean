import Mathlib
import TabPilot.Decimal.Binary64

set_option autoImplicit false

/-! # The parts of a negated number

Negation turns the sign bit round and leaves the exponent and the fraction alone; what is not a
number stays so. `parts_neg` says this of the parts, and `exactInt?_neg` of the integer that a
number is.
-/

namespace TabPilot.Binary64

open Float.Model Float.Model.UnpackedFloat

/-! ## Fields -/

section Fields

variable {spec : Format} (u : UnpackedFloat)

theorem unpackExponent_pack_neg :
    unpackExponent (UnpackedFloat.pack spec u.neg) =
      unpackExponent (UnpackedFloat.pack spec u) := by
  cases u with
  | notANumber => rfl
  | infinity s | zero s =>
      simp [UnpackedFloat.neg, UnpackedFloat.pack, packedInfinity, packedZero]
  | finite s m e h =>
      simp only [UnpackedFloat.neg, UnpackedFloat.pack, packedInfinity]
      split_ifs <;> simp

theorem unpackMantissa_pack_neg :
    unpackMantissa (UnpackedFloat.pack spec u.neg) =
      unpackMantissa (UnpackedFloat.pack spec u) := by
  cases u with
  | notANumber => rfl
  | infinity s | zero s =>
      simp [UnpackedFloat.neg, UnpackedFloat.pack, packedInfinity, packedZero]
  | finite s m e h =>
      simp only [UnpackedFloat.neg, UnpackedFloat.pack, packedInfinity]
      split_ifs <;> simp

theorem unpackSign_pack_neg (h : u ≠ .notANumber) :
    unpackSign (UnpackedFloat.pack spec u.neg) = ~~~unpackSign (UnpackedFloat.pack spec u) := by
  have hneg (s : Sign) : (-s).toBitVec = ~~~s.toBitVec := by cases s <;> rfl
  cases u with
  | notANumber => exact absurd rfl h
  | infinity s | zero s =>
      simp [UnpackedFloat.neg, UnpackedFloat.pack, packedInfinity, packedZero, hneg]
  | finite s m e h =>
      simp only [UnpackedFloat.neg, UnpackedFloat.pack, packedInfinity]
      split_ifs <;> simp [hneg]

end Fields

variable (f : Float)

/-- The bits of a number, packed from what they mean. -/
theorem pack_unpack_toModel : UnpackedFloat.pack .binary64 f.toModel.unpack = f.toBits.toBitVec :=
  pack_unpack_of_valid f.toModel.valid

theorem toBitVec_toBits_neg :
    (-f).toBits.toBitVec = UnpackedFloat.pack .binary64 f.toModel.unpack.neg := rfl

theorem biased_eq : f.toBits.toNat / twoTo 52 % twoTo 11 =
    (@unpackExponent .binary64 f.toBits.toBitVec).toNat := by
  rw [unpackExponent_def, BitVec.extractLsb'_toNat, Nat.shiftRight_eq_div_pow]
  rfl

theorem fraction_eq : f.toBits.toNat % twoTo 52 =
    (@unpackMantissa .binary64 f.toBits.toBitVec).toNat := by
  rw [unpackMantissa_def, BitVec.extractLsb'_toNat, Nat.shiftRight_zero]
  rfl

theorem isNegative_eq : isNegative f =
    (@unpackSign .binary64 f.toBits.toBitVec).toNat.testBit 0 := by
  have hlt : f.toBits.toNat < 2 ^ 64 := f.toBits.toNat_lt
  have hsign : (@unpackSign .binary64 f.toBits.toBitVec).toNat =
      f.toBits.toNat / 2 ^ 63 := by
    rw [unpackSign_def, BitVec.extractLsb'_toNat, Nat.shiftRight_eq_div_pow]
    show f.toBits.toNat / 2 ^ 63 % 2 = f.toBits.toNat / 2 ^ 63
    omega
  rw [hsign, isNegative, Nat.testBit_zero]
  show decide (f.toBits.toNat / 2 ^ 63 = 1) = decide (f.toBits.toNat / 2 ^ 63 % 2 = 1)
  congr 1
  rw [eq_iff_iff]
  omega

theorem biased_neg : (-f).toBits.toNat / twoTo 52 % twoTo 11 =
    f.toBits.toNat / twoTo 52 % twoTo 11 := by
  rw [biased_eq, biased_eq, toBitVec_toBits_neg, unpackExponent_pack_neg, pack_unpack_toModel]

theorem fraction_neg : (-f).toBits.toNat % twoTo 52 = f.toBits.toNat % twoTo 52 := by
  rw [fraction_eq, fraction_eq, toBitVec_toBits_neg, unpackMantissa_pack_neg, pack_unpack_toModel]

variable {f}

theorem unpack_ne_notANumber (h : f.toBits.toNat / twoTo 52 % twoTo 11 ≠ 2047) :
    f.toModel.unpack ≠ .notANumber := by
  intro hnan
  have hbits : f.toBits.toBitVec = packedNaN .binary64 :=
    (unpack_eq_notANumber_iff_of_valid f.toModel.valid).mp hnan
  rw [biased_eq, hbits] at h
  exact h (by decide)

theorem isNegative_neg (h : f.toBits.toNat / twoTo 52 % twoTo 11 ≠ 2047) :
    isNegative (-f) = !isNegative f := by
  rw [isNegative_eq, isNegative_eq, toBitVec_toBits_neg,
    unpackSign_pack_neg _ (unpack_ne_notANumber h), pack_unpack_toModel]
  generalize @unpackSign .binary64 f.toBits.toBitVec = sign
  revert sign
  decide

/-- **Negation.** A number with its sign turned round has the same mantissa and exponent. -/
theorem parts_neg (f : Float) :
    parts (-f) = (parts f).map fun p => { p with negative := !p.negative } := by
  unfold parts
  dsimp only
  rw [biased_neg, fraction_neg]
  split
  · rfl
  · next h =>
      rw [isNegative_neg h]
      split <;> rfl

theorem exactInt?_neg (f : Float) : exactInt? (-f) = (exactInt? f).map fun i => -i := by
  unfold exactInt?
  rw [parts_neg]
  cases parts f with
  | none => rfl
  | some p =>
      have htruncate : ({ p with negative := !p.negative } : Parts).truncate = -p.truncate := by
        cases hp : p.negative <;> simp [Parts.truncate, hp, Parts.magnitude]
      simp only [Option.map_some, htruncate]
      show (if (p.isWhole && p.magnitude ≤ twoTo 53) = true then some (-p.truncate) else none) = _
      split <;> rfl

end TabPilot.Binary64
