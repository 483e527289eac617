import Mathlib
import TabPilot.Decimal.Binary64

set_option autoImplicit false

/-! # Comparing binary64 numbers

A number is packed into bits, and unpacked before anything is done with it. `Normal` says that an
unpacked number is zero or has a mantissa of 53 bits and an exponent in range: packing loses
nothing of such a number (`unpack_pack`), and comparing two of them compares the rational numbers
that they are (`lt_iff`, `beq_iff`).
-/

namespace TabPilot.Binary64

open Float.Model Float.Model.UnpackedFloat

/-- Zero, or a finite number with a mantissa of 53 bits and an exponent in range. -/
inductive Normal : UnpackedFloat → Prop
  | zero (s : Sign) : Normal (.zero s)
  | finite (s : Sign) {m : Nat} {e : Int} (pos : 0 < m) (bits : m.log2 = 52) (low : -1074 ≤ e)
      (high : e ≤ 971) : Normal (.finite s m e pos)

def rational : UnpackedFloat → ℚ
  | .finite s m e _ => s.apply m * 2 ^ e
  | _ => 0

theorem rational_positive (m : Nat) (e : Int) (pos : 0 < m) :
    rational (.finite .positive m e pos) = m * 2 ^ e := by
  simp [rational, Sign.apply]

theorem rational_negative (m : Nat) (e : Int) (pos : 0 < m) :
    rational (.finite .negative m e pos) = -(m * 2 ^ e) := by
  simp [rational, Sign.apply]

def value (f : Float) : ℚ := rational f.toModel.unpack

def IsNormal (f : Float) : Prop := Normal f.toModel.unpack

/-! ## Packing -/

theorem mantissa_bounds {m : Nat} (pos : 0 < m) (bits : m.log2 = 52) :
    2 ^ 52 ≤ m ∧ m < 2 ^ 53 :=
  (Nat.log2_eq_iff (Nat.ne_of_gt pos)).mp bits

/-- The bit that packing leaves out comes back. -/
theorem toNat_implicit {m : Nat} (pos : 0 < m) (bits : m.log2 = 52) :
    (1#1 ++ BitVec.ofNat 52 m).toNat = m := by
  obtain ⟨hlow, hhigh⟩ := mantissa_bounds pos bits
  rw [BitVec.toNat_append, ← Nat.shiftLeft_add_eq_or_of_lt (BitVec.ofNat 52 m).isLt,
    BitVec.toNat_ofNat, Nat.shiftLeft_eq]
  simp only [BitVec.toNat_ofNat]
  omega

/-- **Packing** loses nothing of a normal number. -/
theorem unpack_pack {u : UnpackedFloat} (h : Normal u) : (Float.Model.pack u).unpack = u := by
  cases h with
  | zero s => exact unpack_packedZero
  | @finite s m e pos bits low high =>
      -- The exponent is kept with 1075 added to it, and is neither zero nor all ones.
      obtain ⟨b, hb⟩ : ∃ b : Nat, (b : Int) = e + 1075 := ⟨(e + 1075).toNat, by omega⟩
      have hbiased : (e + (Format.binary64.exponentBias : Int)
          + (Format.binary64.mantissaBitsWithoutImplicit : Int)).toNat = b := by
        show (e + ((2 ^ (11 - 1) - 1 : Nat) : Int) + ((52 : Nat) : Int)).toNat = b
        omega
      have hfield : (BitVec.ofNat 11 b).toNat = b := by
        rw [BitVec.toNat_ofNat, Nat.mod_eq_of_lt (by omega)]
      have hones : BitVec.ofNat 11 b ≠ -1#11 := fun heq => by
        have : b = 2047 := by rw [← hfield, heq]; rfl
        omega
      have hzero : BitVec.ofNat 11 b ≠ 0#11 := fun heq => by
        have : b = 0 := by rw [← hfield, heq]; rfl
        omega
      show unpack Format.binary64 (UnpackedFloat.pack Format.binary64 (.finite s m e pos)) = _
      rw [UnpackedFloat.pack]
      simp only [hbiased, bits]
      rw [if_neg (show ¬ 2 ^ 11 ≤ b + 1 by omega),
        if_pos (show 52 + 1 = Format.binary64.mantissaBits from rfl), UnpackedFloat.unpack]
      simp only [unpackMantissa_packComponents, unpackExponent_packComponents,
        unpackSign_packComponents, Sign.ofBitVec_toBitVec]
      rw [if_neg hones, if_neg hzero]
      congr 1
      · exact toNat_implicit pos bits
      · show ((BitVec.ofNat 11 b).toNat : Int) - (((2 ^ (11 - 1) - 1 : Nat) : Int) + 52) = e
        rw [hfield]
        omega

theorem isNormal_pack {u : UnpackedFloat} (h : Normal u) : IsNormal ⟨Float.Model.pack u⟩ := by
  rw [IsNormal]
  exact (unpack_pack h).symm ▸ h

theorem value_pack {u : UnpackedFloat} (h : Normal u) :
    value ⟨Float.Model.pack u⟩ = rational u :=
  congrArg rational (unpack_pack h)

theorem Normal.neg {u : UnpackedFloat} (h : Normal u) : Normal u.neg := by
  cases h with
  | zero s => exact .zero _
  | finite s pos bits low high => exact .finite _ pos bits low high

theorem rational_neg (u : UnpackedFloat) : rational u.neg = -rational u := by
  cases u with
  | finite s m e pos =>
      cases s with
      | positive => exact rational_negative m e pos
      | negative =>
          rw [rational_negative, neg_neg]
          exact rational_positive m e pos
  | _ => exact neg_zero.symm

theorem IsNormal.neg {f : Float} (h : IsNormal f) : IsNormal (-f) := isNormal_pack (Normal.neg h)

theorem value_neg {f : Float} (h : IsNormal f) : value (-f) = -value f :=
  (value_pack (Normal.neg h)).trans (rational_neg _)

/-! ## Order -/

/-- Of two mantissas with 53 bits the one with the greater exponent belongs to the greater
number. -/
theorem compare_scaled {m n : Nat} {d e : Int} (hm : 0 < m) (hn : 0 < n) (bitsm : m.log2 = 52)
    (bitsn : n.log2 = 52) :
    compare ((m : ℚ) * 2 ^ d) ((n : ℚ) * 2 ^ e) = (compare d e).then (compare m n) := by
  -- Mantissas of the same length are less than a factor of two apart.
  have hless {k l : Nat} {a b : Int} (hk : k < 2 ^ 53) (hl : 2 ^ 52 ≤ l) (hab : a < b) :
      (k : ℚ) * 2 ^ a < (l : ℚ) * 2 ^ b := by
    have hk' : (k : ℚ) < 2 ^ (53 : ℤ) := by exact_mod_cast hk
    have hl' : (2 : ℚ) ^ (52 : ℤ) ≤ l := by exact_mod_cast hl
    calc (k : ℚ) * 2 ^ a < 2 ^ (53 : ℤ) * 2 ^ a := by gcongr
      _ = 2 ^ (52 : ℤ) * 2 ^ (a + 1) := by
          rw [← zpow_add₀ two_ne_zero, ← zpow_add₀ two_ne_zero]
          congr 1
          ring
      _ ≤ (l : ℚ) * 2 ^ b := by
          gcongr
          · norm_num
          · omega
  obtain ⟨hmlow, hmhigh⟩ := mantissa_bounds hm bitsm
  obtain ⟨hnlow, hnhigh⟩ := mantissa_bounds hn bitsn
  rcases lt_trichotomy d e with hlt | rfl | hgt
  · rw [compare_lt_iff_lt.mpr (hless hmhigh hnlow hlt), compare_lt_iff_lt.mpr hlt]
    rfl
  · have hpos : (0 : ℚ) < 2 ^ d := zpow_pos two_pos d
    rw [compare_eq_iff_eq.mpr (rfl : d = d)]
    rcases lt_trichotomy m n with hmn | rfl | hmn
    · have : (m : ℚ) * 2 ^ d < n * 2 ^ d := by gcongr
      rw [compare_lt_iff_lt.mpr this, compare_lt_iff_lt.mpr hmn]
      rfl
    · rw [compare_eq_iff_eq.mpr rfl, compare_eq_iff_eq.mpr rfl]
      rfl
    · have : (n : ℚ) * 2 ^ d < m * 2 ^ d := by gcongr
      rw [compare_gt_iff_gt.mpr this, compare_gt_iff_gt.mpr hmn]
      rfl
  · rw [compare_gt_iff_gt.mpr (hless hnhigh hmlow hgt), compare_gt_iff_gt.mpr hgt]
    rfl

theorem compare_neg_neg (a b : ℚ) : compare (-a) (-b) = (compare a b).swap := by
  rcases lt_trichotomy a b with h | rfl | h
  · rw [compare_lt_iff_lt.mpr h, compare_gt_iff_gt.mpr (neg_lt_neg h)]
    rfl
  · rw [compare_eq_iff_eq.mpr rfl, compare_eq_iff_eq.mpr rfl]
    rfl
  · rw [compare_gt_iff_gt.mpr h, compare_lt_iff_lt.mpr (neg_lt_neg h)]
    rfl

/-- **Comparing** two normal numbers compares the rational numbers that they are. -/
theorem compare_eq {u v : UnpackedFloat} (hu : Normal u) (hv : Normal v) :
    u.compare v = some (compare (rational u) (rational v)) := by
  have hpos {m : Nat} (e : Int) (h : 0 < m) : (0 : ℚ) < m * 2 ^ e :=
    mul_pos (Nat.cast_pos.mpr h) (zpow_pos two_pos e)
  have hneg {m : Nat} (e : Int) (h : 0 < m) : -((m : ℚ) * 2 ^ e) < 0 :=
    neg_lt_zero.mpr (hpos e h)
  -- The signs decide, and between equal signs the scales.
  cases hu with
  | zero s =>
      cases hv with
      | zero t => rfl
      | @finite t n e npos nbits nlow nhigh =>
          cases t with
          | positive =>
              rw [rational_positive,
                compare_lt_iff_lt.mpr (show rational (.zero s) < _ from hpos e npos)]
              rfl
          | negative =>
              rw [rational_negative,
                compare_gt_iff_gt.mpr (show _ < rational (.zero s) from hneg e npos)]
              rfl
  | @finite s m d mpos mbits mlow mhigh =>
      cases hv with
      | zero t =>
          cases s with
          | positive =>
              rw [rational_positive,
                compare_gt_iff_gt.mpr (show rational (.zero t) < _ from hpos d mpos)]
              rfl
          | negative =>
              rw [rational_negative,
                compare_lt_iff_lt.mpr (show _ < rational (.zero t) from hneg d mpos)]
              rfl
      | @finite t n e npos nbits nlow nhigh =>
          cases s with
          | positive =>
              cases t with
              | positive =>
                  rw [rational_positive, rational_positive,
                    compare_scaled mpos npos mbits nbits]
                  rfl
              | negative =>
                  rw [rational_positive, rational_negative,
                    compare_gt_iff_gt.mpr ((hneg e npos).trans (hpos d mpos))]
                  rfl
          | negative =>
              cases t with
              | positive =>
                  rw [rational_negative, rational_positive,
                    compare_lt_iff_lt.mpr ((hneg d mpos).trans (hpos e npos))]
                  rfl
              | negative =>
                  rw [rational_negative, rational_negative, compare_neg_neg,
                    compare_scaled mpos npos mbits nbits]
                  rfl

variable {f g : Float}

theorem lt_iff (hf : IsNormal f) (hg : IsNormal g) : f < g ↔ value f < value g := by
  show decide ((f.toModel.unpack.compare g.toModel.unpack == some .lt) = true) = true ↔ _
  rw [decide_eq_true_iff, compare_eq hf hg, beq_iff_eq, Option.some.injEq, compare_lt_iff_lt]
  rfl

theorem beq_iff (hf : IsNormal f) (hg : IsNormal g) : (f == g) = true ↔ value f = value g := by
  show (f.toModel.unpack.compare g.toModel.unpack == some .eq) = true ↔ _
  rw [compare_eq hf hg, beq_iff_eq, Option.some.injEq, compare_eq_iff_eq]
  rfl

end TabPilot.Binary64
