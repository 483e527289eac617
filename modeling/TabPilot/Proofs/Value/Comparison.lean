import Mathlib
import TabPilot.Proofs.Decimal.Rounding
import TabPilot.Value.Operator

set_option autoImplicit false

/-! # Comparing values

Strings, truth values and integers can be ordered, the integers of 64 bits whether signed or not.
Two integers of the signed range are ordered as integers, but an integer beyond that range, and
equality always, goes through binary64, where integers that differ may be the same number
(`Merged`). `comparators_agree` says how the comparators stand to one another, and that they do so
as one expects wherever no two operands are merged.
-/

namespace TabPilot.Value

open Binary64 (ofInt rounded rounded_mono rounded_eq_self value_ofInt lt_iff beq_iff)

/-- Whether an integer is one of 64 bits, signed or unsigned. -/
def IsWord (i : Int) : Prop := -Word.signedLimit ≤ i ∧ i < Word.count

instance (i : Int) : Decidable (IsWord i) := inferInstanceAs (Decidable (_ ∧ _))

/-- Two values of one kind that has an order. -/
inductive Comparable : Value → Value → Prop
  | int {i j : Int} (left : IsWord i) (right : IsWord j) : Comparable (.int i) (.int j)
  | string (s t : String) : Comparable (.string s) (.string t)
  | bool (p q : Bool) : Comparable (.bool p) (.bool q)

/-- Whether a comparison is true. -/
def Holds (op : Comparator) (a b : Value) : Prop := compare op a b = .ok true

instance (op : Comparator) (a b : Value) : Decidable (Holds op a b) :=
  inferInstanceAs (Decidable (_ = _))

/-- Two different integers of the signed range that are the same number in binary64. -/
def Merged (a b : Value) : Prop :=
  ∃ i j, a.signed? = some i ∧ b.signed? = some j ∧ i ≠ j ∧ rounded i = rounded j

def Beyond (a : Value) : Prop := ∃ i, a = .int i ∧ Word.signedLimit ≤ i

variable {a b c : Value}

theorem Comparable.symm (h : Comparable a b) : Comparable b a := by
  cases h with
  | int left right => exact .int right left
  | string s t => exact .string t s
  | bool p q => exact .bool q p

theorem Comparable.trans (h : Comparable a b) (h' : Comparable b c) : Comparable a c := by
  cases h with
  | int left =>
      cases h' with
      | int _ right => exact .int left right
  | string s =>
      cases h' with
      | string _ t => exact .string s t
  | bool p =>
      cases h' with
      | bool _ q => exact .bool p q

/-! ## Three ways -/

theorem compareInt_eq (i j : Int) : compareInt i j = Ord.compare i j :=
  (LinearOrder.compare_eq_compareOfLessAndEq i j).symm

theorem compareString_eq (s t : String) : compareString s t = Ord.compare s t :=
  (LinearOrder.compare_eq_compareOfLessAndEq s t).symm

theorem compare_ne_gt_trans {α : Type} [LinearOrder α] {x y z : α}
    (hxy : Ord.compare x y ≠ .gt) (hyz : Ord.compare y z ≠ .gt) : Ord.compare x z ≠ .gt := by
  rw [Ne, compare_gt_iff_gt, not_lt] at hxy hyz ⊢
  exact hxy.trans hyz

theorem natAbs_lt {i : Int} (h : IsWord i) : i.natAbs < 2 ^ 64 := by
  unfold IsWord Word.signedLimit Word.count at h
  omega

/-- Integers of 64 bits in binary64 are ordered as they are when rounded. -/
theorem compareFloat_ofInt {i j : Int} (hi : IsWord i) (hj : IsWord j) :
    compareFloat (ofInt i) (ofInt j) = some (Ord.compare (rounded i) (rounded j)) := by
  obtain ⟨hin, hiv⟩ := value_ofInt (natAbs_lt hi)
  obtain ⟨hjn, hjv⟩ := value_ofInt (natAbs_lt hj)
  simp only [compareFloat, lt_iff hin hjn, lt_iff hjn hin, beq_iff hin hjn, hiv, hjv, Int.cast_lt,
    Int.cast_inj]
  rcases lt_trichotomy (rounded i) (rounded j) with h | h | h
  · rw [if_pos h, compare_lt_iff_lt.mpr h]
  · rw [if_neg h.not_lt, if_pos h, compare_eq_iff_eq.mpr h]
  · rw [if_neg h.not_gt, if_neg h.ne', if_pos h, compare_gt_iff_gt.mpr h]

theorem numeric?_int (i : Int) :
    (Value.int i).numeric? =
      some (if i < Word.signedLimit then .int i else .float (ofInt i)) := by
  unfold numeric? signed? toFloat?
  by_cases h : i < Word.signedLimit
  · simp [h]
  · simp [h]

/-- However an integer is taken, it is the same number in binary64. -/
theorem toFloat_numeric (i : Int) :
    (if i < Word.signedLimit then Numeric.int i else .float (ofInt i)).toFloat = ofInt i := by
  split <;> rfl

theorem equals_int {i j : Int} (hi : IsWord i) (hj : IsWord j) :
    equals (.int i) (.int j) = true ↔ rounded i = rounded j := by
  obtain ⟨hin, hiv⟩ := value_ofInt (natAbs_lt hi)
  obtain ⟨hjn, hjv⟩ := value_ofInt (natAbs_lt hj)
  simp only [equals, numeric?_int, toFloat_numeric]
  rw [beq_iff hin hjn, hiv, hjv, Int.cast_inj]

/-- Two integers of the signed range are ordered as integers, all others as they are when
rounded. -/
theorem ordering?_int {i j : Int} (hi : IsWord i) (hj : IsWord j) :
    ordering? (.int i) (.int j) =
      some (if i < Word.signedLimit ∧ j < Word.signedLimit then Ord.compare i j
        else Ord.compare (rounded i) (rounded j)) := by
  have hfloat := compareFloat_ofInt hi hj
  simp only [ordering?, numeric?_int]
  by_cases hsigned : i < Word.signedLimit
  · by_cases hsigned' : j < Word.signedLimit
    · simp [hsigned, hsigned', compareInt_eq]
    · simp only [hsigned, hsigned', and_false, if_true, if_false]
      exact hfloat
  · by_cases hsigned' : j < Word.signedLimit
    · simp only [hsigned, hsigned', false_and, if_true, if_false]
      exact hfloat
    · simp only [hsigned, hsigned', false_and, if_false]
      exact hfloat

/-- Values of one kind are ordered. -/
theorem exists_ordering (h : Comparable a b) : ∃ order, ordering? a b = some order := by
  cases h with
  | int left right => exact ⟨_, ordering?_int left right⟩
  | string s t => exact ⟨_, rfl⟩
  | bool p q => exact ⟨_, rfl⟩

/-- From the other side the order is the other way round. -/
theorem ordering?_swap (h : Comparable a b) :
    ordering? b a = (ordering? a b).map Ordering.swap := by
  have hswap {α : Type} [LinearOrder α] (x y : α) :
      Ord.compare y x = (Ord.compare x y).swap := Std.OrientedCmp.eq_swap
  cases h with
  | @int i j left right =>
      rw [ordering?_int left right, ordering?_int right left, Option.map_some]
      by_cases hsigned : i < Word.signedLimit ∧ j < Word.signedLimit
      · rw [if_pos hsigned, if_pos hsigned.symm, hswap]
      · rw [if_neg hsigned, if_neg (fun h => hsigned h.symm), hswap]
  | string s t =>
      show some (compareString t s) = some (compareString s t).swap
      rw [compareString_eq, compareString_eq, hswap]
  | bool p q =>
      show some (compareInt q.toNat p.toNat) = some (compareInt p.toNat q.toNat).swap
      rw [compareInt_eq, compareInt_eq, hswap]

/-- What is less when rounded is less. -/
theorem lt_of_rounded_lt {i j : Int} (h : rounded i < rounded j) : i < j := by
  by_contra hnot
  exact absurd (rounded_mono (Int.not_lt.mp hnot)) (Int.not_le.mpr h)

/-- One integer is less than another for the operators. -/
theorem ordering?_int_lt {i j : Int} (hi : IsWord i) (hj : IsWord j) :
    ordering? (.int i) (.int j) = some .lt ↔
      i < j ∧ (rounded i < rounded j ∨ i < Word.signedLimit ∧ j < Word.signedLimit) := by
  rw [ordering?_int hi hj]
  by_cases hsigned : i < Word.signedLimit ∧ j < Word.signedLimit
  · rw [if_pos hsigned, Option.some.injEq, compare_lt_iff_lt]
    exact ⟨fun h => ⟨h, .inr hsigned⟩, fun h => h.1⟩
  · rw [if_neg hsigned, Option.some.injEq, compare_lt_iff_lt]
    exact ⟨fun h => ⟨lt_of_rounded_lt h, .inl h⟩, fun h => h.2.resolve_right hsigned⟩

theorem ordering?_lt_trans (h : Comparable a b) (h' : Comparable b c)
    (hab : ordering? a b = some .lt) (hbc : ordering? b c = some .lt) :
    ordering? a c = some .lt := by
  cases h with
  | @int i j hi hj =>
      cases h' with
      | @int _ k _ hk =>
          obtain ⟨hij, hab⟩ := (ordering?_int_lt hi hj).mp hab
          obtain ⟨hjk, hbc⟩ := (ordering?_int_lt hj hk).mp hbc
          refine (ordering?_int_lt hi hk).mpr ⟨hij.trans hjk, ?_⟩
          rcases hab with hab | ⟨hsigned, -⟩
          · exact .inl (hab.trans_le (rounded_mono hjk.le))
          · rcases hbc with hbc | ⟨-, hsigned'⟩
            · exact .inl ((rounded_mono hij.le).trans_lt hbc)
            · exact .inr ⟨hsigned, hsigned'⟩
  | string s t =>
      cases h' with
      | string _ u =>
          have hab : compareString s t = .lt := Option.some.inj hab
          have hbc : compareString t u = .lt := Option.some.inj hbc
          show some (compareString s u) = some .lt
          rw [compareString_eq] at hab hbc ⊢
          rw [Std.TransCmp.lt_trans hab hbc]
  | bool p q =>
      cases h' with
      | bool _ r =>
          have hab : compareInt p.toNat q.toNat = .lt := Option.some.inj hab
          have hbc : compareInt q.toNat r.toNat = .lt := Option.some.inj hbc
          show some (compareInt p.toNat r.toNat) = some .lt
          rw [compareInt_eq] at hab hbc ⊢
          rw [Std.TransCmp.lt_trans hab hbc]

/-! ## The comparators -/

section Holds

variable {order : Ordering} (h : ordering? a b = some order)
include h

theorem compare_lt_eq : compare .lt a b = .ok (order == .lt) := by
  rw [compare, ordering, h]
  rfl

theorem compare_le_eq : compare .le a b = .ok (order != .gt) := by
  rw [compare, ordering, h]
  rfl

theorem compare_gt_eq : compare .gt a b = .ok (order == .gt) := by
  rw [compare, ordering, h]
  rfl

theorem compare_ge_eq : compare .ge a b = .ok (order != .lt) := by
  rw [compare, ordering, h]
  rfl

theorem holds_lt : Holds .lt a b ↔ order = .lt := by
  rw [Holds, compare_lt_eq h, Except.ok.injEq, beq_iff_eq]

theorem holds_le : Holds .le a b ↔ order ≠ .gt := by
  rw [Holds, compare_le_eq h, Except.ok.injEq, bne_iff_ne]

theorem holds_gt : Holds .gt a b ↔ order = .gt := by
  rw [Holds, compare_gt_eq h, Except.ok.injEq, beq_iff_eq]

theorem holds_ge : Holds .ge a b ↔ order ≠ .lt := by
  rw [Holds, compare_ge_eq h, Except.ok.injEq, bne_iff_ne]

end Holds

theorem holds_eq : Holds .eq a b ↔ equals a b = true := by
  rw [Holds, compare, Except.ok.injEq]

/-- Equality holds of what stands equal in the order, and of merged integers beside these. -/
theorem equals_iff (h : Comparable a b) :
    equals a b = true ↔ ordering? a b = some .eq ∨ Merged a b := by
  cases h with
  | @int i j hi hj =>
      rw [equals_int hi hj, ordering?_int hi hj]
      -- `equals` compares rounded numbers always, `ordering?` only beyond the signed range.
      by_cases hsigned : i < Word.signedLimit ∧ j < Word.signedLimit
      · rw [if_pos hsigned, Option.some.injEq, compare_eq_iff_eq]
        have hmerged : Merged (.int i) (.int j) ↔ i ≠ j ∧ rounded i = rounded j := by
          simp [Merged, signed?, hsigned]
        rw [hmerged]
        constructor
        · intro hrounded
          by_cases heq : i = j
          · exact .inl heq
          · exact .inr ⟨heq, hrounded⟩
        · rintro (rfl | ⟨-, hrounded⟩)
          · rfl
          · exact hrounded
      · rw [if_neg hsigned, Option.some.injEq, compare_eq_iff_eq]
        have hmerged : ¬ Merged (.int i) (.int j) := by
          rintro ⟨i', j', hi', hj', -⟩
          simp only [signed?, Option.ite_none_right_eq_some] at hi' hj'
          exact hsigned ⟨hi'.1, hj'.1⟩
        exact (or_iff_left hmerged).symm
  | string s t =>
      have hmerged : ¬ Merged (.string s) (.string t) := by
        rintro ⟨_, _, hs, -⟩
        cases hs
      rw [or_iff_left hmerged]
      show (s == t) = true ↔ some (compareString s t) = some .eq
      rw [compareString_eq, Option.some.injEq, compare_eq_iff_eq, beq_iff_eq]
  | bool p q =>
      have hmerged : ¬ Merged (.bool p) (.bool q) := by
        rintro ⟨_, _, hp, -⟩
        cases hp
      rw [or_iff_left hmerged]
      cases p <;> cases q <;> decide

theorem Merged.symm (h : Merged a b) : Merged b a := by
  obtain ⟨i, j, hi, hj, hne, hrounded⟩ := h
  exact ⟨j, i, hj, hi, hne.symm, hrounded.symm⟩

/-- Integers of moderate size are never merged. -/
theorem Merged.beyond_exact {i j : Int} (h : Merged (.int i) (.int j)) :
    2 ^ 53 < |i| ∨ 2 ^ 53 < |j| := by
  obtain ⟨i', j', hi, hj, hne, hrounded⟩ := h
  simp only [signed?, Option.ite_none_right_eq_some, Option.some.injEq] at hi hj
  obtain ⟨-, rfl⟩ := hi
  obtain ⟨-, rfl⟩ := hj
  by_contra hnot
  rw [not_or, Int.not_lt, Int.not_lt] at hnot
  rw [rounded_eq_self hnot.1, rounded_eq_self hnot.2] at hrounded
  exact hne hrounded

/-- Merged integers differ in the order. -/
theorem Merged.ordering?_ne (h : Comparable a b) (hmerged : Merged a b) :
    ordering? a b ≠ some .eq := by
  cases h with
  | @int i j hi hj =>
      obtain ⟨i', j', hi', hj', hne, -⟩ := hmerged
      simp only [signed?, Option.ite_none_right_eq_some, Option.some.injEq] at hi' hj'
      obtain ⟨hsigned, rfl⟩ := hi'
      obtain ⟨hsigned', rfl⟩ := hj'
      rw [ordering?_int hi hj, if_pos ⟨hsigned, hsigned'⟩]
      exact fun heq => hne (compare_eq_iff_eq.mp (Option.some.inj heq))
  | string s t =>
      obtain ⟨_, _, hs, -⟩ := hmerged
      cases hs
  | bool p q =>
      obtain ⟨_, _, hp, -⟩ := hmerged
      cases hp

/-- One integer is at most another for the operators. -/
theorem ordering?_int_ne_gt {i j : Int} (hi : IsWord i) (hj : IsWord j)
    (h : ordering? (.int i) (.int j) ≠ some .gt) :
    rounded i ≤ rounded j ∧ (i < Word.signedLimit → j < Word.signedLimit → i ≤ j) := by
  rw [ordering?_int hi hj] at h
  by_cases hsigned : i < Word.signedLimit ∧ j < Word.signedLimit
  · rw [if_pos hsigned, Ne, Option.some.injEq, compare_gt_iff_gt, Int.not_lt] at h
    exact ⟨rounded_mono h, fun _ _ => h⟩
  · rw [if_neg hsigned, Ne, Option.some.injEq, compare_gt_iff_gt, Int.not_lt] at h
    exact ⟨h, fun hi' hj' => absurd ⟨hi', hj'⟩ hsigned⟩

/-- What is at most something at most a third is at most the third, unless the first and the third
are merged and the one between them is beyond the signed range. -/
theorem ordering?_le_trans (h : Comparable a b) (h' : Comparable b c)
    (hab : ordering? a b ≠ some .gt) (hbc : ordering? b c ≠ some .gt) :
    ordering? a c ≠ some .gt ∨ Merged a c ∧ Beyond b := by
  cases h with
  | @int i j hi hj =>
      cases h' with
      | @int _ k _ hk =>
          obtain ⟨hij, hijle⟩ := ordering?_int_ne_gt hi hj hab
          obtain ⟨hjk, hjkle⟩ := ordering?_int_ne_gt hj hk hbc
          rw [ordering?_int hi hk]
          by_cases hsigned : i < Word.signedLimit ∧ k < Word.signedLimit
          · rw [if_pos hsigned, Ne, Option.some.injEq, compare_gt_iff_gt, Int.not_lt]
            rcases lt_or_ge k i with hki | hik
            · -- Rounded, the three go up from `i` to `k`, so they are all equal.
              have hrounded : rounded i = rounded k :=
                le_antisymm (hij.trans hjk) (rounded_mono hki.le)
              refine .inr
                ⟨⟨i, k, if_pos hsigned.1, if_pos hsigned.2, hki.ne', hrounded⟩, j, rfl, ?_⟩
              by_contra hbelow
              rw [Int.not_le] at hbelow
              have := hijle hsigned.1 hbelow
              have := hjkle hbelow hsigned.2
              omega
            · exact .inl hik
          · rw [if_neg hsigned, Ne, Option.some.injEq, compare_gt_iff_gt, Int.not_lt]
            exact .inl (hij.trans hjk)
  | string s t =>
      cases h' with
      | string _ u =>
          have hab : compareString s t ≠ .gt := fun heq => hab (congrArg some heq)
          have hbc : compareString t u ≠ .gt := fun heq => hbc (congrArg some heq)
          rw [compareString_eq] at hab hbc
          have hac : compareString s u ≠ .gt := compareString_eq s u ▸ compare_ne_gt_trans hab hbc
          exact .inl fun heq => hac (Option.some.inj heq)
  | bool p q =>
      cases h' with
      | bool _ r =>
          have hab : compareInt p.toNat q.toNat ≠ .gt := fun heq => hab (congrArg some heq)
          have hbc : compareInt q.toNat r.toNat ≠ .gt := fun heq => hbc (congrArg some heq)
          rw [compareInt_eq] at hab hbc
          have hac : compareInt p.toNat r.toNat ≠ .gt :=
            compareInt_eq p.toNat r.toNat ▸ compare_ne_gt_trans hab hbc
          exact .inl fun heq => hac (Option.some.inj heq)

/-! ## How the comparators stand to one another -/

/-- One of three statements is true, and the other two are not. -/
def ExactlyOne (p q r : Prop) : Prop := p ∧ ¬ q ∧ ¬ r ∨ ¬ p ∧ q ∧ ¬ r ∨ ¬ p ∧ ¬ q ∧ r

/-- Every comparator says something of values of one kind. -/
theorem compare_succeeds (h : Comparable a b) {op : Comparator}
    (hop : op ∈ [Comparator.eq, .lt, .le, .gt, .ge]) : ∃ truth, compare op a b = .ok truth := by
  obtain ⟨order, horder⟩ := exists_ordering h
  simp only [List.mem_cons, List.not_mem_nil, or_false] at hop
  rcases hop with rfl | rfl | rfl | rfl | rfl
  · exact ⟨_, rfl⟩
  · exact ⟨_, compare_lt_eq horder⟩
  · exact ⟨_, compare_le_eq horder⟩
  · exact ⟨_, compare_gt_eq horder⟩
  · exact ⟨_, compare_ge_eq horder⟩

theorem holds_gt_swap (h : Comparable a b) : Holds .lt a b ↔ Holds .gt b a := by
  obtain ⟨order, horder⟩ := exists_ordering h
  have hswap : ordering? b a = some order.swap := by
    rw [ordering?_swap h, horder, Option.map_some]
  rw [holds_lt horder, holds_gt hswap]
  cases order <;> decide

theorem holds_lt_trans (h : Comparable a b) (h' : Comparable b c) (hab : Holds .lt a b)
    (hbc : Holds .lt b c) : Holds .lt a c := by
  obtain ⟨order, horder⟩ := exists_ordering h
  obtain ⟨order', horder'⟩ := exists_ordering h'
  obtain rfl := (holds_lt horder).mp hab
  obtain rfl := (holds_lt horder').mp hbc
  exact (holds_lt (ordering?_lt_trans h h' horder horder')).mpr rfl

theorem holds_le_trans (h : Comparable a b) (h' : Comparable b c) (hab : Holds .le a b)
    (hbc : Holds .le b c) : Holds .le a c ∨ Merged a c ∧ Beyond b := by
  obtain ⟨order, horder⟩ := exists_ordering h
  obtain ⟨order', horder'⟩ := exists_ordering h'
  obtain ⟨order'', horder''⟩ := exists_ordering (h.trans h')
  rw [holds_le horder] at hab
  rw [holds_le horder'] at hbc
  rw [holds_le horder'']
  have htrans := ordering?_le_trans h h' (by rwa [horder, Ne, Option.some.injEq])
    (by rwa [horder', Ne, Option.some.injEq])
  rwa [horder'', Ne, Option.some.injEq] at htrans

example :
    Holds .le (.int (2 ^ 63 - 1)) (.int (2 ^ 63)) ∧ Holds .le (.int (2 ^ 63)) (.int (2 ^ 63 - 2)) ∧
      ¬ Holds .le (.int (2 ^ 63 - 1)) (.int (2 ^ 63 - 2)) := by
  decide +kernel

/-- Where nothing is merged the order decides all five comparators. -/
theorem comparators_of_not_merged (h : Comparable a b) (hmerged : ¬ Merged a b) :
    ExactlyOne (Holds .lt a b) (Holds .eq a b) (Holds .gt a b) ∧
      (Holds .le a b ↔ Holds .lt a b ∨ Holds .eq a b) ∧
      (Holds .ge a b ↔ Holds .gt a b ∨ Holds .eq a b) := by
  obtain ⟨order, horder⟩ := exists_ordering h
  have heq : Holds .eq a b ↔ order = .eq := by
    rw [holds_eq, equals_iff h, or_iff_left hmerged, horder, Option.some.injEq]
  rw [holds_lt horder, holds_le horder, holds_gt horder, holds_ge horder, heq, ExactlyOne]
  cases order <;> decide

/-- Merged integers are equal and nevertheless one of them is less. -/
theorem comparators_of_merged (h : Comparable a b) (hmerged : Merged a b) :
    Holds .eq a b ∧ (Holds .lt a b ↔ ¬ Holds .gt a b) ∧ (Holds .le a b ↔ Holds .lt a b) ∧
      (Holds .ge a b ↔ Holds .gt a b) := by
  obtain ⟨order, horder⟩ := exists_ordering h
  have hne : order ≠ .eq := fun heq => hmerged.ordering?_ne h (heq ▸ horder)
  have heq : Holds .eq a b := holds_eq.mpr ((equals_iff h).mpr (.inr hmerged))
  rw [holds_lt horder, holds_le horder, holds_gt horder, holds_ge horder]
  refine ⟨heq, ?_⟩
  revert hne
  cases order <;> decide

/-- **The comparators** agree with one another on values of one kind. Each says something, `<` is
`>` from the other side, and it is transitive; of less, equal and greater just one is true, `<=`
is less or equal and `>=` greater or equal, if the two are not merged; and `<=` is transitive,
unless the outer two are merged and an integer beyond the signed range stands between them.
Merged integers are equal for `==`, and one is less for all others; one of them is of magnitude
above `2 ^ 53`. -/
theorem comparators_agree (h : Comparable a b) (h' : Comparable b c) :
    (∀ op ∈ [Comparator.eq, .lt, .le, .gt, .ge], ∃ truth, compare op a b = .ok truth) ∧
      (Holds .lt a b ↔ Holds .gt b a) ∧
      (Holds .lt a b → Holds .lt b c → Holds .lt a c) ∧
      (Holds .le a b → Holds .le b c → Holds .le a c ∨ Merged a c ∧ Beyond b) ∧
      (¬ Merged a b →
        ExactlyOne (Holds .lt a b) (Holds .eq a b) (Holds .gt a b) ∧
          (Holds .le a b ↔ Holds .lt a b ∨ Holds .eq a b) ∧
          (Holds .ge a b ↔ Holds .gt a b ∨ Holds .eq a b)) ∧
      (Merged a b →
        Holds .eq a b ∧ (Holds .lt a b ↔ ¬ Holds .gt a b) ∧ (Holds .le a b ↔ Holds .lt a b) ∧
          (Holds .ge a b ↔ Holds .gt a b)) ∧
      (∀ i j, a = .int i → b = .int j → Merged a b → 2 ^ 53 < |i| ∨ 2 ^ 53 < |j|) := by
  refine ⟨fun op => compare_succeeds h, holds_gt_swap h, holds_lt_trans h h', holds_le_trans h h',
    comparators_of_not_merged h, comparators_of_merged h, ?_⟩
  rintro i j rfl rfl hmerged
  exact hmerged.beyond_exact

theorem comparators_agree_words :
    Comparable (.int (2 ^ 53)) (.int (2 ^ 53 + 1)) ∧
      Comparable (.int (2 ^ 53 + 1)) (.int (2 ^ 64 - 1)) ∧
      Holds .lt (.int (2 ^ 53)) (.int (2 ^ 64 - 1)) := by
  have h : Comparable (.int (2 ^ 53)) (.int (2 ^ 53 + 1)) := .int (by decide) (by decide)
  have h' : Comparable (.int (2 ^ 53 + 1)) (.int (2 ^ 64 - 1)) := .int (by decide) (by decide)
  exact ⟨h, h', (comparators_agree h h').2.2.1 (by decide +kernel) (by decide +kernel)⟩

/-- The first integer that binary64 does not hold is less than the one after it, and equal. -/
theorem less_and_equal :
    ¬ ∀ a b : Value, Comparable a b →
      ExactlyOne (Holds .lt a b) (Holds .eq a b) (Holds .gt a b) := by
  intro hall
  have hpair : Comparable (.int 9007199254740992) (.int 9007199254740993) :=
    .int (by decide) (by decide)
  have hless : Holds .lt (.int 9007199254740992) (.int 9007199254740993) := by decide +kernel
  have hequal : Holds .eq (.int 9007199254740992) (.int 9007199254740993) := by decide +kernel
  rcases hall _ _ hpair with h | h | h
  · exact h.2.1 hequal
  · exact h.1 hless
  · exact h.1 hless

end TabPilot.Value
