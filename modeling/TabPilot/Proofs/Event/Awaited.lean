import TabPilot.Command.Events
import TabPilot.Proofs.Decimal.Equality
import TabPilot.Proofs.Script.Shape
import TabPilot.Proofs.Value.Comparison

set_option autoImplicit false

/-! # Waiting for a value

A wait may ask for an event with a certain value at a path, and scripts compare values by `==`.
The wait wants the very value, while `==` takes two numbers for equal that are so in binary64.
For the values of literals `meets_iff_holds` says that the two agree but for numbers that are
`Blurred`: a float of the payload that is a whole number, since literals of whole numbers are
integers, and integers of magnitude above `2 ^ 53`.
-/

namespace TabPilot

def Value.Writable (v : Value) : Prop := v.IsLiteral ∨ ∃ s, v = .string s

/-- A number of a payload and the number of a literal that are different values, although they may
be equal in binary64. -/
inductive Value.Blurred : Value → Value → Prop
  /-- Payloads are taken as they come, but the literal of a whole number is read as an integer. -/
  | whole {f : Float} {j : Int} (exact : Binary64.exactInt? f = some j) :
      Blurred (.float f) (.int j)
  | floatAndInt {f : Float} {j : Int} (large : 2 ^ 53 < |j|) : Blurred (.float f) (.int j)
  | intAndFloat {i : Int} {f : Float} (large : 2 ^ 53 < |i|) : Blurred (.int i) (.float f)
  | ints {i j : Int} (differ : i ≠ j) (large : 2 ^ 53 < |i| ∨ 2 ^ 53 < |j|) :
      Blurred (.int i) (.int j)

namespace Value

open Binary64 (ofInt rounded rounded_eq_self exactInt? exactInt?_congr exactInt?_ofInt)

variable {x v : Value} {f : Float} {i j : Int}

/-! ## The same and equal -/

theorem equals_of_not_numeric (h : v.numeric? = none) : equals x v = x.same v := by
  rw [equals, h]
  rcases x.numeric? with _ | a <;> rfl

theorem equals_float_float (f g : Float) : equals (.float f) (.float g) = (f == g) := rfl

theorem equals_float_int (f : Float) (j : Int) : equals (.float f) (.int j) = (f == ofInt j) := by
  simp only [equals, numeric?_int]
  show (f == _) = _
  rw [toFloat_numeric]

theorem equals_int_float (i : Int) (f : Float) : equals (.int i) (.float f) = (ofInt i == f) := by
  simp only [equals, numeric?_int]
  show (_ == f) = _
  rw [toFloat_numeric]

/-- Integers of moderate size are words. -/
theorem isWord_of_abs_le (h : |i| ≤ 2 ^ 53) : IsWord i := by
  have := abs_le.mp h
  unfold IsWord Word.signedLimit Word.count
  omega

/-- Two integers are the same just if they are equal and not blurred. -/
theorem int_eq_iff (hj : IsWord j) :
    j = i ↔ equals (.int i) (.int j) = true ∧ ¬ Blurred (.int i) (.int j) := by
  constructor
  · rintro rfl
    refine ⟨(equals_int hj hj).mpr rfl, fun hblurred => ?_⟩
    cases hblurred with
    | ints differ => exact differ rfl
  · rintro ⟨hequals, hblurred⟩
    by_contra hne
    have hsmall : ¬ (2 ^ 53 < |i| ∨ 2 ^ 53 < |j|) := fun hlarge =>
      hblurred (.ints (Ne.symm hne) hlarge)
    rw [not_or, Int.not_lt, Int.not_lt] at hsmall
    have hrounded := (equals_int (isWord_of_abs_le hsmall.1) hj).mp hequals
    rw [rounded_eq_self hsmall.1, rounded_eq_self hsmall.2] at hrounded
    exact hne hrounded.symm

/-- A float that is equal to an integer is blurred. -/
theorem blurred_float_int (h : equals (.float f) (.int j) = true) :
    Blurred (.float f) (.int j) := by
  rw [equals_float_int] at h
  by_cases hsmall : |j| ≤ 2 ^ 53
  · exact .whole ((exactInt?_congr h).trans (exactInt?_ofInt hsmall))
  · exact .floatAndInt (Int.not_le.mp hsmall)

/-- An integer that is equal to a float that no integer is exactly. -/
theorem blurred_int_float (hproper : exactInt? f = none)
    (h : equals (.int i) (.float f) = true) : Blurred (.int i) (.float f) := by
  rw [equals_int_float] at h
  by_cases hsmall : |i| ≤ 2 ^ 53
  · cases hproper.symm.trans ((exactInt?_congr h).symm.trans (exactInt?_ofInt hsmall))
  · exact .intAndFloat (Int.not_le.mp hsmall)

theorem not_blurred (h : v.numeric? = none) : ¬ Blurred x v := by
  intro hblurred
  cases hblurred with
  | intAndFloat => cases h
  | _ =>
      rw [numeric?_int] at h
      cases h

/-- Beside what is no number nothing can be blurred. -/
theorem same_iff_of_not_numeric (h : v.numeric? = none) (hcomm : v.same x = x.same v) :
    v.same x = true ↔ equals x v = true ∧ ¬ Blurred x v := by
  rw [equals_of_not_numeric h, hcomm]
  exact (and_iff_left (not_blurred h)).symm

/-- **The value of a literal** is the same as another value just if the two are equal and not
blurred. -/
theorem same_iff_equals (hv : v.Writable) :
    v.same x = true ↔ equals x v = true ∧ ¬ Blurred x v := by
  -- Where `same` denies, `equals` may hold only between an integer and a float.
  have hno (h : v.same x = false) (hblurred : equals x v = true → Blurred x v) :
      v.same x = true ↔ equals x v = true ∧ ¬ Blurred x v := by
    rw [h]
    constructor
    · intro htrue
      cases htrue
    · rintro ⟨hequals, hnot⟩
      exact absurd (hblurred hequals) hnot
  cases v with
  | null => exact same_iff_of_not_numeric rfl (by cases x <;> rfl)
  | bool p =>
      refine same_iff_of_not_numeric rfl ?_
      cases x with
      | bool q => exact BEq.comm
      | _ => rfl
  | string s =>
      refine same_iff_of_not_numeric rfl ?_
      cases x with
      | string t => exact BEq.comm
      | _ => rfl
  | int j =>
      have hj : IsWord j := by
        obtain ⟨hlow, hhigh⟩ : IsLiteral (.int j) := hv.resolve_right (fun ⟨_, hs⟩ => nomatch hs)
        unfold IsWord Word.count
        unfold Word.signedLimit at *
        omega
      cases x with
      | int i =>
          rw [← int_eq_iff hj]
          exact beq_iff_eq
      | float f => exact hno rfl blurred_float_int
      | _ => exact hno rfl (fun h => nomatch h)
  | float f =>
      have hproper : exactInt? f = none := hv.resolve_right (fun ⟨_, hs⟩ => nomatch hs)
      cases x with
      | int i => exact hno rfl (blurred_int_float hproper)
      | float g =>
          have hcomm : (g == f) = (f == g) := BEq.comm
          rw [equals_float_float, hcomm]
          exact (and_iff_left fun h => nomatch h).symm
      | _ => exact hno rfl (fun h => nomatch h)
  | array items => exact absurd (hv.resolve_right fun ⟨_, hs⟩ => nomatch hs) id
  | object r => exact absurd (hv.resolve_right fun ⟨_, hs⟩ => nomatch hs) id

end Value

namespace Events

open Binary64 (exactInt?)

/-! ## Waiting for an event -/

/-- The criteria of a wait that asks for a value at a path and for nothing else. -/
theorem criteria_of_match {i : Invocation} {path : String} {v : Value}
    (h : i.option? "match" = some (.object ⟨[(path, v)]⟩))
    (hregex : i.option? "match_regex" = none) : criteria i = .ok [(path, .equals v)] := by
  simp [criteria, members, h, hregex, patternCriteria, bind, Except.bind, pure, Except.pure]

/-- **Waiting for a value** agrees with comparing by `==`, but for blurred numbers. An event with
the value `x` at a path is one that is waited for by asking for the literal `v` there just if `x`
and `v` are equal and not blurred. -/
theorem awaited_iff_equal {e : Event} {path : String} {x v : Value} {i : Invocation}
    (hx : e.get? path = some x) (hv : v.Writable)
    (hmatch : i.option? "match" = some (.object ⟨[(path, v)]⟩))
    (hregex : i.option? "match_regex" = none) :
    ∃ asked, criteria i = .ok asked ∧
      (e.meetsAll asked = true ↔ Value.Holds .eq x v ∧ ¬ Value.Blurred x v) := by
  refine ⟨_, criteria_of_match hmatch hregex, ?_⟩
  rw [Value.holds_eq, ← Value.same_iff_equals hv]
  simp [Event.meetsAll, Event.meets, hx, Criterion.holds]

theorem awaited_iff_equal_status :
    let e : Event := ⟨"Network", "responseReceived",
      .object ⟨[("response", .object ⟨[("status", .int 200)]⟩)]⟩⟩
    let i : Invocation := ⟨some (.string "Network.responseReceived"),
      ⟨[("match", .object ⟨[("response.status", .int 200)]⟩)]⟩, 0⟩
    ∃ asked, criteria i = .ok asked ∧ e.meetsAll asked = true := by
  intro e i
  have hv : Value.Writable (.int 200) := .inl (show _ ∧ _ by decide)
  obtain ⟨asked, hasked, hiff⟩ :=
    awaited_iff_equal (e := e) (x := .int 200) (i := i) rfl hv rfl rfl
  refine ⟨asked, hasked, hiff.mpr ⟨by decide +kernel, fun hblurred => ?_⟩⟩
  cases hblurred with
  | ints differ => exact differ rfl

/-- An event whose payload holds a whole number as a float is not what a wait for the literal of
that number wants, although the two are equal. -/
theorem whole_float_not_awaited :
    let e : Event := ⟨"Page", "frameNavigated", .object ⟨[("n", .float 1.0)]⟩⟩
    let v : Value := .ofFloat 1.0
    let i : Invocation := ⟨some (.string "Page.frameNavigated"),
      ⟨[("match", .object ⟨[("n", v)]⟩)]⟩, 0⟩
    v.Writable ∧ e.get? "n" = some (.float 1.0) ∧ Value.Holds .eq (.float 1.0) v ∧
      ∃ asked, criteria i = .ok asked ∧ e.meetsAll asked = false := by
  intro e v i
  have hexact : exactInt? 1.0 = some 1 := by decide +kernel
  have hv : v = .int 1 := by
    show Value.ofFloat 1.0 = .int 1
    rw [Value.ofFloat, hexact]
  refine ⟨?_, ?_, ?_, _, criteria_of_match rfl rfl, ?_⟩
  · rw [hv]
    exact .inl (show _ ∧ _ by decide)
  · rfl
  · rw [hv]
    decide +kernel
  · rw [hv]
    decide +kernel

end Events

end TabPilot
