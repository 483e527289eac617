import TabPilot.Command.Core
import TabPilot.Command.Formatting
import TabPilot.Proofs.Outcome

set_option autoImplicit false

/-! # What the options of a call ask for

Each relation says what is asked for by an option of some kind, from the value that is given for
it, if one is. An option that is `null` counts as left out. The readers of options answer with
what is asked for, and with nothing else.
-/

namespace TabPilot

def Omitted (v : Option Value) : Prop := v = none ∨ v = some .null

/-- A text, or none. -/
inductive AsksText (v : Option Value) : Option String → Prop
  | omitted (h : Omitted v) : AsksText v none
  | given {s : String} (h : v = some (.string s)) : AsksText v (some s)

/-- A truth value, with one that stands for an option left out. -/
inductive AsksFlag (default : Bool) (v : Option Value) : Bool → Prop
  | omitted (h : Omitted v) : AsksFlag default v default
  | given {b : Bool} (h : v = some (.bool b)) : AsksFlag default v b

/-- A bound on how often something is done, or none. A number that is no integer of the signed
range is cut at the point and held within that range. -/
inductive AsksCount (v : Option Value) : Option Nat → Prop
  | omitted (h : Omitted v) : AsksCount v none
  | whole {n : Nat} (h : v = some (.int n)) (small : (n : Int) < Word.signedLimit) :
      AsksCount v (some n)
  | cut {number : Value} {f : Float} {n : Nat} (h : v = some number)
      (beyond : number.signed? = none) (float : number.toFloat? = some f)
      (held : Binary64.clampToInt64 f = n) : AsksCount v (some n)

/-- A number of milliseconds, with one that stands for an option left out. -/
inductive AsksMillis (default : Nat) (v : Option Value) : Duration → Prop
  | omitted (h : Omitted v) : AsksMillis default v (Duration.ofMillis default)
  | given {number : Value} {f : Float} {d : Duration} (h : v = some number)
      (float : number.toFloat? = some f) (nonneg : 0.0 ≤ f)
      (seconds : Duration.ofSeconds? (f / 1000.0) = some d) : AsksMillis default v d

/-! ## Readers -/

namespace Invocation

variable {i : Invocation} {name : String}

theorem requiredText_eq_ok_iff {s : String} :
    i.requiredText = .ok s ↔ i.argument = some (.string s) := by
  unfold requiredText required
  cases i.argument with
  | none => exact ⟨nofun, nofun⟩
  | some v =>
      cases v with
      | string t => simp
      | _ => exact ⟨nofun, nofun⟩

theorem option?_eq_none_iff : i.option? name = none ↔ Omitted (i.options.get? name) := by
  unfold option? Omitted
  constructor
  · intro h
    split at h
    · next hnull => exact .inr hnull
    · exact .inl h
  · rintro (h | h)
    · rw [h]
    · rw [h]

theorem get?_of_option? {v : Value} (h : i.option? name = some v) :
    i.options.get? name = some v := by
  unfold option? at h
  split at h
  · cases h
  · exact h

theorem option?_of_get? {v : Value} (h : i.options.get? name = some v) (hv : v ≠ .null) :
    i.option? name = some v := by
  unfold option?
  rw [h]
  split
  · next hnull => exact absurd (Option.some.inj hnull) hv
  · rfl

theorem text_eq_ok_iff {s : Option String} :
    i.text name = .ok s ↔ AsksText (i.options.get? name) s := by
  constructor
  · intro h
    unfold text at h
    split at h
    · next hnone =>
        cases h
        exact .omitted (option?_eq_none_iff.mp hnone)
    · next hgiven =>
        cases h
        exact .given (get?_of_option? hgiven)
    · cases h
  · intro h
    cases h with
    | omitted h => rw [text, option?_eq_none_iff.mpr h]
    | given h => rw [text, option?_of_get? h nofun]

theorem flag_eq_ok_iff {default b : Bool} :
    i.flag name default = .ok b ↔ AsksFlag default (i.options.get? name) b := by
  constructor
  · intro h
    unfold flag at h
    split at h
    · next hnone =>
        cases h
        exact .omitted (option?_eq_none_iff.mp hnone)
    · next hgiven =>
        cases h
        exact .given (get?_of_option? hgiven)
    · cases h
  · intro h
    cases h with
    | omitted h => rw [flag, option?_eq_none_iff.mpr h]
    | given h => rw [flag, option?_of_get? h nofun]

theorem millis_eq_ok_iff {default : Nat} {d : Duration} :
    i.millis name default = .ok d ↔ AsksMillis default (i.options.get? name) d := by
  constructor
  · intro h
    unfold millis at h
    split at h
    · next hnone =>
        cases h
        exact .omitted (option?_eq_none_iff.mp hnone)
    · next number hgiven =>
        unfold Value.asMillis at h
        dsimp only at h
        split at h
        · next hd =>
            cases h
            obtain ⟨f, hf, hseconds⟩ := Option.bind_eq_some_iff.mp hd
            obtain ⟨hnonneg, hseconds⟩ := Option.ite_none_right_eq_some.mp hseconds
            exact .given (get?_of_option? hgiven) hf hnonneg hseconds
        · cases h
  · intro h
    cases h with
    | omitted h => rw [millis, option?_eq_none_iff.mpr h]
    | @given number f _ h float nonneg seconds =>
        -- What has a float is not `null`, so the option is not left out.
        have hnumber : number ≠ .null := by
          rintro rfl
          cases float
        rw [millis, option?_of_get? h hnumber]
        simp [Value.asMillis, float, nonneg, seconds]

end Invocation

/-! ## Counts -/

/-- An integer beyond the signed range, or a float, is cut at the point. -/
theorem Value.asInteger_eq_ok_iff {v : Value} {name : String} {n : Int} :
    v.asInteger name = .ok n ↔ v.signed? = some n ∨
      v.signed? = none ∧ ∃ f, v.toFloat? = some f ∧ Binary64.clampToInt64 f = n := by
  unfold asInteger
  cases hsigned : v.signed? with
  | some m => simp
  | none => cases hfloat : v.toFloat? <;> simp

theorem Formatting.count_eq_ok_iff {i : Invocation} {count : Option Nat} :
    Formatting.count i = .ok count ↔ AsksCount (i.options.get? "count") count := by
  constructor
  · intro h
    unfold Formatting.count at h
    split at h
    · next hnone =>
        cases h
        exact .omitted (Invocation.option?_eq_none_iff.mp hnone)
    · next v hgiven =>
        have hv := Invocation.get?_of_option? hgiven
        split at h
        · cases h
        · next n hn =>
            split at h
            · next hnonneg =>
                cases h
                have hcast : (n.toNat : Int) = n := Int.toNat_of_nonneg hnonneg
                rcases Value.asInteger_eq_ok_iff.mp hn with hsigned | ⟨hbeyond, f, hf, hheld⟩
                · obtain ⟨rfl, hsmall⟩ := Value.signed?_eq_some_iff.mp hsigned
                  rw [← hcast] at hv hsmall
                  exact .whole hv hsmall
                · exact .cut hv hbeyond hf (hheld.trans hcast.symm)
            · cases h
  · intro h
    -- A number that is not negative is the count as it stands.
    have hgiven {v : Value} {n : Nat} (hv : i.options.get? "count" = some v) (hnull : v ≠ .null)
        (hn : v.asInteger "count" = .ok (n : Int)) : Formatting.count i = .ok (some n) := by
      rw [Formatting.count, Invocation.option?_of_get? hv hnull]
      dsimp only
      rw [hn]
      dsimp only
      rw [if_pos (Int.natCast_nonneg n), Int.toNat_natCast]
    cases h with
    | omitted h => rw [Formatting.count, Invocation.option?_eq_none_iff.mpr h]
    | @whole n h small =>
        have hsigned := Value.signed?_eq_some_iff.mpr ⟨rfl, small⟩
        exact hgiven h nofun (Value.asInteger_eq_ok_iff.mpr (.inl hsigned))
    | @cut number f n h beyond float held =>
        have hnumber : number ≠ .null := by
          rintro rfl
          cases float
        exact hgiven h hnumber (Value.asInteger_eq_ok_iff.mpr (.inr ⟨beyond, f, float, held⟩))

/-! ## Pages -/

namespace Core

/-- A referrer: none, one made up, or the one given. Unlike other options, one that is `null` is
not left out. -/
inductive AsksReferrer (v : Option Value) : Referrer → Prop
  | omitted (h : v = none) : AsksReferrer v .madeUp
  | random (h : v = some (.string "random")) : AsksReferrer v .madeUp
  | absent (h : v = some .null) : AsksReferrer v .absent
  | given {url : String} (h : v = some (.string url)) (other : url ≠ "random") :
      AsksReferrer v (.given url)

/-- What the call of a command that goes to a page asks for. -/
structure Asks (w : World) (i : Invocation) (n : Navigation) : Prop where
  url : i.argument = some (.string n.url)
  tab : w.defaultTab = .ok n.tab
  referrer : AsksReferrer (i.options.get? "referrer") n.referrer
  waits : AsksFlag true (i.options.get? "wait_for_load") n.waits
  timeout : AsksMillis usualTimeout (i.options.get? "timeout") n.timeout

theorem referrerOf_eq_ok_iff {i : Invocation} {r : Referrer} :
    referrerOf i = .ok r ↔ AsksReferrer (i.options.get? "referrer") r := by
  unfold referrerOf
  constructor
  · intro h
    split at h
    · next hnone =>
        cases h
        exact .omitted hnone
    · next hrandom =>
        cases h
        exact .random hrandom
    · next hnull =>
        cases h
        exact .absent hnull
    · next url hother hgiven =>
        cases h
        exact .given hgiven hother
    · cases h
  · intro h
    cases h with
    | omitted h => rw [h]
    | random h => rw [h]; rfl
    | absent h => rw [h]
    -- Every other text stands for itself.
    | given h other =>
        rw [h]
        split
        · next heq => cases heq
        · next heq => exact absurd (Value.string.inj (Option.some.inj heq)) other
        · next heq => cases heq
        · next heq =>
            cases heq
            rfl
        · next hgiven heq => exact absurd (Option.some.inj heq).symm (hgiven _)

/-- **What a navigation is made of.** It is read off the argument and the options, and there is
one just when each of them can be read. -/
theorem navigationOf_eq_ok_iff {w : World} {i : Invocation} {n : Navigation} :
    navigationOf w i = .ok n ↔ Asks w i n := by
  constructor
  · intro h
    obtain ⟨url, hurl, h⟩ := exists_of_bind_eq_ok h
    obtain ⟨tab, htab, h⟩ := exists_of_bind_eq_ok h
    obtain ⟨referrer, hreferrer, h⟩ := exists_of_bind_eq_ok h
    obtain ⟨waits, hwaits, h⟩ := exists_of_bind_eq_ok h
    obtain ⟨timeout, htimeout, h⟩ := exists_of_bind_eq_ok h
    cases h
    exact {
      url := Invocation.requiredText_eq_ok_iff.mp hurl
      tab := htab
      referrer := referrerOf_eq_ok_iff.mp hreferrer
      waits := Invocation.flag_eq_ok_iff.mp hwaits
      timeout := Invocation.millis_eq_ok_iff.mp htimeout }
  · intro h
    rw [navigationOf, Invocation.requiredText_eq_ok_iff.mpr h.url, h.tab,
      referrerOf_eq_ok_iff.mpr h.referrer, Invocation.flag_eq_ok_iff.mpr h.waits,
      Invocation.millis_eq_ok_iff.mpr h.timeout]
    rfl

end Core

end TabPilot
