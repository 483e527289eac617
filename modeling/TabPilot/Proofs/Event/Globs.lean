import Mathlib.Data.List.Basic
import TabPilot.Event.Registry

set_option autoImplicit false

/-! # What names and patterns of events mean

`Glob.Describes` says which texts a pattern describes, piece by piece, without a search for the
characters that a wildcard stands for; `Glob.fit_iff` is that the search finds them.
`Registry.Means` says which events a name or a pattern means for a domain, and
`Registry.means_iff_fits` that a callback that was registered for it is for these events.
-/

namespace TabPilot

/-! ## Patterns -/

namespace Glob

/-- The texts that pieces describe. -/
inductive Describes : List Piece → List Char → Prop
  | nil : Describes [] []
  | one {p : Piece} {c : Char} {pieces : List Piece} {text : List Char} (allows : p.allows c = true)
      (rest : Describes pieces text) : Describes (p :: pieces) (c :: text)
  | anyChars {pieces : List Piece} {text : List Char} (chars : List Char)
      (rest : Describes pieces text) : Describes (.anyChars :: pieces) (chars ++ text)
  -- The parts that are stood for end in a slash, unless there are none.
  | anyParts {pieces : List Piece} {text parts : List Char}
      (whole : parts = [] ∨ parts.getLast? = some '/') (rest : Describes pieces text) :
      Describes (.anyParts :: pieces) (parts ++ text)
  | anything (text : List Char) : Describes [.anyParts] text

theorem anyRest_iff {test : List Char → Bool} {text : List Char} :
    anyRest test text = true ↔ ∃ chars rest, text = chars ++ rest ∧ test rest = true := by
  induction text with
  | nil =>
      constructor
      · intro h
        exact ⟨[], [], rfl, h⟩
      · rintro ⟨chars, rest, heq, h⟩
        obtain ⟨-, rfl⟩ := List.append_eq_nil_iff.mp heq.symm
        exact h
  | cons c text ih =>
      rw [anyRest, Bool.or_eq_true, ih]
      constructor
      · rintro (h | ⟨chars, rest, rfl, h⟩)
        · exact ⟨[], c :: text, rfl, h⟩
        · exact ⟨c :: chars, rest, rfl, h⟩
      · rintro ⟨chars, rest, heq, h⟩
        cases chars with
        | nil =>
            rw [List.nil_append] at heq
            exact .inl (heq ▸ h)
        | cons d chars =>
            obtain ⟨rfl, rfl⟩ := List.cons.inj heq
            exact .inr ⟨chars, rest, rfl, h⟩

theorem anyPart_iff {test : List Char → Bool} {text : List Char} :
    anyPart test text = true ↔ ∃ parts rest, text = parts ++ rest ∧
      (parts = [] ∨ parts.getLast? = some '/') ∧ test rest = true := by
  rw [anyPart, Bool.or_eq_true, anyRest_iff]
  constructor
  · rintro (h | ⟨chars, behind, rfl, h⟩)
    · exact ⟨[], text, rfl, .inl rfl, h⟩
    · split at h
      · next rest => exact ⟨chars ++ ['/'], rest, by simp, .inr (by simp), h⟩
      · cases h
  · rintro ⟨parts, rest, rfl, rfl | hslash, h⟩
    · exact .inl h
    · obtain ⟨front, rfl⟩ := List.getLast?_eq_some_iff.mp hslash
      exact .inr ⟨front, '/' :: rest, by simp, h⟩

/-- A piece for one character. -/
theorem fit_one {p : Piece} (hchars : p ≠ .anyChars) (hparts : p ≠ .anyParts) (pieces : List Piece)
    (text : List Char) : fit (p :: pieces) text = true ↔
      ∃ c rest, text = c :: rest ∧ p.allows c = true ∧ fit pieces rest = true := by
  rw [fit.eq_def]
  cases text with
  | nil => simp
  | cons c rest => simp

/-- **The search is complete.** -/
theorem fit_iff {pieces : List Piece} {text : List Char} :
    fit pieces text = true ↔ Describes pieces text := by
  induction pieces generalizing text with
  | nil =>
      rw [fit, List.isEmpty_iff]
      constructor
      · rintro rfl
        exact .nil
      · rintro ⟨⟩
        rfl
  | cons p pieces ih =>
      -- Only `anyChars` and `anyParts` take more or less than one character.
      by_cases hchars : p = .anyChars
      · subst hchars
        rw [fit, anyRest_iff]
        constructor
        · rintro ⟨chars, rest, rfl, h⟩
          exact .anyChars chars (ih.mp h)
        · rintro (_ | ⟨allows, _⟩ | ⟨chars, rest⟩)
          · cases allows
          · exact ⟨chars, _, rfl, ih.mpr rest⟩
      by_cases hparts : p = .anyParts
      · subst hparts
        rw [fit, Bool.or_eq_true, List.isEmpty_iff, anyPart_iff]
        constructor
        · rintro (rfl | ⟨parts, rest, rfl, whole, h⟩)
          · exact .anything text
          · exact .anyParts whole (ih.mp h)
        · rintro (_ | ⟨allows, _⟩ | _ | ⟨whole, rest⟩ | _)
          · cases allows
          · exact .inr ⟨_, _, rfl, whole, ih.mpr rest⟩
          · exact .inl rfl
      · rw [fit_one hchars hparts]
        constructor
        · rintro ⟨c, rest, rfl, allows, h⟩
          exact .one allows (ih.mp h)
        · rintro (_ | ⟨allows, rest⟩ | _ | _ | _)
          · exact ⟨_, _, rfl, allows, ih.mpr rest⟩
          · exact absurd rfl hchars
          · exact absurd rfl hparts
          · exact absurd rfl hparts

end Glob

/-! ## Names -/

namespace Registry

/-- The name or pattern with the domain before it. What has a dot has to have it already. -/
def IsFullName (domain text full : String) : Prop :=
  (domain ++ ".").toList <+: text.toList ∧ full = text ∨
    '.' ∉ text.toList ∧ full = domain ++ "." ++ text

/-- Whether a text is a pattern and not a name. -/
def IsPattern (full : String) : Prop := '*' ∈ full.toList ∨ '?' ∈ full.toList ∨ '[' ∈ full.toList

/-- The events that are meant by a name or a pattern. -/
inductive Means (domain text event : String) : Prop
  | name (isName : ¬ IsPattern event) (full : IsFullName domain text event)
  | pattern {full : String} {g : Glob} (isPattern : IsPattern full)
      (isFull : IsFullName domain text full) (reads : Glob.ofText full = .ok g)
      (describes : Glob.Describes g.pieces event.toList)

theorem qualify_eq_ok_iff {domain text full : String} :
    qualify domain text = .ok full ↔ IsFullName domain text full := by
  unfold qualify IsFullName
  simp only [List.isPrefixOf_iff_prefix, List.contains_iff_mem]
  by_cases hstarts : (domain ++ ".").toList <+: text.toList
  · have hdot : '.' ∈ text.toList := hstarts.subset (by simp)
    rw [if_pos hstarts, Except.ok.injEq]
    exact ⟨fun h => .inl ⟨hstarts, h.symm⟩, fun h => (h.resolve_right fun h => h.1 hdot).2.symm⟩
  · rw [if_neg hstarts]
    by_cases hdot : '.' ∈ text.toList
    · rw [if_pos hdot]
      exact ⟨fun h => (by cases h), fun h => h.elim (absurd ·.1 hstarts) (absurd hdot ·.1)⟩
    · rw [if_neg hdot, Except.ok.injEq]
      exact ⟨fun h => .inr ⟨hdot, h.symm⟩, fun h => (h.resolve_left fun h => hstarts h.1).2.symm⟩

theorem isPattern_iff {full : String} :
    IsPattern full ↔ (full.toList.any fun c => c = '*' || c = '?' || c = '[') = true := by
  simp only [IsPattern, List.any_eq_true, Bool.or_eq_true, decide_eq_true_eq]
  constructor
  · rintro (h | h | h)
    · exact ⟨_, h, .inl (.inl rfl)⟩
    · exact ⟨_, h, .inl (.inr rfl)⟩
    · exact ⟨_, h, .inr rfl⟩
  · rintro ⟨c, hc, (rfl | rfl) | rfl⟩
    · exact .inl hc
    · exact .inr (.inl hc)
    · exact .inr (.inr hc)

theorem matcherOf_of_isPattern {full : String} {matcher : EventMatcher} (h : IsPattern full) :
    matcherOf full = .ok matcher ↔ ∃ g, Glob.ofText full = .ok g ∧ matcher = .glob g := by
  rw [matcherOf, if_pos (isPattern_iff.mp h)]
  cases Glob.ofText full with
  | error e => simp
  | ok g => simp [eq_comm]

theorem matcherOf_of_not_isPattern {full : String} (h : ¬ IsPattern full) :
    matcherOf full = .ok (.exactly full) := by
  rw [matcherOf, if_neg (isPattern_iff.not.mp h)]

/-- **A callback is for the events that were meant.** -/
theorem means_iff_fits {domain text full event : String} {matcher : EventMatcher}
    (hfull : qualify domain text = .ok full) (hmatcher : matcherOf full = .ok matcher) :
    Means domain text event ↔ matcher.fits event = true := by
  -- Only one name is the full name.
  have hunique {other : String} (h : IsFullName domain text other) : other = full :=
    Except.ok.inj ((qualify_eq_ok_iff.mpr h).symm.trans hfull)
  by_cases hpattern : IsPattern full
  · obtain ⟨g, hread, rfl⟩ := (matcherOf_of_isPattern hpattern).mp hmatcher
    rw [EventMatcher.fits, Glob.fits, Glob.fit_iff]
    constructor
    · rintro (⟨isName, hname⟩ | ⟨-, hother, hread', describes⟩)
      · exact absurd (hunique hname ▸ hpattern) isName
      · obtain rfl := hunique hother
        rw [hread] at hread'
        cases hread'
        exact describes
    · exact .pattern hpattern (qualify_eq_ok_iff.mp hfull) hread
  · rw [matcherOf_of_not_isPattern hpattern] at hmatcher
    cases hmatcher
    rw [EventMatcher.fits, decide_eq_true_eq]
    constructor
    · rintro (⟨-, hname⟩ | ⟨isPattern, hother, -, -⟩)
      · exact (hunique hname).symm
      · exact absurd (hunique hother ▸ isPattern) hpattern
    · rintro rfl
      exact .name hpattern (qualify_eq_ok_iff.mp hfull)

/-- What means an event can be registered. -/
theorem Means.registrable {domain text event : String} (h : Means domain text event) :
    ∃ full matcher, qualify domain text = .ok full ∧ matcherOf full = .ok matcher := by
  rcases h with ⟨isName, hfull⟩ | ⟨isPattern, hfull, hread, -⟩
  · exact ⟨_, _, qualify_eq_ok_iff.mpr hfull, matcherOf_of_not_isPattern isName⟩
  · exact ⟨_, _, qualify_eq_ok_iff.mpr hfull,
      (matcherOf_of_isPattern isPattern).mpr ⟨_, hread, rfl⟩⟩

instance (domain text event : String) : Decidable (Means domain text event) :=
  match hfull : qualify domain text with
  | .error _ => .isFalse fun h => by
      obtain ⟨full, -, hfull', -⟩ := h.registrable
      rw [hfull] at hfull'
      cases hfull'
  | .ok full =>
      match hmatcher : matcherOf full with
      | .error _ => .isFalse fun h => by
          obtain ⟨full', matcher, hfull', hmatcher'⟩ := h.registrable
          rw [hfull] at hfull'
          cases hfull'
          rw [hmatcher] at hmatcher'
          cases hmatcher'
      | .ok matcher => decidable_of_iff _ (means_iff_fits hfull hmatcher).symm

end Registry

end TabPilot
