import TabPilot.Proofs.Script.Lexing
import TabPilot.Scope.Template

set_option autoImplicit false

/-! # Written references

A reference is what stands for a variable and the accessors behind it, as in `page.rows[-1]['id']`.
This file holds its text and the path that it means, and reads that path back from the text: by
itself (`Reference.ofChars_chars`), and as the only placeholder of a template
(`Template.fill_reference`).
-/

namespace TabPilot

def signedNumber (negative : Bool) (n : Nat) : Int := if negative then -(n : Int) else n

def signedDigits (negative : Bool) (n : Nat) : List Char :=
  (if negative then ['-'] else []) ++ Nat.toDigits 10 n

inductive Reference.Step
  | field (name : String)
  | position (n : Nat)
  | index (negative : Bool) (n : Nat)
  | member (name : String)

/-- A variable with accessors as it is written. -/
structure Reference where
  name : String
  steps : List Reference.Step

namespace Reference

namespace Step

def text : Step → String
  | .field name => "." ++ name
  | .position n => "." ++ toString n
  | .index negative n => "[" ++ (if negative then "-" else "") ++ toString n ++ "]"
  | .member name => "['" ++ name ++ "']"

def chars : Step → List Char
  | .field name => '.' :: name.toList
  | .position n => '.' :: Nat.toDigits 10 n
  | .index negative n => '[' :: (signedDigits negative n ++ [']'])
  | .member name => '[' :: '\'' :: (name.toList ++ ['\'', ']'])

/-- The step of a path that an accessor means. -/
def segment : Step → Segment
  | .field name => .key name
  | .position n => .key (toString n)
  | .index negative n => .index (signedNumber negative n)
  | .member name => .key name

/-- Whether an accessor can be written so: a field is a word, and a member in quotes has no quote,
no backslash, no closing bracket and no closing brace. -/
def IsWritten : Step → Prop
  | .field name => IsWord name
  | .position _ | .index _ _ => True
  | .member name => ∀ c ∈ name.toList, c ∉ ['\'', '"', '\\', ']', '\x7d']

/-- Whether the digits of an accessor, if there are any, are those of a number that scripts have. -/
def InRange : Step → Prop
  | .position n | .index _ n => (n : Int) < Word.signedLimit
  | .field _ | .member _ => True

instance : (s : Step) → Decidable s.IsWritten
  | .field name => inferInstanceAs (Decidable (IsWord name))
  | .position _ | .index _ _ => isTrue trivial
  | .member name => List.decidableBAll _ name.toList

instance : (s : Step) → Decidable s.InRange
  | .position n | .index _ n => inferInstanceAs (Decidable ((n : Int) < Word.signedLimit))
  | .field _ | .member _ => isTrue trivial

end Step

def text (r : Reference) : String := r.name ++ String.join (r.steps.map Step.text)

def chars (r : Reference) : List Char := r.name.toList ++ r.steps.flatMap Step.chars

def path (r : Reference) : Path := .key r.name :: r.steps.map Step.segment

structure IsWritten (r : Reference) : Prop where
  name : IsVariableName r.name
  steps : ∀ s ∈ r.steps, s.IsWritten

instance (r : Reference) : Decidable r.IsWritten :=
  decidable_of_iff (IsVariableName r.name ∧ ∀ s ∈ r.steps, s.IsWritten)
    ⟨fun ⟨name, steps⟩ => ⟨name, steps⟩, fun ⟨name, steps⟩ => ⟨name, steps⟩⟩

/-! ## Characters -/

theorem toList_toString (n : Nat) : (toString n).toList = Nat.toDigits 10 n := Nat.toList_repr

theorem Step.toList_text (s : Step) : s.text.toList = s.chars := by
  cases s with
  | field name => simp [text, chars]
  | position n => simp [text, chars]
  | index negative n => cases negative <;> simp [text, chars, signedDigits]
  | member name => simp [text, chars]

theorem toList_text (r : Reference) : r.text.toList = r.chars := by
  have hsteps (steps : List Step) :
      (String.join (steps.map Step.text)).toList = steps.flatMap Step.chars := by
    induction steps with
    | nil => rfl
    | cons s steps ih => simp [ih, Step.toList_text]
  rw [text, chars, String.toList_append, hsteps]

end Reference

/-! ## Blanks -/

/-- Whether two sets of code points have no range in common. -/
def Text.Ranges.disjoint (r s : Ranges) : Bool :=
  r.bounds.all fun a => s.bounds.all fun b => a.2 < b.1 || b.2 < a.1

theorem Text.Ranges.not_contains_of_disjoint {r s : Ranges} (h : r.disjoint s = true) {n : Nat}
    (hn : s.contains n = true) : r.contains n = false := by
  obtain ⟨b, hb, hin⟩ := List.any_eq_true.mp hn
  refine List.any_eq_false.mpr fun a ha => ?_
  have hapart := List.all_eq_true.mp (List.all_eq_true.mp h a ha) b hb
  simp only [Bool.and_eq_true, Bool.or_eq_true, decide_eq_true_eq] at hin hapart ⊢
  omega

/-- The blanks beyond the range of ASCII. -/
def Text.laterBlankRanges : Ranges :=
  ⟨[(0x85, 0x85), (0xA0, 0xA0), (0x1680, 0x1680), (0x2000, 0x200A), (0x2028, 0x2029),
    (0x202F, 0x202F), (0x205F, 0x205F), (0x3000, 0x3000)]⟩

theorem Text.laterBlankRanges_contains {c : Char} (h : isBlank c = true) (hlarge : 128 ≤ c.toNat) :
    laterBlankRanges.contains c.toNat = true := by
  simp only [isBlank, Bool.or_eq_true, Bool.and_eq_true, decide_eq_true_eq] at h
  simp only [Ranges.contains, laterBlankRanges, List.any_cons, List.any_nil, Bool.or_eq_true,
    Bool.and_eq_true, decide_eq_true_eq]
  omega

theorem Text.not_letter_of_laterBlank {n : Nat} (h : laterBlankRanges.contains n = true) :
    (alphabeticRanges.contains n || numeralRanges.contains n) = false := by
  have hletters : alphabeticRanges.disjoint laterBlankRanges = true := by decide +kernel
  have hnumerals : numeralRanges.disjoint laterBlankRanges = true := by decide +kernel
  rw [Ranges.not_contains_of_disjoint hletters h, Ranges.not_contains_of_disjoint hnumerals h]
  rfl

/-- No blank stands in a word. -/
theorem Lexeme.not_isBlank_of_isWordChar {c : Char} (h : isWordChar c = true) :
    Text.isBlank c = false := by
  cases hblank : Text.isBlank c with
  | false => rfl
  | true =>
      exfalso
      by_cases hsmall : c.toNat < 128
      · have hcode : c.toNat = 9 ∨ c.toNat = 10 ∨ c.toNat = 11 ∨ c.toNat = 12 ∨ c.toNat = 13 ∨
            c.toNat = 32 := by
          simp only [Text.isBlank, Bool.or_eq_true, Bool.and_eq_true, decide_eq_true_eq] at hblank
          omega
        rw [← Char.ofNat_toNat c] at h
        rcases hcode with hc | hc | hc | hc | hc | hc <;>
          (rw [hc] at h; exact absurd h (by decide))
      · have hclasses := Text.not_letter_of_laterBlank
          (Text.laterBlankRanges_contains hblank (Nat.le_of_not_lt hsmall))
        have hunderscore : c ≠ '_' := by
          rintro rfl
          exact hsmall (by decide)
        rw [isWordChar, decide_eq_false hunderscore, Bool.false_or, Text.isLetterOrNumeral,
          if_neg hsmall, hclasses] at h
        cases h

theorem Text.dropWhile_eq_self {p : Char → Bool} {cs : List Char}
    (first : ∀ c ∈ cs.head?, p c = false) : cs.dropWhile p = cs := by
  cases cs with
  | nil => rfl
  | cons c cs => rw [List.dropWhile_cons, first c rfl, if_neg Bool.false_ne_true]

/-- A text without blanks at its ends is not changed by trimming. -/
theorem Text.trimBy_eq_self {p : Char → Bool} {cs : List Char}
    (first : ∀ c ∈ cs.head?, p c = false) (last : ∀ c ∈ cs.getLast?, p c = false) :
    trimBy p cs = cs := by
  rw [trimBy, dropWhile_eq_self first, dropWhile_eq_self (by rwa [List.head?_reverse]),
    List.reverse_reverse]

/-! ## Reading a path -/

namespace Path

/-- What neither ends a name nor a name's beginning is added to it. -/
theorem readName_append {name cs rest : List Char} (h : ∀ c ∈ cs, c ≠ '.' ∧ c ≠ '[') :
    readName name (cs ++ rest) = readName (name ++ cs) rest := by
  induction cs generalizing name with
  | nil => rw [List.nil_append, List.append_nil]
  | cons c cs ih =>
      obtain ⟨hdot, hbracket⟩ := h c List.mem_cons_self
      rw [List.cons_append, readName, if_neg hdot, if_neg hbracket,
        ih fun d hd => h d (List.mem_cons_of_mem c hd), List.append_assoc, List.singleton_append]

theorem readBracket_append {inner cs rest : List Char} (h : ']' ∉ cs) :
    readBracket inner (cs ++ ']' :: rest) = bracketed (inner ++ cs) :: readName [] rest := by
  induction cs generalizing inner with
  | nil => rw [List.nil_append, List.append_nil, readBracket, if_pos rfl]
  | cons c cs ih =>
      rw [List.mem_cons, not_or] at h
      rw [List.cons_append, readBracket, if_neg (Ne.symm h.1), ih h.2, List.append_assoc,
        List.singleton_append]

/-- A name behind a dot. -/
theorem readName_dot (name : List Char) {cs rest : List Char}
    (h : ∀ c ∈ cs, c ≠ '.' ∧ c ≠ '[') :
    readName name ('.' :: (cs ++ rest)) = named name ++ readName cs rest := by
  rw [readName, if_pos rfl, readName_append h, List.nil_append]

/-- What stands between brackets. -/
theorem readName_bracket (name : List Char) {cs rest : List Char} (h : ']' ∉ cs) :
    readName name ('[' :: (cs ++ ']' :: rest)) =
      named name ++ bracketed cs :: readName [] rest := by
  rw [readName, if_neg (by decide), if_pos rfl, readBracket_append h, List.nil_append]

theorem named_toList {name : String} (h : name.toList ≠ []) : named name.toList = [.key name] := by
  rw [named, if_neg (by simpa using h), String.ofList_toList]

/-- A name in quotes is the name between them. -/
theorem bracketed_quoted (name : List Char) :
    bracketed ('\'' :: (name ++ ['\''])) = .key (String.ofList name) := by
  have hlast : (('\'' :: name) ++ ['\'']).getLast? = some '\'' := List.getLast?_concat
  rw [List.cons_append] at hlast
  have htrim : Text.trimBy Text.isBlank ('\'' :: (name ++ ['\''])) = '\'' :: (name ++ ['\'']) :=
    Text.trimBy_eq_self (by rintro c ⟨⟩; decide) (by rw [hlast]; rintro c ⟨⟩; decide)
  have hunquote : unquote? '\'' ('\'' :: (name ++ ['\''])) = some name := by
    simp [unquote?]
  simp only [bracketed, htrim, hunquote]

theorem unquote?_eq_none {quote c : Char} {rest : List Char} (h : c ≠ quote) :
    unquote? quote (c :: rest) = none := by
  simp [unquote?, h]

/-- What is neither blank nor quoted at its ends is taken as an index, if it is a number. -/
theorem bracketed_number {cs : List Char} {i : Int}
    (first : ∀ c ∈ cs.head?, Text.isBlank c = false ∧ c ≠ '\'' ∧ c ≠ '"')
    (last : ∀ c ∈ cs.getLast?, Text.isBlank c = false)
    (number : Decimal.signed64? (String.ofList cs) = some i) : bracketed cs = .index i := by
  have htrim : Text.trimBy Text.isBlank cs = cs :=
    Text.trimBy_eq_self (fun c hc => (first c hc).1) last
  cases cs with
  | nil => cases number
  | cons c rest =>
      obtain ⟨-, hsingle, hdouble⟩ := first c rfl
      simp only [bracketed, htrim, unquote?_eq_none hsingle, unquote?_eq_none hdouble, number]

end Path

theorem Lexeme.isBlank_of_isDigit {c : Char} (h : c.isDigit = true) :
    Text.isBlank c = false ∧ c ≠ '\'' ∧ c ≠ '"' ∧ c ≠ ']' := by
  have hrange := Char.isDigit_iff_toNat.mp h
  have h0 : '0'.toNat = 48 := rfl
  have h9 : '9'.toNat = 57 := rfl
  refine ⟨?_, ?_, ?_, ?_⟩
  · simp [Text.isBlank]
    omega
  all_goals
    rintro rfl
    revert h
    decide

theorem Lexeme.signed64?_signedDigits {negative : Bool} {n : Nat}
    (h : -Word.signedLimit ≤ signedNumber negative n ∧ signedNumber negative n < Word.signedLimit) :
    Decimal.signed64? (String.ofList (signedDigits negative n)) =
      some (signedNumber negative n) := by
  cases negative with
  | false => exact signed64?_toDigits h.2
  | true =>
      have hdigits : (Nat.toDigits 10 n).all Char.isDigit = true :=
        List.all_eq_true.mpr isDigit_of_mem_toDigits
      have hrange : -Word.signedLimit ≤ -(n : Int) ∧ -(n : Int) < Word.signedLimit := h
      have hsign : Decimal.takeSign (signedDigits true n) = (true, Nat.toDigits 10 n) := rfl
      unfold Decimal.signed64?
      rw [String.toList_ofList, hsign]
      simp [hdigits, natOfDigits_toDigits, Word.inSigned?, hrange, signedNumber]

/-- A number between brackets is an index. -/
theorem Path.bracketed_signedDigits {negative : Bool} {n : Nat}
    (h : -Word.signedLimit ≤ signedNumber negative n ∧ signedNumber negative n < Word.signedLimit) :
    bracketed (signedDigits negative n) = .index (signedNumber negative n) := by
  have hdigit : ∀ c ∈ Nat.toDigits 10 n, c.isDigit = true := Lexeme.isDigit_of_mem_toDigits
  refine bracketed_number (fun c hc => ?_) (fun c hc => ?_) (Lexeme.signed64?_signedDigits h)
  · have hmem := List.mem_of_mem_head? hc
    rw [signedDigits, List.mem_append] at hmem
    rcases hmem with hsign | hmem
    · cases negative with
      | false => cases hsign
      | true =>
          obtain rfl := List.mem_singleton.mp hsign
          decide
    · obtain ⟨hblank, hsingle, hdouble, -⟩ := Lexeme.isBlank_of_isDigit (hdigit c hmem)
      exact ⟨hblank, hsingle, hdouble⟩
  · rw [signedDigits, List.getLast?_append,
      List.getLast?_eq_some_getLast Nat.toDigits_ne_nil] at hc
    obtain rfl := Option.some.inj hc
    exact (Lexeme.isBlank_of_isDigit (hdigit _ (List.getLast_mem _))).1

theorem bracket_not_mem_signedDigits (negative : Bool) (n : Nat) :
    ']' ∉ signedDigits negative n := by
  intro hmem
  rw [signedDigits, List.mem_append] at hmem
  rcases hmem with hsign | hmem
  · cases negative with
    | false => cases hsign
    | true => exact absurd (List.mem_singleton.mp hsign) (by decide)
  · exact (Lexeme.isBlank_of_isDigit (Lexeme.isDigit_of_mem_toDigits _ hmem)).2.2.2 rfl

namespace Path

/-- An index behind a name. -/
theorem readName_index (name : List Char) {negative : Bool} {n : Nat}
    (h : -Word.signedLimit ≤ signedNumber negative n ∧ signedNumber negative n < Word.signedLimit)
    (rest : List Char) :
    readName name ('[' :: (signedDigits negative n ++ ']' :: rest)) =
      named name ++ .index (signedNumber negative n) :: readName [] rest := by
  rw [readName_bracket name (bracket_not_mem_signedDigits negative n), bracketed_signedDigits h]

/-- A name in quotes behind a name. -/
theorem readName_quoted (name : List Char) {member : String} (h : ']' ∉ member.toList)
    (rest : List Char) :
    readName name ('[' :: '\'' :: (member.toList ++ '\'' :: ']' :: rest)) =
      named name ++ .key member :: readName [] rest := by
  have hchars : '[' :: '\'' :: (member.toList ++ '\'' :: ']' :: rest) =
      '[' :: ('\'' :: (member.toList ++ ['\'']) ++ ']' :: rest) := by
    simp
  have hbracket : ']' ∉ '\'' :: (member.toList ++ ['\'']) := by
    simpa using h
  rw [hchars, readName_bracket name hbracket, bracketed_quoted, String.ofList_toList]

/-- In front of a path nothing but a `$` is ignored. -/
theorem ofChars_eq_readName {cs : List Char} (h : cs.head? ≠ some '$') :
    ofChars cs = readName [] cs := by
  rw [ofChars.eq_def]
  split
  · exact absurd rfl h
  · rfl

end Path

namespace Reference

/-- Nothing in a word goes on to the next accessor. -/
theorem ne_of_isWordChar {c : Char} (h : Lexeme.isWordChar c = true) : c ≠ '.' ∧ c ≠ '[' := by
  constructor <;> (rintro rfl; revert h; decide)

theorem ne_of_isDigit {c : Char} (h : c.isDigit = true) : c ≠ '.' ∧ c ≠ '[' := by
  constructor <;> (rintro rfl; revert h; decide)

/-- Digits that are in range without a sign are so with one. -/
theorem signedNumber_inRange (negative : Bool) {n : Nat} (h : (n : Int) < Word.signedLimit) :
    -Word.signedLimit ≤ signedNumber negative n ∧ signedNumber negative n < Word.signedLimit := by
  unfold Word.signedLimit at h ⊢
  cases negative with
  | false =>
      show -9223372036854775808 ≤ (n : Int) ∧ (n : Int) < 9223372036854775808
      omega
  | true =>
      show -9223372036854775808 ≤ -(n : Int) ∧ -(n : Int) < 9223372036854775808
      omega

/-- The accessors behind a name that was read are read as the steps that they mean. -/
theorem readName_steps {steps : List Step} (h : ∀ s ∈ steps, s.IsWritten)
    (inRange : ∀ s ∈ steps, s.InRange) (name : List Char) :
    Path.readName name (steps.flatMap Step.chars) =
      Path.named name ++ steps.map Step.segment := by
  induction steps generalizing name with
  | nil => exact (List.append_nil _).symm
  | cons s steps ih =>
      have ih := ih (fun t ht => h t (List.mem_cons_of_mem s ht))
        fun t ht => inRange t (List.mem_cons_of_mem s ht)
      have hs := h s List.mem_cons_self
      have hrange := inRange s List.mem_cons_self
      rw [List.flatMap_cons, List.map_cons]
      -- Every step begins with a dot or a bracket, which ends the name read so far.
      cases s with
      | field field =>
          obtain ⟨c, cs, hfield, -⟩ := id hs
          have hne : field.toList ≠ [] := by rw [hfield]; exact nofun
          rw [Step.chars, List.cons_append, Path.readName_dot _ fun c hc =>
            ne_of_isWordChar (Lexeme.all_isWordChar hs c hc), ih, Path.named_toList hne]
          rfl
      | position n =>
          have hne : (toString n).toList ≠ [] := by
            rw [toList_toString]
            exact Nat.toDigits_ne_nil
          rw [Step.chars, List.cons_append, Path.readName_dot _ fun c hc =>
            ne_of_isDigit (Lexeme.isDigit_of_mem_toDigits c hc), ih, ← toList_toString,
            Path.named_toList hne]
          rfl
      | index negative n =>
          have hchars : (Step.index negative n).chars ++ steps.flatMap Step.chars =
              '[' :: (signedDigits negative n ++ ']' :: steps.flatMap Step.chars) := by
            simp [Step.chars]
          rw [hchars, Path.readName_index _ (signedNumber_inRange negative hrange), ih]
          rfl
      | member member =>
          have hchars : (Step.member member).chars ++ steps.flatMap Step.chars =
              '[' :: '\'' :: (member.toList ++ '\'' :: ']' :: steps.flatMap Step.chars) := by
            simp [Step.chars]
          have hbracket : ']' ∉ member.toList := fun hmem => hs _ hmem (by decide)
          rw [hchars, Path.readName_quoted _ hbracket, ih]
          rfl

/-- The text of a reference begins with a character of the variable's name. -/
theorem head_chars {r : Reference} (h : r.IsWritten) :
    ∃ c cs, r.chars = c :: cs ∧ Lexeme.isWordChar c = true := by
  obtain ⟨hne, hname⟩ := h.name
  obtain ⟨c, cs, hcs⟩ := List.exists_cons_of_ne_nil hne
  refine ⟨c, cs ++ r.steps.flatMap Step.chars, by rw [chars, hcs, List.cons_append], hname c ?_⟩
  rw [hcs]
  exact List.mem_cons_self

/-- **A reference** is read as the path that it means. -/
theorem ofChars_chars {r : Reference} (h : r.IsWritten) (inRange : ∀ s ∈ r.steps, s.InRange) :
    Path.ofChars r.chars = r.path := by
  have hdollar : Path.ofChars r.chars = Path.readName [] r.chars := by
    obtain ⟨c, cs, hcs, hc⟩ := head_chars h
    refine Path.ofChars_eq_readName ?_
    rw [hcs]
    rintro ⟨⟩
    exact absurd hc (by decide)
  obtain ⟨hne, hname⟩ := h.name
  rw [hdollar, chars, Path.readName_append fun c hc => ne_of_isWordChar (hname c hc),
    List.nil_append, readName_steps h.steps inRange, Path.named_toList hne]
  rfl

/-! ## Placeholders -/

theorem Step.last_chars {s : Step} (h : s.IsWritten) :
    ∀ c ∈ s.chars.getLast?, Text.isBlank c = false := by
  -- A step ends with its name, its digits or a bracket.
  have hall {cs : List Char} (hcs : ∀ c ∈ cs, Text.isBlank c = false) :
      ∀ c ∈ ('.' :: cs).getLast?, Text.isBlank c = false := by
    intro c hc
    rcases List.mem_cons.mp (List.mem_of_mem_getLast? hc) with rfl | hc
    · decide
    · exact hcs c hc
  have hbracket (cs : List Char) :
      ∀ c ∈ ('[' :: (cs ++ [']'])).getLast?, Text.isBlank c = false := by
    rw [← List.cons_append, List.getLast?_concat]
    rintro c ⟨⟩
    decide
  cases s with
  | field name =>
      exact hall fun c hc => Lexeme.not_isBlank_of_isWordChar (Lexeme.all_isWordChar h c hc)
  | position n =>
      exact hall fun c hc => (Lexeme.isBlank_of_isDigit (Lexeme.isDigit_of_mem_toDigits c hc)).1
  | index negative n => exact hbracket _
  | member name =>
      have hchars : (Step.member name).chars =
          '[' :: ('\'' :: (name.toList ++ ['\'']) ++ [']']) := by
        simp [Step.chars]
      rw [hchars]
      exact hbracket _

theorem last_chars {r : Reference} (h : r.IsWritten) :
    ∀ c ∈ r.chars.getLast?, Text.isBlank c = false := by
  have happend {xs ys : List Char} (hxs : ∀ c ∈ xs.getLast?, Text.isBlank c = false)
      (hys : ∀ c ∈ ys.getLast?, Text.isBlank c = false) :
      ∀ c ∈ (xs ++ ys).getLast?, Text.isBlank c = false := by
    intro c hc
    rw [List.getLast?_append, Option.mem_def, Option.or_eq_some_iff] at hc
    rcases hc with hc | ⟨-, hc⟩
    · exact hys c hc
    · exact hxs c hc
  have hsteps {steps : List Step} (hwritten : ∀ s ∈ steps, s.IsWritten) :
      ∀ c ∈ (steps.flatMap Step.chars).getLast?, Text.isBlank c = false := by
    induction steps with
    | nil => exact nofun
    | cons s steps ih =>
        exact happend (Step.last_chars (hwritten s List.mem_cons_self))
          (ih fun t ht => hwritten t (List.mem_cons_of_mem s ht))
  exact happend (fun c hc =>
    Lexeme.not_isBlank_of_isWordChar (h.name.2 c (List.mem_of_mem_getLast? hc))) (hsteps h.steps)

/-- No text of a reference begins or ends with a blank. -/
theorem trimBy_chars {r : Reference} (h : r.IsWritten) :
    Text.trimBy Text.isBlank r.chars = r.chars := by
  refine Text.trimBy_eq_self (fun c hc => ?_) (last_chars h)
  obtain ⟨d, ds, hds, hd⟩ := head_chars h
  rw [hds] at hc
  obtain rfl := Option.some.inj hc
  exact Lexeme.not_isBlank_of_isWordChar hd

/-- No reference closes the placeholder that it stands in. -/
theorem brace_not_mem_chars {r : Reference} (h : r.IsWritten) : '\x7d' ∉ r.chars := by
  intro hmem
  rcases List.mem_append.mp hmem with hname | hsteps
  · exact absurd (h.name.2 _ hname) (by decide)
  · obtain ⟨s, hs, hmem⟩ := List.mem_flatMap.mp hsteps
    have hwritten := h.steps s hs
    cases s with
    | field name =>
        have hmem : '\x7d' ∈ name.toList := by simpa [Step.chars] using hmem
        exact absurd (Lexeme.all_isWordChar hwritten _ hmem) (by decide)
    | position n =>
        have hmem : '\x7d' ∈ Nat.toDigits 10 n := by simpa [Step.chars] using hmem
        exact absurd (Lexeme.isDigit_of_mem_toDigits _ hmem) (by decide)
    | index negative n =>
        have hmem : '\x7d' ∈ Nat.toDigits 10 n := by
          cases negative <;> simpa [Step.chars, signedDigits] using hmem
        exact absurd (Lexeme.isDigit_of_mem_toDigits _ hmem) (by decide)
    | member name =>
        have hmem : '\x7d' ∈ name.toList := by simpa [Step.chars] using hmem
        exact absurd (by decide) (hwritten _ hmem)

end Reference

namespace Template

variable (read : Path → Option Value)

/-- A placeholder reaches to the first closing brace. -/
theorem fillPlace_append {inner cs rest : List Char} (h : '\x7d' ∉ cs) :
    fillPlace read inner (cs ++ '\x7d' :: rest) =
      match place read (inner ++ cs) with
      | .ok text => (fillText read rest).map (text ++ ·)
      | .error e => .error e := by
  induction cs generalizing inner with
  | nil =>
      rw [List.nil_append, List.append_nil]
      cases hplace : place read inner <;> simp only [fillPlace, if_true, hplace]
  | cons c cs ih =>
      rw [List.mem_cons, not_or] at h
      rw [List.cons_append, fillPlace, if_neg (Ne.symm h.1), ih h.2, List.append_assoc,
        List.singleton_append]

/-- A placeholder and what stands behind it. -/
theorem fillText_place {cs rest : List Char} (hopen : cs.head? ≠ some '\x7b')
    (hclose : '\x7d' ∉ cs) :
    fillText read ('\x7b' :: (cs ++ '\x7d' :: rest)) =
      match place read cs with
      | .ok text => (fillText read rest).map (text ++ ·)
      | .error e => .error e := by
  have hbegin :
      fillText read ('\x7b' :: (cs ++ '\x7d' :: rest)) =
        fillPlace read [] (cs ++ '\x7d' :: rest) := by
    rw [fillText.eq_def]
    split
    · next heq => cases heq
    · next heq =>
        exfalso
        cases cs with
        | nil => cases heq
        | cons c cs =>
            obtain ⟨rfl, -⟩ := List.cons.inj (List.cons.inj heq).2
            exact hopen rfl
    · next heq => cases heq
    · next heq =>
        obtain ⟨-, rfl⟩ := List.cons.inj heq
        rfl
    · next hne heq =>
        obtain ⟨rfl, -⟩ := List.cons.inj heq
        exact (hne rfl).elim
  rw [hbegin, fillPlace_append read hclose, List.nil_append]

/-- A template that is one placeholder. -/
theorem fillText_placeholder {cs : List Char} (hopen : cs.head? ≠ some '\x7b')
    (hclose : '\x7d' ∉ cs) :
    fillText read ('\x7b' :: (cs ++ ['\x7d'])) = place read cs := by
  rw [fillText_place read hopen hclose]
  cases place read cs with
  | error e => rfl
  | ok text =>
      show Except.ok (text ++ []) = _
      rw [List.append_nil]

/-- **A template** that is a reference in braces gives the text of what is found at the path, and
fails where nothing is found. -/
theorem fill_reference {r : Reference} (h : r.IsWritten) (inRange : ∀ s ∈ r.steps, s.InRange) :
    fill read ("\x7b" ++ r.text ++ "\x7d") =
      match read r.path with
      | some v => .ok v.render
      | none => .error (.undefined r.text) := by
  obtain ⟨c, cs, hcs, hc⟩ := Reference.head_chars h
  have hopen : r.chars.head? ≠ some '\x7b' := by
    rw [hcs]
    rintro ⟨⟩
    exact absurd hc (by decide)
  -- A reference begins with a name, so no dollar sign is taken off.
  have hdollar : r.chars.dropWhile (· = '$') = r.chars := by
    refine Text.dropWhile_eq_self fun d hd => decide_eq_false ?_
    rw [hcs] at hd
    obtain rfl := Option.some.inj hd
    rintro rfl
    exact absurd hc (by decide)
  have htemplate : ("\x7b" ++ r.text ++ "\x7d").toList = '\x7b' :: (r.chars ++ ['\x7d']) := by
    simp [Reference.toList_text]
  rw [fill, htemplate, fillText_placeholder read hopen (Reference.brace_not_mem_chars h), place,
    Reference.trimBy_chars h]
  simp only [Reference.ofChars_chars h inRange, hdollar]
  cases read r.path with
  | none =>
      show Except.error (Failure.undefined (String.ofList r.chars)) = _
      rw [← Reference.toList_text, String.ofList_toList]
  | some v =>
      show Except.ok (String.ofList v.render.toList) = _
      rw [String.ofList_toList]

end Template

end TabPilot
