import TabPilot.Proofs.Script.Shape

set_option autoImplicit false

/-! # Reading tokens back

A written token is read as itself, provided that what follows it does not go on with it. The
lemmas say for every kind of token what may follow.
-/

namespace TabPilot.Lexeme

/-- A text starts with a token of a kind, after a token of another kind. -/
def Reads (previous : Option TokenKind) (k : TokenKind) (cs next : List Char) : Prop :=
  ∃ c rest, cs ++ next = c :: rest ∧ Token.gap c rest = 0 ∧ c ≠ '\n' ∧
    leading previous c rest = .ok ⟨k, cs.length⟩

theorem takeWhile_append_stop {p : Char → Bool} {cs next : List Char} (all : ∀ c ∈ cs, p c = true)
    (stop : ∀ c ∈ next.head?, p c = false) : (cs ++ next).takeWhile p = cs := by
  rw [List.takeWhile_append_of_pos all]
  cases next with
  | nil => simp
  | cons c rest => simp [stop c (by simp)]

/-! ## Words and variables -/

theorem isWordChar_of_startsWord {c : Char} (h : startsWord c = true) : isWordChar c = true := by
  unfold startsWord Text.isLetter at h
  unfold isWordChar Text.isLetterOrNumeral
  -- Letters are told from the rest by a table below 128 and by Unicode's classes above it.
  by_cases hsmall : c.toNat < 128
  · simp only [hsmall, if_true, Bool.or_eq_true] at h ⊢
    refine h.imp_right fun halpha => ?_
    simp [Char.isAlphanum, halpha]
  · simp only [hsmall, if_false, Bool.or_eq_true] at h ⊢
    exact h.imp_right .inl

theorem all_isWordChar {w : String} (h : IsWord w) : ∀ c ∈ w.toList, isWordChar c = true := by
  obtain ⟨c, cs, hw, hstart, hrest⟩ := h
  rw [hw]
  intro x hx
  rcases List.mem_cons.mp hx with rfl | hx
  · exact isWordChar_of_startsWord hstart
  · exact hrest x hx

/-- The first character of a word starts nothing else. -/
theorem startsWord_ne {c : Char} (h : startsWord c = true) (x : Char)
    (hx : startsWord x = false) : c ≠ x := by
  rintro rfl
  rw [h] at hx
  cases hx

theorem not_isDigit_of_startsWord {c : Char} (h : startsWord c = true) : c.isDigit = false := by
  cases hdigit : c.isDigit with
  | false => rfl
  | true =>
      obtain ⟨hzero, hnine⟩ := Char.isDigit_iff_toNat.mp hdigit
      have h0 : '0'.toNat = 48 := rfl
      have h9 : '9'.toNat = 57 := rfl
      have hsmall : c.toNat < 128 := by omega
      simp only [startsWord, Text.isLetter, hsmall, if_true, Bool.or_eq_true,
        decide_eq_true_eq] at h
      rcases h with rfl | halpha
      · cases hdigit
      -- A letter lies in one of the two ranges of `Char.isAlpha`, above the digits.
      · have same : c.val.toNat = c.toNat := rfl
        have either : (decide (c.val ≥ 65 ∧ c.val ≤ 90) ||
            (decide (c.val ≥ 97) && decide (c.val ≤ 122))) = true := halpha
        have h65 : (65 : UInt32).toNat = 65 := rfl
        have h97 : (97 : UInt32).toNat = 97 := rfl
        simp only [Bool.or_eq_true, Bool.and_eq_true, decide_eq_true_eq, UInt32.le_iff_toNat_le,
          ge_iff_le, same] at either
        omega

theorem gap_eq_zero {c : Char} {rest : List Char} (hspace : c ≠ ' ') (htab : c ≠ '\t')
    (hreturn : c ≠ '\r') (hhash : c ≠ '#') (hslash : c ≠ '\\') : Token.gap c rest = 0 := by
  simp [Token.gap, isGap, hspace, htab, hreturn, hhash, hslash]

/-- A word is read as itself unless it opens a text over several lines. -/
theorem reads_word {previous : Option TokenKind} {w : String} {next : List Char} (h : IsWord w)
    (noHeading : w ≠ "begin" ∨ lineEnds next = false)
    (stop : ∀ c ∈ next.head?, isWordChar c = false) :
    Reads previous (.word w) w.toList next := by
  obtain ⟨c, cs, hw, hstart, hrest⟩ := id h
  have hne := startsWord_ne hstart
  refine ⟨c, cs ++ next, by rw [hw]; rfl, ?_, hne '\n' (by decide), ?_⟩
  · exact gap_eq_zero (hne ' ' (by decide)) (hne '\t' (by decide)) (hne '\r' (by decide))
      (hne '#' (by decide)) (hne '\\' (by decide))
  · have hword : word (c :: (cs ++ next)) = w.toList := by
      have happend : c :: (cs ++ next) = w.toList ++ next := by rw [hw]; rfl
      rw [happend]
      exact takeWhile_append_stop (all_isWordChar h) stop
    have hdigit := not_isDigit_of_startsWord hstart
    have htail : (c :: (cs ++ next)).drop w.toList.length = next := by
      have happend : c :: (cs ++ next) = w.toList ++ next := by rw [hw]; rfl
      rw [happend, List.drop_left]
    have hheading : (decide (w = "begin") && lineEnds next) = false := by
      rcases noHeading with hbegin | hline
      · rw [decide_eq_false hbegin, Bool.false_and]
      · rw [hline, Bool.and_false]
    simp [leading, hne '$' (by decide), hne '"' (by decide), hne '\'' (by decide), hdigit, hstart,
      hword, htail, hheading]

theorem reads_variable {previous : Option TokenKind} {name : String} {next : List Char}
    (h : IsVariableName name) (stop : ∀ c ∈ next.head?, isWordChar c = false) :
    Reads previous (.variable name) ('$' :: name.toList) next := by
  refine ⟨'$', name.toList ++ next, rfl, rfl, by decide, ?_⟩
  have hword : word (name.toList ++ next) = name.toList := takeWhile_append_stop h.2 stop
  have hne : name.toList.isEmpty = false := by simpa using h.1
  simp [leading, hword, hne, Nat.add_comm]

/-! ## Texts -/

theorem quoted?_close (q : Char) (next : List Char) : quoted? q (q :: next) = some ([], 1) := by
  unfold quoted?
  simp

theorem quoted?_escape {q e : Char} (hq : '\\' ≠ q) (rest : List Char) :
    quoted? q ('\\' :: e :: rest) =
      (quoted? q rest).map fun (text, n) => (unescape q e ++ text, n + 2) := by
  rw [quoted?.eq_def]
  simp [hq]

theorem quoted?_char {q c : Char} (hquote : c ≠ q) (hback : c ≠ '\\') (rest : List Char) :
    quoted? q (c :: rest) = (quoted? q rest).map fun (text, n) => (c :: text, n + 1) := by
  rw [quoted?.eq_def]
  simp [hquote, hback]

theorem quoted?_flatMap_escaped {q : Char} (hq : q = '"' ∨ q = '\'') (cs next : List Char) :
    quoted? q (cs.flatMap (Piece.escaped q) ++ q :: next) =
      some (cs, (cs.flatMap (Piece.escaped q)).length + 1) := by
  have hslash : '\\' ≠ q := by rcases hq with rfl | rfl <;> decide
  induction cs with
  | nil => exact quoted?_close q next
  | cons c cs ih =>
      rw [List.flatMap_cons, List.append_assoc]
      -- Quotes and backslashes are written as two characters, all others as themselves.
      by_cases hc : c = q ∨ c = '\\'
      · have hescaped : Piece.escaped q c = ['\\', c] := if_pos hc
        have hescape : unescape q c = [c] := by simp [unescape, hc]
        rw [hescaped, List.cons_append, List.cons_append, List.nil_append,
          quoted?_escape hslash, ih, hescape]
        simp
      · have hescaped : Piece.escaped q c = [c] := if_neg hc
        obtain ⟨hquote, hback⟩ := not_or.mp hc
        rw [hescaped, List.cons_append, List.nil_append, quoted?_char hquote hback, ih]
        simp

theorem reads_text {previous : Option TokenKind} (content : String) (interpolated : Bool)
    (next : List Char) : Reads previous (.text content interpolated)
      (Piece.quoted (Piece.quote interpolated) content.toList) next := by
  generalize hq : Piece.quote interpolated = q
  have hquote : q = '"' ∨ q = '\'' := by
    rw [← hq]
    cases interpolated
    · exact .inr rfl
    · exact .inl rfl
  have hflag : decide (q = '"') = interpolated := by
    rw [← hq]
    cases interpolated <;> rfl
  have hread := quoted?_flatMap_escaped hquote content.toList next
  refine ⟨q, content.toList.flatMap (Piece.escaped q) ++ q :: next, by simp [Piece.quoted], ?_, ?_,
    ?_⟩
  · rcases hquote with rfl | rfl <;> rfl
  · rcases hquote with rfl | rfl <;> decide
  · have hdollar : q ≠ '$' := by rcases hquote with rfl | rfl <;> decide
    have hopens : (decide (q = '"') || decide (q = '\'')) = true := by
      rcases hquote with rfl | rfl <;> rfl
    rw [leading, if_neg hdollar, if_pos hopens, hread]
    simp [hflag, Piece.quoted, Nat.add_comm]

/-! ## Numbers -/

theorem natOfDigits_toDigits (n : Nat) : Decimal.natOfDigits (Nat.toDigits 10 n) = n :=
  Nat.ofDigitChars_ten_toDigits

theorem isDigit_of_mem_toDigits {n : Nat} : ∀ c ∈ Nat.toDigits 10 n, c.isDigit = true :=
  fun _ hc => Nat.isDigit_of_mem_toDigits (by decide) (by decide) hc

/-- A text that does not start with a sign has none. -/
theorem takeSign_eq {cs : List Char} (h : ∀ c ∈ cs.head?, c ≠ '-' ∧ c ≠ '+') :
    Decimal.takeSign cs = (false, cs) := by
  unfold Decimal.takeSign
  split
  · exact absurd rfl (h '-' rfl).1
  · exact absurd rfl (h '+' rfl).2
  · rfl

theorem takeSign_of_isDigit {cs : List Char} (h : ∀ c ∈ cs, c.isDigit = true) :
    Decimal.takeSign cs = (false, cs) := by
  refine takeSign_eq fun c hc => ?_
  have hdigit := h c (List.mem_of_mem_head? hc)
  constructor
  · rintro rfl
    cases hdigit
  · rintro rfl
    cases hdigit

/-- The digits of a number without a sign are read as the number. -/
theorem signed64?_toDigits {n : Nat} (h : (n : Int) < Word.signedLimit) :
    Decimal.signed64? (String.ofList (Nat.toDigits 10 n)) = some (n : Int) := by
  obtain ⟨d, ds, hds⟩ : ∃ d ds, Nat.toDigits 10 n = d :: ds :=
    List.exists_cons_of_ne_nil Nat.toDigits_ne_nil
  have hdigits : ∀ c ∈ d :: ds, c.isDigit = true := by
    rw [← hds]
    exact isDigit_of_mem_toDigits
  have hsign := takeSign_of_isDigit hdigits
  have hall : (d :: ds).all Char.isDigit = true := List.all_eq_true.mpr hdigits
  have hrange : -Word.signedLimit ≤ (n : Int) := by
    have : Word.signedLimit = 9223372036854775808 := rfl
    omega
  unfold Decimal.signed64?
  rw [String.toList_ofList, hds, hsign]
  simp only [hall, List.isEmpty_cons, Bool.not_true, Bool.or_self, Bool.false_eq_true, if_false]
  rw [← hds, natOfDigits_toDigits]
  simp [Word.inSigned?, hrange, h]

theorem fraction_eq_nil {cs : List Char} (h : ∀ c ∈ cs.head?, c ≠ '.') : fraction cs = [] := by
  unfold fraction
  split
  · exact absurd rfl (h '.' (by simp))
  · rfl

theorem exponent_eq_nil {cs : List Char} (h : ∀ c ∈ cs.head?, c ≠ 'e' ∧ c ≠ 'E') :
    exponent cs = [] := by
  cases cs with
  | nil => rfl
  | cons c rest =>
      obtain ⟨he, hE⟩ := h c (by simp)
      rw [exponent.eq_def]
      simp [he, hE]

/-- Digits without a fraction and an exponent are read as an integer, or not at all. -/
theorem number_digits {afterDot : Bool} {n : Nat} {next : List Char}
    (stop : ∀ c ∈ next.head?, c.isDigit = false)
    (whole : afterDot = true ∨ ∀ c ∈ next.head?, c ≠ '.' ∧ c ≠ 'e' ∧ c ≠ 'E') :
    number afterDot (Nat.toDigits 10 n ++ next) =
      match Decimal.signed64? (String.ofList (Nat.toDigits 10 n)) with
      | some i => .ok ⟨.int i, (Nat.toDigits 10 n).length⟩
      | none => .error ⟨.badNumber (String.ofList (Nat.toDigits 10 n)), 0⟩ := by
  have hdigits : (Nat.toDigits 10 n ++ next).takeWhile Char.isDigit = Nat.toDigits 10 n :=
    takeWhile_append_stop isDigit_of_mem_toDigits stop
  -- After a dot no fraction is looked for; elsewhere nothing that follows starts one.
  have hfraction : (if afterDot = true then [] else fraction next) = [] := by
    rcases whole with rfl | hnext
    · rfl
    · rw [fraction_eq_nil fun c hc => (hnext c hc).1, ite_self]
  have hexponent : (if afterDot = true then [] else exponent next) = [] := by
    rcases whole with rfl | hnext
    · rfl
    · rw [exponent_eq_nil fun c hc => (hnext c hc).2, ite_self]
  unfold number
  cases hvalue : Decimal.signed64? (String.ofList (Nat.toDigits 10 n)) <;>
    simp only [hdigits, List.drop_left, hfraction, List.length_nil, List.drop_zero, hexponent,
      List.isEmpty_nil, Bool.and_self, if_true, List.append_nil, hvalue]

theorem number_toDigits {afterDot : Bool} {n : Nat} {next : List Char}
    (h : (n : Int) < Word.signedLimit) (stop : ∀ c ∈ next.head?, c.isDigit = false)
    (whole : afterDot = true ∨ ∀ c ∈ next.head?, c ≠ '.' ∧ c ≠ 'e' ∧ c ≠ 'E') :
    number afterDot (Nat.toDigits 10 n ++ next) =
      .ok ⟨.int n, (Nat.toDigits 10 n).length⟩ := by
  simp only [number_digits stop whole, signed64?_toDigits h]

theorem reads_int {previous : Option TokenKind} {n : Nat} {next : List Char}
    (h : (n : Int) < Word.signedLimit) (stop : ∀ c ∈ next.head?, c.isDigit = false)
    (whole : isDot previous = true ∨ ∀ c ∈ next.head?, c ≠ '.' ∧ c ≠ 'e' ∧ c ≠ 'E') :
    Reads previous (.int n) (Nat.toDigits 10 n) next := by
  obtain ⟨d, ds, hds⟩ : ∃ d ds, Nat.toDigits 10 n = d :: ds :=
    List.exists_cons_of_ne_nil Nat.toDigits_ne_nil
  have hd : d.isDigit = true := by
    refine isDigit_of_mem_toDigits (n := n) d ?_
    rw [hds]
    exact List.mem_cons_self
  have hne : ∀ x : Char, x.isDigit = false → d ≠ x := by
    rintro x hx rfl
    rw [hd] at hx
    cases hx
  refine ⟨d, ds ++ next, by rw [hds]; rfl, ?_, hne '\n' (by decide), ?_⟩
  · exact gap_eq_zero (hne ' ' (by decide)) (hne '\t' (by decide)) (hne '\r' (by decide))
      (hne '#' (by decide)) (hne '\\' (by decide))
  · have hnumber := number_toDigits h stop whole
    rw [hds] at hnumber ⊢
    simpa [leading, hne '$' (by decide), hne '"' (by decide), hne '\'' (by decide), hd]
      using hnumber

/-! ## Patterns -/

theorem slashed?_append {source : List Char} (next : List Char)
    (h : ∀ c ∈ source, c ≠ '/' ∧ c ≠ '\\' ∧ c ≠ '\n') :
    slashed? (source ++ '/' :: next) = some (source, source.length + 1) := by
  induction source with
  | nil =>
      rw [List.nil_append, slashed?.eq_def]
      simp
  | cons c source ih =>
      obtain ⟨hslash, hback, hline⟩ := h c (by simp)
      have ih := ih fun x hx => h x (List.mem_cons_of_mem _ hx)
      rw [List.cons_append, slashed?.eq_def]
      simp [hslash, hback, hline, ih]

theorem isAlpha_of_isFlag {c : Char} (h : isFlag c = true) : c.isAlpha = true := by
  have hmem : c = 'i' ∨ c = 'l' ∨ c = 'm' ∨ c = 's' ∨ c = 'u' := by simpa [isFlag] using h
  rcases hmem with rfl | rfl | rfl | rfl | rfl <;> decide

theorem reads_pattern {previous : Option TokenKind} {source flags : String} {next : List Char}
    (after : wantsPattern previous = true)
    (hsource : ∀ c ∈ source.toList, c ≠ '/' ∧ c ≠ '\\' ∧ c ≠ '\n')
    (hflags : ∀ c ∈ flags.toList, isFlag c = true)
    (stop : ∀ c ∈ next.head?, c.isAlpha = false) :
    Reads previous (.pattern source flags) ('/' :: (source.toList ++ '/' :: flags.toList))
      next := by
  refine ⟨'/', source.toList ++ '/' :: (flags.toList ++ next), by simp, rfl, by decide, ?_⟩
  have hslashed := slashed?_append (flags.toList ++ next) hsource
  -- The flags are looked for behind the source and its closing slash.
  have hdrop : (source.toList ++ '/' :: (flags.toList ++ next)).drop (source.toList.length + 1) =
      flags.toList ++ next := by
    have hsplit : source.toList ++ '/' :: (flags.toList ++ next) =
        (source.toList ++ ['/']) ++ (flags.toList ++ next) := by simp
    rw [hsplit]
    exact List.drop_left' (by simp)
  have hletters : (flags.toList ++ next).takeWhile Char.isAlpha = flags.toList :=
    takeWhile_append_stop (fun c hc => isAlpha_of_isFlag (hflags c hc)) stop
  have hfind : flags.toList.find? (fun c => !isFlag c) = none := by
    simpa using hflags
  have hstarts : startsWord '/' = false := by decide
  have hdigit : '/'.isDigit = false := by decide
  simp [leading, after, pattern, hslashed, hdrop, hletters, hfind, hstarts, hdigit]
  omega

/-! ## Symbols -/

/-- Whether a character makes a symbol of two characters out of the one before it. -/
def extends? (c : Char) : Bool := [':', '>', '<', '=', '~', '*'].contains c

theorem extends?_of_isDigit {c : Char} (h : c.isDigit = true) : extends? c = false := by
  cases hextends : extends? c with
  | false => rfl
  | true =>
      have hc : c = ':' ∨ c = '>' ∨ c = '<' ∨ c = '=' ∨ c = '~' ∨ c = '*' := by
        simpa [extends?] using hextends
      rcases hc with rfl | rfl | rfl | rfl | rfl | rfl <;> cases h

theorem extends?_of_startsWord {c : Char} (h : startsWord c = true) : extends? c = false := by
  have hne := startsWord_ne h
  simp [extends?, hne ':' (by decide), hne '>' (by decide), hne '<' (by decide),
    hne '=' (by decide), hne '~' (by decide), hne '*' (by decide)]

theorem exists_of_mem_pairs {s : Symbol} (h : s ∈ Symbol.pairs) :
    ∃ a b, s.text.toList = [a, b] ∧ extends? b = true := by
  revert h
  cases s <;> first | exact fun _ => ⟨_, _, rfl, rfl⟩ | exact fun h => absurd h (by decide)

theorem find?_pairs_eq_none {next : List Char} (a : Char)
    (stop : ∀ c ∈ next.head?, extends? c = false) :
    Symbol.pairs.find? (fun s => s.text.toList.isPrefixOf (a :: next)) = none := by
  refine List.find?_eq_none.mpr fun s hs => ?_
  -- Every symbol of two characters ends in one that `stop` excludes.
  obtain ⟨x, y, htext, hy⟩ := exists_of_mem_pairs hs
  rw [htext]
  cases next with
  | nil => simp
  | cons c next =>
      have hc : extends? c = false := stop c (by simp)
      have hne : y ≠ c := by
        rintro rfl
        rw [hy] at hc
        cases hc
      simp [hne]

theorem leading?_of_single {s : Symbol} {next : List Char} {a : Char}
    (stop : ∀ c ∈ next.head?, extends? c = false)
    (single : Symbol.singles.find? (fun s => s.text.toList.isPrefixOf (a :: next)) = some s) :
    Symbol.leading? (a :: next) = some s := by
  rw [Symbol.leading?, List.find?_append, find?_pairs_eq_none a stop, Option.none_or, single]

theorem leading?_eq (s : Symbol) {next : List Char} (stop : ∀ c ∈ next.head?, extends? c = false) :
    Symbol.leading? (s.text.toList ++ next) = some s := by
  -- Pairs are found whatever follows; a single symbol needs that it is not the start of a pair.
  cases s <;> first | rfl | exact leading?_of_single stop rfl

/-- Whether a character starts a symbol and nothing else, but for the slash. -/
def startsSymbol (c : Char) : Bool :=
  !startsWord c && !c.isDigit &&
    !(['$', '"', '\'', ' ', '\t', '\r', '\n', '#', '\\'].contains c)

theorem exists_of_symbol (s : Symbol) :
    ∃ c cs, s.text.toList = c :: cs ∧ startsSymbol c = true ∧
      (c = '/' → s = .slash ∨ s = .divideAssign) := by
  cases s <;> exact ⟨_, _, rfl, by decide, by decide⟩

theorem reads_symbol {previous : Option TokenKind} {s : Symbol} {next : List Char}
    (noPattern : s = .slash ∨ s = .divideAssign → wantsPattern previous = false)
    (longest : Symbol.leading? (s.text.toList ++ next) = some s) :
    Reads previous (.symbol s) s.text.toList next := by
  obtain ⟨c, cs, htext, hstart, hslash⟩ := exists_of_symbol s
  rw [htext] at longest
  simp only [startsSymbol, List.contains_cons, List.contains_nil, Bool.or_false, Bool.and_eq_true,
    Bool.not_eq_true', Bool.or_eq_false_iff, beq_eq_false_iff_ne] at hstart
  obtain ⟨⟨hword, hdigit⟩, hdollar, hdouble, hsingle, hspace, htab, hreturn, hline, hhash, hback⟩ :=
    hstart
  refine ⟨c, cs ++ next, by rw [htext]; rfl, gap_eq_zero hspace htab hreturn hhash hback, hline, ?_⟩
  -- A slash divides only where no pattern may stand.
  have hpattern : ¬ (c = '/' ∧ wantsPattern previous = true) := by
    rintro ⟨hc, hwants⟩
    rw [noPattern (hslash hc)] at hwants
    cases hwants
  have hlongest : Symbol.leading? (c :: (cs ++ next)) = some s := longest
  simp [leading, hdollar, hdouble, hsingle, hdigit, hword, hpattern, hlongest,
    String.length_toList]

end TabPilot.Lexeme
