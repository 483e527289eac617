import TabPilot.Proofs.Script.Scanned

set_option autoImplicit false

/-! # Tokens cover the text

`Spells` says how the characters of a token are written, and `Gap` what may stand between two
tokens; neither mentions how texts are scanned. The main statement, `Token.covers_scan`, is that
whatever is scanned is covered from its start to its end: gap, token, gap, token, with every token
at the line and column of its first character.
-/

namespace TabPilot

/-! ## Lines and columns -/

/-- The place of an offset in a text: the line ends before it tell the line, and the characters
behind the last of these the column. -/
def positionAt (cs : List Char) (k : Nat) : Position :=
  ⟨(cs.take k).count '\n' + 1, ((cs.take k).reverse.takeWhile (· ≠ '\n')).length + 1⟩

namespace Position

/-- One place lies in front of another in reading order. -/
def Before (p q : Position) : Prop := p.line < q.line ∨ p.line = q.line ∧ p.column < q.column

theorem Before.trans {p q r : Position} (h : p.Before q) (h' : q.Before r) : p.Before r := by
  unfold Before at *
  omega

theorem Before.ne {p q : Position} (h : p.Before q) : p ≠ q := by
  rintro rfl
  unfold Before at h
  omega

theorem before_after (p : Position) (c : Char) : p.Before (p.after c) := by
  unfold Before Position.after
  split
  · exact .inl (Nat.lt_succ_self _)
  · exact .inr ⟨rfl, Nat.lt_succ_self _⟩

theorem afterAll_append (p : Position) (cs ds : List Char) :
    p.afterAll (cs ++ ds) = (p.afterAll cs).afterAll ds := List.foldl_append

theorem before_afterAll (p : Position) {cs : List Char} (h : cs ≠ []) :
    p.Before (p.afterAll cs) := by
  induction cs generalizing p with
  | nil => exact absurd rfl h
  | cons c cs ih =>
      have hstep : p.afterAll (c :: cs) = (p.after c).afterAll cs := List.foldl_cons ..
      rw [hstep]
      cases cs with
      | nil => exact p.before_after c
      | cons d cs => exact (p.before_after c).trans (ih _ (List.cons_ne_nil d cs))

end Position

/-- Counting on from the start of a text leads to the place of an offset. -/
theorem afterAll_take (cs : List Char) (k : Nat) :
    (⟨1, 1⟩ : Position).afterAll (cs.take k) = positionAt cs k := by
  unfold positionAt
  generalize cs.take k = front
  induction front using List.reverseRecOn with
  | nil => rfl
  | append_singleton front c ih =>
      rw [Position.afterAll_append, ih, List.reverse_append, List.count_append]
      show Position.after _ c = _
      by_cases hc : c = '\n'
      · subst hc
        simp [Position.after]
      · simp [Position.after, hc]

theorem positionAt_add (cs : List Char) (k n : Nat) :
    positionAt cs (k + n) = (positionAt cs k).afterAll ((cs.drop k).take n) := by
  rw [← afterAll_take, ← afterAll_take, ← Position.afterAll_append, List.take_add]

/-- Places are in the order of the offsets. -/
theorem positionAt_before {cs : List Char} {j k : Nat} (h : j < k) (hk : k ≤ cs.length) :
    (positionAt cs j).Before (positionAt cs k) := by
  obtain ⟨n, rfl⟩ := Nat.exists_eq_add_of_lt h
  rw [Nat.add_assoc, positionAt_add]
  refine Position.before_afterAll _ fun hempty => ?_
  have hlength := congrArg List.length hempty
  simp only [List.length_take, List.length_drop, List.length_nil] at hlength
  omega

/-! ## Between tokens -/

namespace Token

/-- What may stand between two tokens, the second of which starts `next`: blanks, escaped line
ends, and a comment up to the end of its line. -/
inductive Gap (next : List Char) : List Char → Prop
  | nil : Gap next []
  | blank {c : Char} {cs : List Char} (blank : c = ' ' ∨ c = '\t' ∨ c = '\r') (rest : Gap next cs) :
      Gap next (c :: cs)
  | escaped {cs : List Char} (rest : Gap next cs) : Gap next ('\\' :: '\n' :: cs)
  | comment {cs : List Char} (inside : '\n' ∉ cs) (ends : ∀ c ∈ next.head?, c = '\n') :
      Gap next ('#' :: cs)

/-- No gap starts with a line end, and so none goes on behind a comment. -/
theorem Gap.append {cs ds next : List Char} (h : Gap (ds ++ next) cs) (hds : Gap next ds)
    (hne : ds ≠ []) : Gap next (cs ++ ds) := by
  induction h with
  | nil => exact hds
  | blank hblank _ ih => exact .blank hblank ih
  | escaped _ ih => exact .escaped ih
  | comment _ ends =>
      exfalso
      cases hds with
      | nil => exact hne rfl
      | @blank c _ hblank _ =>
          have hc : c = '\n' := ends c (by simp)
          subst hc
          rcases hblank with h | h | h <;> cases h
      | escaped _ => cases ends '\\' (by simp)
      | comment _ _ => cases ends '#' (by simp)

theorem isGap_iff {c : Char} : Lexeme.isGap c = true ↔ c = ' ' ∨ c = '\t' ∨ c = '\r' := by
  simp [Lexeme.isGap, or_assoc]

/-- What is skipped at once is a gap. -/
theorem exists_of_gap {c : Char} {rest : List Char} (h : gap c rest ≠ 0) :
    ∃ cs next, c :: rest = cs ++ next ∧ cs.length = gap c rest ∧ Gap next cs := by
  unfold gap at h ⊢
  by_cases hblank : Lexeme.isGap c = true
  · simp only [hblank, if_true]
    exact ⟨[c], rest, rfl, rfl, .blank (isGap_iff.mp hblank) .nil⟩
  · simp only [hblank, if_false, Bool.false_eq_true] at h ⊢
    by_cases hhash : c = '#'
    · subst hhash
      refine ⟨'#' :: rest.takeWhile (· ≠ '\n'), rest.dropWhile (· ≠ '\n'), ?_, ?_, .comment ?_ ?_⟩
      · rw [List.cons_append, List.takeWhile_append_dropWhile]
      · simp [Nat.add_comm]
      · intro hmem
        simpa using Lexeme.all_of_mem_takeWhile _ hmem
      · intro x hx
        have hstop := List.head?_dropWhile_not (· ≠ '\n') rest
        rw [Option.mem_def.mp hx] at hstop
        simpa using hstop
    · simp only [hhash, if_false] at h ⊢
      split at h
      · next hescaped =>
          simp only [Bool.and_eq_true, decide_eq_true_eq] at hescaped
          obtain ⟨rfl, hline⟩ := hescaped
          obtain ⟨next, rfl⟩ := List.head?_eq_some_iff.mp hline
          exact ⟨['\\', '\n'], next, rfl, by simp, .escaped .nil⟩
      · exact absurd rfl h

end Token

/-! ## How tokens are written -/

namespace Lexeme

/-- How the text between two quotes is written. -/
inductive Quoted (quote : Char) : List Char → List Char → Prop
  | nil : Quoted quote [] []
  | escape (e : Char) {body text : List Char} (rest : Quoted quote body text) :
      Quoted quote ('\\' :: e :: body) (unescape quote e ++ text)
  | plain {c : Char} {body text : List Char} (notQuote : c ≠ quote) (unescaped : c ≠ '\\')
      (rest : Quoted quote body text) : Quoted quote (c :: body) (c :: text)

/-- How the source of a pattern is written between its slashes. -/
inductive Slashed : List Char → List Char → Prop
  | nil : Slashed [] []
  | slash {body source : List Char} (rest : Slashed body source) :
      Slashed ('\\' :: '/' :: body) ('/' :: source)
  | escape {e : Char} {body source : List Char} (other : e ≠ '/') (rest : Slashed body source) :
      Slashed ('\\' :: e :: body) ('\\' :: e :: source)
  | plain {c : Char} {body source : List Char} (notSlash : c ≠ '/') (unescaped : c ≠ '\\')
      (inLine : c ≠ '\n') (rest : Slashed body source) : Slashed (c :: body) (c :: source)

def IsDigits (cs : List Char) : Prop := cs ≠ [] ∧ ∀ c ∈ cs, c.isDigit = true

/-- The fraction of a number: nothing, or a point and digits. -/
def IsFraction (cs : List Char) : Prop := cs = [] ∨ ∃ ds, IsDigits ds ∧ cs = '.' :: ds

/-- The exponent of a number: nothing, or a letter, at most one sign, and digits. -/
def IsExponent (cs : List Char) : Prop :=
  cs = [] ∨ ∃ e sign ds, (e = 'e' ∨ e = 'E') ∧ (sign = [] ∨ sign = ['+'] ∨ sign = ['-']) ∧
    IsDigits ds ∧ cs = e :: (sign ++ ds)

/-- The blanks that count as indentation. -/
def IsMargin (cs : List Char) : Prop := ∀ c ∈ cs, c = ' ' ∨ c = '\t'

/-- A line of a text over several lines: it does not close the text. -/
def IsTextLine (line : List Char) : Prop :=
  '\n' ∉ line ∧ closes (line.drop (indentation line)) = false

/-- The characters that a token is read from, by its kind and the kind of the token before it. -/
inductive Spells (previous : Option TokenKind) : TokenKind → List Char → Prop
  | newline : Spells previous .newline ['\n']
  | symbol (s : Symbol) : Spells previous (.symbol s) s.text.toList
  | word {w : String} (isWord : IsWord w) : Spells previous (.word w) w.toList
  | «variable» {name : String} (isName : IsVariableName name) :
      Spells previous (.variable name) ('$' :: name.toList)
  | int {digits : List Char} (isDigits : IsDigits digits)
      (range : (Decimal.natOfDigits digits : Int) < Word.signedLimit) :
      Spells previous (.int (Decimal.natOfDigits digits)) digits
  -- After the dot of an accessor only digits are read.
  | float {digits part power : List Char} {f : Float} (behind : previous ≠ some (.symbol .dot))
      (isDigits : IsDigits digits) (isFraction : IsFraction part) (isExponent : IsExponent power)
      (proper : part ≠ [] ∨ power ≠ [])
      (value : Decimal.float? (String.ofList (digits ++ part ++ power)) = some f) :
      Spells previous (.float f) (digits ++ part ++ power)
  | single {body text : List Char} (quoted : Quoted '\'' body text) :
      Spells previous (.text (String.ofList text) false) ('\'' :: (body ++ ['\'']))
  | double {body text : List Char} (quoted : Quoted '"' body text) :
      Spells previous (.text (String.ofList text) true) ('"' :: (body ++ ['"']))
  -- The closing line says how much of the margin of every line is dropped.
  | lines {blanks margin : List Char} {lines : List (List Char)}
      (heading : ∀ c ∈ blanks, isGap c = true) (body : ∀ line ∈ lines, IsTextLine line)
      (isMargin : IsMargin margin) :
      Spells previous
        (.text (String.ofList (joinLines
          (lines.map fun line => dedent margin.length (Text.trimEndBy (· = '\r') line)))) true)
        ("begin".toList ++ blanks ++ '\n' :: lines.flatMap (· ++ ['\n']) ++ margin ++ "end".toList)
  | pattern {body source flags : List Char}
      (behind : previous = some (.symbol .matches) ∨ previous = some (.symbol .unmatches))
      (slashed : Slashed body source) (areFlags : ∀ c ∈ flags, isFlag c = true) :
      Spells previous (.pattern (String.ofList source) (String.ofList flags))
        ('/' :: (body ++ '/' :: flags))

theorem exists_of_quoted? {quote : Char} {cs text : List Char} {n : Nat}
    (h : quoted? quote cs = some (text, n)) :
    ∃ body next, cs = body ++ quote :: next ∧ n = body.length + 1 ∧ Quoted quote body text := by
  fun_induction quoted? quote cs generalizing text n with
  | case1 => cases h
  | case2 rest =>
      cases h
      exact ⟨[], rest, rfl, rfl, .nil⟩
  | case3 => cases h
  | case4 e rest hquote ih =>
      obtain ⟨⟨text', n'⟩, hread, heq⟩ := Option.map_eq_some_iff.mp h
      cases heq
      obtain ⟨body, next, rfl, rfl, hbody⟩ := ih hread
      exact ⟨'\\' :: e :: body, next, rfl, rfl, .escape e hbody⟩
  | case5 c rest hquote hslash ih =>
      obtain ⟨⟨text', n'⟩, hread, heq⟩ := Option.map_eq_some_iff.mp h
      cases heq
      obtain ⟨body, next, rfl, rfl, hbody⟩ := ih hread
      exact ⟨c :: body, next, rfl, rfl, .plain hquote hslash hbody⟩

theorem exists_of_slashed? {cs source : List Char} {n : Nat} (h : slashed? cs = some (source, n)) :
    ∃ body next, cs = body ++ '/' :: next ∧ n = body.length + 1 ∧ Slashed body source := by
  fun_induction slashed? cs generalizing source n with
  | case1 => cases h
  | case2 rest =>
      cases h
      exact ⟨[], rest, rfl, rfl, .nil⟩
  | case3 => cases h
  | case4 => cases h
  | case5 e rest _ _ ih =>
      obtain ⟨⟨source', n'⟩, hread, heq⟩ := Option.map_eq_some_iff.mp h
      cases heq
      obtain ⟨body, next, rfl, rfl, hbody⟩ := ih hread
      refine ⟨'\\' :: e :: body, next, rfl, rfl, ?_⟩
      split
      · next he =>
          subst he
          exact .slash hbody
      · next he => exact .escape he hbody
  | case6 c rest hslash hline hback ih =>
      obtain ⟨⟨source', n'⟩, hread, heq⟩ := Option.map_eq_some_iff.mp h
      cases heq
      obtain ⟨body, next, rfl, rfl, hbody⟩ := ih hread
      exact ⟨c :: body, next, rfl, rfl, .plain hslash hback hline hbody⟩

theorem quoted?_of_quoted {quote : Char} {body text : List Char} (hquote : quote ≠ '\\')
    (h : Quoted quote body text) (next : List Char) :
    quoted? quote (body ++ quote :: next) = some (text, body.length + 1) := by
  induction h with
  | nil => exact quoted?_close quote next
  | escape e _ ih =>
      rw [List.cons_append, List.cons_append, quoted?_escape hquote.symm, ih]
      rfl
  | plain notQuote unescaped _ ih =>
      rw [List.cons_append, quoted?_char notQuote unescaped, ih]
      rfl

theorem slashed?_of_slashed {body source : List Char} (h : Slashed body source) (next : List Char) :
    slashed? (body ++ '/' :: next) = some (source, body.length + 1) := by
  induction h with
  | nil => simp [slashed?.eq_def]
  | slash _ ih =>
      rw [List.cons_append, List.cons_append, slashed?.eq_def]
      simp [ih]
  | escape other _ ih =>
      rw [List.cons_append, List.cons_append, slashed?.eq_def]
      simp [ih, other]
  | plain notSlash unescaped inLine _ ih =>
      rw [List.cons_append, slashed?.eq_def]
      simp [ih, notSlash, unescaped, inLine]

/-! ## What is read is what is written -/

theorem exists_of_fraction (cs : List Char) :
    ∃ next, cs = fraction cs ++ next ∧ IsFraction (fraction cs) := by
  unfold fraction
  split
  · next d rest =>
      split
      · next hd =>
          refine ⟨rest.dropWhile Char.isDigit, ?_, .inr ⟨d :: rest.takeWhile Char.isDigit, ?_, rfl⟩⟩
          · simp
          · refine ⟨List.cons_ne_nil _ _, List.forall_mem_cons.mpr ⟨hd, all_of_mem_takeWhile⟩⟩
      · exact ⟨_, rfl, .inl rfl⟩
  · exact ⟨_, rfl, .inl rfl⟩

theorem exists_of_exponent (cs : List Char) :
    ∃ next, cs = exponent cs ++ next ∧ IsExponent (exponent cs) := by
  -- The digits that follow the letter and the sign, all of them.
  have htaken {d : Char} (hd : d.isDigit = true) (more : List Char) :
      IsDigits (d :: more.takeWhile Char.isDigit) :=
    ⟨List.cons_ne_nil _ _, List.forall_mem_cons.mpr ⟨hd, all_of_mem_takeWhile⟩⟩
  fun_cases exponent cs with
  | case1 e he x d more hsign =>
      simp only [Bool.and_eq_true, Bool.or_eq_true, decide_eq_true_eq] at he hsign
      have hone : [x] = [] ∨ [x] = ['+'] ∨ [x] = ['-'] := by
        rcases hsign.1 with rfl | rfl
        · exact .inr (.inl rfl)
        · exact .inr (.inr rfl)
      exact ⟨more.dropWhile Char.isDigit, by simp,
        .inr ⟨e, [x], _, he, hone, htaken hsign.2 more, rfl⟩⟩
  | case2 e he x d more hsign hdigit =>
      simp only [Bool.or_eq_true, decide_eq_true_eq] at he
      exact ⟨(d :: more).dropWhile Char.isDigit, by simp,
        .inr ⟨e, [], _, he, .inl rfl, htaken hdigit (d :: more), rfl⟩⟩
  | case3 => exact ⟨_, rfl, .inl rfl⟩
  | case4 e he d hdigit =>
      simp only [Bool.or_eq_true, decide_eq_true_eq] at he
      exact ⟨[], by simp, .inr ⟨e, [], [d], he, .inl rfl, htaken hdigit [], rfl⟩⟩
  | case5 => exact ⟨_, rfl, .inl rfl⟩
  | case6 => exact ⟨_, rfl, .inl rfl⟩
  | case7 => exact ⟨_, rfl, .inl rfl⟩
  | case8 => exact ⟨_, rfl, .inl rfl⟩

/-- The front of a text is a token. -/
def Takes (previous : Option TokenKind) (cs : List Char) (l : Lexeme) : Prop :=
  ∃ chars next, cs = chars ++ next ∧ chars.length = l.width ∧ Spells previous l.kind chars

theorem takes_number {previous : Option TokenKind} {c : Char} {rest : List Char} {l : Lexeme}
    (hc : c.isDigit = true) (h : number (isDot previous) (c :: rest) = .ok l) :
    Takes previous (c :: rest) l := by
  have hdigits : IsDigits ((c :: rest).takeWhile Char.isDigit) := by
    refine ⟨?_, all_of_mem_takeWhile⟩
    rw [List.takeWhile_cons_of_pos hc]
    exact List.cons_ne_nil _ _
  have hsplit := List.takeWhile_append_dropWhile (p := Char.isDigit) (l := c :: rest)
  unfold number at h
  dsimp only at h
  generalize (c :: rest).takeWhile Char.isDigit = digits at hdigits hsplit h
  generalize (c :: rest).dropWhile Char.isDigit = tail at hsplit
  rw [← hsplit, List.drop_left] at h
  rw [← hsplit]
  -- Behind a dot there is neither a fraction nor an exponent.
  obtain ⟨part, next, hpart, htail, hfraction, hdot⟩ : ∃ part next,
      (if isDot previous = true then [] else fraction tail) = part ∧ tail = part ++ next ∧
        IsFraction part ∧ (part ≠ [] → isDot previous = false) := by
    cases hprevious : isDot previous with
    | true => exact ⟨[], tail, rfl, rfl, .inl rfl, fun hne => absurd rfl hne⟩
    | false =>
        obtain ⟨next, htail, hfraction⟩ := exists_of_fraction tail
        exact ⟨_, next, rfl, htail, hfraction, fun _ => rfl⟩
  rw [hpart, htail, List.drop_left] at h
  obtain ⟨power, next', hpower, hnext, hexponent, hdot'⟩ : ∃ power next',
      (if isDot previous = true then [] else exponent next) = power ∧ next = power ++ next' ∧
        IsExponent power ∧ (power ≠ [] → isDot previous = false) := by
    cases hprevious : isDot previous with
    | true => exact ⟨[], next, rfl, rfl, .inl rfl, fun hne => absurd rfl hne⟩
    | false =>
        obtain ⟨next', hnext, hexponent⟩ := exists_of_exponent next
        exact ⟨_, next', rfl, hnext, hexponent, fun _ => rfl⟩
  rw [hpower] at h
  subst htail hnext
  refine ⟨digits ++ part ++ power, next', by simp, ?_⟩
  split at h
  · next hwhole =>
      simp only [Bool.and_eq_true, List.isEmpty_iff] at hwhole
      obtain ⟨rfl, rfl⟩ := hwhole
      rw [List.append_nil, List.append_nil] at h ⊢
      split at h
      · next i hread =>
          cases h
          obtain ⟨rfl, hlimit⟩ := eq_of_signed64? hdigits.2 hread
          exact ⟨rfl, .int hdigits hlimit⟩
      · cases h
  · next hproper =>
      split at h
      · next f hread =>
          cases h
          simp only [Bool.and_eq_true, List.isEmpty_iff, not_and_or] at hproper
          have hbehind : isDot previous = false := hproper.elim hdot hdot'
          refine ⟨rfl, .float ?_ hdigits hfraction hexponent hproper hread⟩
          rintro rfl
          cases hbehind
      · cases h

theorem isPrefixOf_append_stop {word : List Char} {c : Char} (h : c ∉ word)
    (line next : List Char) : word.isPrefixOf (line ++ c :: next) = word.isPrefixOf line := by
  induction word generalizing line with
  | nil => rfl
  | cons w word ih =>
      obtain ⟨hc, hword⟩ := not_or.mp (List.mem_cons.not.mp h)
      cases line with
      | nil => simp [List.isPrefixOf, Ne.symm hc]
      | cons x line => simp [List.isPrefixOf, ih hword]

/-- What follows the end of a line has no part in whether it closes a text. -/
theorem closes_append (line next : List Char) : closes (line ++ '\n' :: next) = closes line := by
  unfold closes
  rw [isPrefixOf_append_stop (by decide)]
  cases hend : ['e', 'n', 'd'].isPrefixOf line with
  | false => rfl
  | true =>
      obtain ⟨more, rfl⟩ := List.isPrefixOf_iff_prefix.mp hend
      have hline : isWordChar '\n' = false := by decide
      cases more with
      | nil => simp [hline]
      | cons c more => simp

theorem indentation_append (line next : List Char) :
    indentation (line ++ '\n' :: next) = indentation line := by
  unfold indentation
  rw [List.takeWhile_append]
  split
  · next hall => simp [hall]
  · rfl

/-- A line that does not close a text is one of the lines of the text. -/
theorem isTextLine_of_not_closes {line next : List Char} (hline : '\n' ∉ line)
    (hopen : closes ((line ++ '\n' :: next).drop (indentation (line ++ '\n' :: next))) = false) :
    IsTextLine line := by
  refine ⟨hline, ?_⟩
  have hle : indentation line ≤ line.length := (List.takeWhile_sublist _).length_le
  rwa [indentation_append, List.drop_append_of_le_length hle, closes_append] at hopen

/-- Where text follows the first line, a line end stands between them. -/
theorem eq_append_of_drop_ne_nil {c : Char} {rest : List Char}
    (h : rest.drop ((c :: rest).takeWhile (· ≠ '\n')).length ≠ []) :
    c :: rest = (c :: rest).takeWhile (· ≠ '\n') ++
      '\n' :: rest.drop ((c :: rest).takeWhile (· ≠ '\n')).length := by
  have hsplit := List.takeWhile_append_dropWhile (p := (· ≠ '\n')) (l := c :: rest)
  have hstop := List.head?_dropWhile_not (· ≠ '\n') (c :: rest)
  cases hdrop : (c :: rest).dropWhile (· ≠ '\n') with
  | nil =>
      rw [hdrop, List.append_nil] at hsplit
      rw [hsplit] at h
      exact absurd (by simp) h
  | cons x next =>
      rw [hdrop] at hstop hsplit
      obtain rfl : x = '\n' := by simpa using hstop
      generalize (c :: rest).takeWhile (· ≠ '\n') = line at hsplit h
      have hnext : (c :: rest).drop (line.length + 1) = next := by
        rw [← hsplit]
        simp
      rw [List.drop_succ_cons] at hnext
      rw [hnext]
      exact hsplit.symm

theorem exists_of_heredocLines? {cs : List Char} {lines : List (List Char)} {indent n : Nat}
    (h : heredocLines? cs = some (lines, indent, n)) :
    ∃ (texts : List (List Char)) (margin next : List Char),
      cs = texts.flatMap (· ++ ['\n']) ++ margin ++ "end".toList ++ next ∧
        n = (texts.flatMap (· ++ ['\n']) ++ margin ++ "end".toList).length ∧
          lines = texts.map (Text.trimEndBy (· = '\r')) ∧ indent = margin.length ∧
            IsMargin margin ∧ ∀ line ∈ texts, IsTextLine line := by
  induction cs using heredocLines?.induct generalizing lines indent n with
  | case1 =>
      rw [heredocLines?] at h
      cases h
  -- The closing line.
  | case2 c rest =>
      rename_i hcloses
      rw [heredocLines?, if_pos hcloses] at h
      cases h
      simp only [closes, Bool.and_eq_true] at hcloses
      obtain ⟨next, hnext⟩ := List.isPrefixOf_iff_prefix.mp hcloses.1
      have hmargin := List.take_append_drop (indentation (c :: rest)) (c :: rest)
      have htake : (c :: rest).take (indentation (c :: rest)) =
          (c :: rest).takeWhile fun c => c = ' ' || c = '\t' :=
        (List.prefix_iff_eq_take.mp (List.takeWhile_prefix _)).symm
      refine ⟨[], (c :: rest).takeWhile fun c => c = ' ' || c = '\t', next, ?_, ?_, rfl, rfl, ?_,
        List.forall_mem_nil _⟩
      · rw [← htake, List.flatMap_nil, List.nil_append, List.append_assoc]
        exact (hmargin.symm.trans (congrArg _ hnext.symm))
      · simp [indentation]
      · intro x hx
        simpa using all_of_mem_takeWhile x hx
  -- A line of the text; behind it there is a line end, or else nothing would have been read.
  | case3 c rest indent' hopen =>
      rename_i line ih
      have htaken : (c :: rest).takeWhile (· ≠ '\n') = line := rfl
      rw [heredocLines?, if_neg hopen, htaken] at h
      obtain ⟨⟨lines', indent', n'⟩, hread, heq⟩ := Option.map_eq_some_iff.mp h
      cases heq
      obtain ⟨texts, margin, next, hnext, rfl, rfl, rfl, hmargin, htexts⟩ := ih hread
      have hsplit : c :: rest = line ++ '\n' :: rest.drop line.length := by
        refine eq_append_of_drop_ne_nil ?_
        rw [htaken, hnext]
        simp
      have hline : '\n' ∉ line := by
        rw [← htaken]
        exact fun hmem => by simpa using all_of_mem_takeWhile _ hmem
      replace hopen : closes ((c :: rest).drop (indentation (c :: rest))) = false :=
        Bool.eq_false_iff.mpr hopen
      rw [hsplit] at hopen
      clear_value line
      refine ⟨line :: texts, margin, next, ?_, ?_, rfl, rfl, hmargin, ?_⟩
      · rw [hsplit, hnext]
        simp
      · simp
        omega
      · exact List.forall_mem_cons.mpr ⟨isTextLine_of_not_closes hline hopen, htexts⟩

/-- Behind `begin`, the rest of the line is blank. -/
theorem exists_of_lineEnds {cs : List Char} (h : lineEnds cs = true) :
    ∃ blanks next, cs = blanks ++ '\n' :: next ∧ (∀ c ∈ blanks, isGap c = true) ∧
      cs.drop ((cs.takeWhile (· ≠ '\n')).length + 1) = next ∧
        (cs.takeWhile (· ≠ '\n')).length = blanks.length := by
  obtain ⟨next, hnext⟩ := List.head?_eq_some_iff.mp (of_decide_eq_true h)
  have hsplit := List.takeWhile_append_dropWhile (p := isGap) (l := cs)
  rw [hnext] at hsplit
  have hblanks : ∀ c ∈ cs.takeWhile isGap, isGap c = true := all_of_mem_takeWhile
  generalize cs.takeWhile isGap = blanks at hsplit hblanks
  have htaken : cs.takeWhile (· ≠ '\n') = blanks := by
    rw [← hsplit]
    refine takeWhile_append_stop (fun c hc => ?_) (by simp)
    have hne : c ≠ '\n' := by
      rintro rfl
      cases hblanks _ hc
    simpa using hne
  refine ⟨blanks, next, hsplit.symm, hblanks, ?_, by rw [htaken]⟩
  rw [htaken, ← hsplit]
  simp

theorem takes_heredoc {previous : Option TokenKind} {cs : List Char} {l : Lexeme}
    (hblank : lineEnds cs = true) (h : heredoc cs = .ok l) :
    Takes previous ("begin".toList ++ cs) { l with width := "begin".toList.length + l.width } := by
  obtain ⟨blanks, tail, hsplit, hblanks, hdrop, hlength⟩ := exists_of_lineEnds hblank
  unfold heredoc at h
  dsimp only at h
  rw [hdrop, hlength] at h
  split at h
  · next lines indent n hread =>
      cases h
      obtain ⟨texts, margin, next, rfl, rfl, rfl, rfl, hmargin, htexts⟩ :=
        exists_of_heredocLines? hread
      have hspells : Spells previous _ _ := .lines hblanks htexts hmargin
      refine ⟨_, next, ?_, ?_, by simpa only [List.map_map, Function.comp_def] using hspells⟩
      · rw [hsplit]
        simp
      · simp
        omega
  · cases h

theorem takes_pattern {previous : Option TokenKind} {rest : List Char} {l : Lexeme}
    (behind : wantsPattern previous = true) (h : pattern rest = .ok l) :
    Takes previous ('/' :: rest) l := by
  have hprevious : previous = some (.symbol .matches) ∨ previous = some (.symbol .unmatches) := by
    unfold wantsPattern at behind
    split at behind
    · exact .inl rfl
    · exact .inr rfl
    · cases behind
  unfold pattern at h
  split at h
  · cases h
  · next source n hread =>
      obtain ⟨body, next, rfl, rfl, hbody⟩ := exists_of_slashed? hread
      have hdrop : (body ++ '/' :: next).drop (body.length + 1) = next := by simp
      dsimp only at h
      rw [hdrop] at h
      split at h
      · cases h
      · next hfind =>
          cases h
          have hflags : ∀ c ∈ next.takeWhile Char.isAlpha, isFlag c = true := by
            simpa using List.find?_eq_none.mp hfind
          refine ⟨_, next.dropWhile Char.isAlpha, ?_, ?_, .pattern hprevious hbody hflags⟩
          · simp
          · simp
            omega

theorem takes_symbol {previous : Option TokenKind} {cs : List Char} {s : Symbol}
    (h : Symbol.leading? cs = some s) : Takes previous cs ⟨.symbol s, s.text.length⟩ := by
  have hfront : s.text.toList.isPrefixOf cs = true :=
    List.find?_some (p := fun s : Symbol => s.text.toList.isPrefixOf cs) h
  obtain ⟨next, hnext⟩ := List.isPrefixOf_iff_prefix.mp hfront
  exact ⟨s.text.toList, next, hnext.symm, String.length_toList, .symbol s⟩

/-- **Tokens.** What is read from the front of a text is written there. -/
theorem takes_leading {previous : Option TokenKind} {c : Char} {rest : List Char} {l : Lexeme}
    (h : leading previous c rest = .ok l) : Takes previous (c :: rest) l := by
  unfold leading at h
  dsimp only at h
  split at h
  -- A variable.
  · next hc =>
      subst hc
      split at h
      · cases h
      · next hempty =>
          cases h
          refine ⟨_, rest.dropWhile isWordChar, ?_, ?_, .variable ⟨?_, ?_⟩⟩
          · simp [word]
          · simp [Nat.add_comm]
          · simpa using hempty
          · rw [String.toList_ofList]
            exact all_of_mem_takeWhile
  split at h
  -- A text between quotes.
  · next hquote =>
      split at h
      · next text n hread =>
          cases h
          obtain ⟨body, next, rfl, rfl, hbody⟩ := exists_of_quoted? hread
          refine ⟨c :: (body ++ [c]), next, by simp, by simp; omega, ?_⟩
          simp only [Bool.or_eq_true, decide_eq_true_eq] at hquote
          rcases hquote with rfl | rfl
          · exact .double hbody
          · exact .single hbody
      · cases h
  split at h
  · next hdigit => exact takes_number hdigit h
  split at h
  -- A word, or a text over several lines behind the word that opens it.
  · next hstart =>
      split at h
      · next hopens =>
          simp only [Bool.and_eq_true, decide_eq_true_eq] at hopens
          obtain ⟨hbegin, hblank⟩ := hopens
          have hword : word (c :: rest) = "begin".toList := by
            rw [← hbegin, String.toList_ofList]
          obtain ⟨l', hread, rfl⟩ := exists_of_map_eq_ok h
          obtain ⟨tail, htail⟩ : word (c :: rest) <+: c :: rest := List.takeWhile_prefix isWordChar
          rw [hword] at hblank hread htail ⊢
          rw [← htail, List.drop_left] at hblank hread
          rw [← htail]
          exact takes_heredoc hblank hread
      · cases h
        refine ⟨_, (c :: rest).dropWhile isWordChar, ?_, ?_, .word (isWord_word hstart)⟩
        · simp [word]
        · simp
  split at h
  · next hpattern =>
      simp only [Bool.and_eq_true, decide_eq_true_eq] at hpattern
      obtain ⟨rfl, hbehind⟩ := hpattern
      exact takes_pattern hbehind h
  · split at h
    · next s hread =>
        cases h
        exact takes_symbol hread
    · cases h

end Lexeme

/-! ## One step of scanning -/

/-- What is in front at an offset is what stands between two offsets. -/
theorem extract_of_drop {cs chars next : List Char} {k : Nat} (h : cs.drop k = chars ++ next) :
    cs.extract k (k + chars.length) = chars := by
  rw [List.extract_eq_take_drop, h, Nat.add_sub_cancel_left, List.take_left]

theorem drop_of_drop {cs chars next : List Char} {k : Nat} (h : cs.drop k = chars ++ next) :
    cs.drop (k + chars.length) = next := by
  rw [← List.drop_drop, h, List.drop_left]

theorem le_of_drop {cs chars next : List Char} {k : Nat} (h : cs.drop k = chars ++ next)
    (hk : k ≤ cs.length) : k + chars.length ≤ cs.length := by
  have hlength := congrArg List.length h
  rw [List.length_drop, List.length_append] at hlength
  omega

theorem positionAt_of_drop {cs chars next : List Char} {k : Nat} (h : cs.drop k = chars ++ next) :
    positionAt cs (k + chars.length) = (positionAt cs k).afterAll chars := by
  rw [positionAt_add, h, List.take_left]

theorem extract_append {cs : List Char} {i j k : Nat} (hij : i ≤ j) (hjk : j ≤ k) :
    cs.extract i k = cs.extract i j ++ cs.extract j k := by
  obtain ⟨m, rfl⟩ := Nat.exists_eq_add_of_le hij
  obtain ⟨n, rfl⟩ := Nat.exists_eq_add_of_le hjk
  simp only [List.extract_eq_take_drop, Nat.add_sub_cancel_left]
  rw [Nat.add_assoc, Nat.add_sub_cancel_left, List.take_add, List.drop_drop]

namespace Token

/-- The kind of the last token, when the last one comes first. -/
def lastKind (done : List Token) : Option TokenKind := done.head?.map Token.kind

/-- What scanning on from an offset comes to: the end, a gap, a token or a misreading. -/
inductive ScanStep (cs : List Char) (done : List Token) (spaced : Bool) (k : Nat)
    (result : Except Misread (List Token)) : Prop
  | ends (atEnd : k = cs.length)
      (same : result = .ok (done.reverse ++ [⟨.endOfInput, positionAt cs k, true⟩]))
  | skips {chars next : List Char} (front : cs.drop k = chars ++ next) (nonempty : chars ≠ [])
      (gap : Gap next chars)
      (same : result = scanFrom done true (positionAt cs (k + chars.length)) next)
  | takes {chars next : List Char} {kind : TokenKind} {spaced' : Bool}
      (front : cs.drop k = chars ++ next) (nonempty : chars ≠ [])
      (spells : Lexeme.Spells (lastKind done) kind chars)
      (spaces : spaced' = true ↔ kind = .newline)
      (same : result = scanFrom (⟨kind, positionAt cs k, spaced⟩ :: done) spaced'
        (positionAt cs (k + chars.length)) next)
  | fails {j : Nat} {m : Misread} (within : j ≤ cs.length) (position : m.position = positionAt cs j)
      (same : result = .error m)

theorem ne_nil_of_spells {previous : Option TokenKind} {kind : TokenKind} {chars : List Char}
    (h : Lexeme.Spells previous kind chars) : chars ≠ [] := by
  cases h with
  | symbol s => cases s <;> simp [Symbol.text]
  | word isWord =>
      obtain ⟨c, cs, hw, _, _⟩ := isWord
      rw [hw]
      exact List.cons_ne_nil _ _
  | int isDigits => exact isDigits.1
  | float _ isDigits => simp [isDigits.1]
  | _ => simp

/-- **One step.** Scanning on from an offset skips a gap, takes a token, fails or ends there. -/
theorem scanStep {cs : List Char} {k : Nat} (hk : k ≤ cs.length) (done : List Token)
    (spaced : Bool) :
    ScanStep cs done spaced k (scanFrom done spaced (positionAt cs k) (cs.drop k)) := by
  cases hdrop : cs.drop k with
  | nil =>
      refine .ends (Nat.le_antisymm hk (List.drop_eq_nil_iff.mp hdrop)) ?_
      rw [scanFrom, List.reverse_cons]
  | cons c rest =>
      -- What is taken off the front, by its length.
      have htake {chars next : List Char} (hfront : c :: rest = chars ++ next) (hne : chars ≠ []) :
          (positionAt cs k).afterAll ((c :: rest).take chars.length) =
            positionAt cs (k + chars.length) ∧ rest.drop (chars.length - 1) = next := by
        refine ⟨?_, ?_⟩
        · rw [positionAt_of_drop (hdrop.trans hfront), hfront, List.take_left]
        · obtain ⟨d, chars, rfl⟩ := List.exists_cons_of_ne_nil hne
          rw [List.cons_append, List.cons.injEq] at hfront
          rw [hfront.2, List.length_cons, Nat.add_sub_cancel, List.drop_left]
      rw [scanFrom]
      by_cases hgap : gap c rest = 0
      · simp only [hgap, ne_eq, not_true_eq_false, if_false]
        split
        · next hline =>
            subst hline
            have hfront : cs.drop k = ['\n'] ++ rest := hdrop
            refine .takes hfront (List.cons_ne_nil _ _) .newline (iff_of_true rfl rfl) ?_
            rw [positionAt_of_drop hfront]
            rfl
        · next hline =>
            split
            · next l hread =>
                obtain ⟨chars, next, hfront, hwidth, hspells⟩ := Lexeme.takes_leading hread
                have hne := ne_nil_of_spells hspells
                obtain ⟨hposition, hrest⟩ := htake hfront hne
                -- Only a line end is read as a line end.
                have hkind : l.kind ≠ .newline := by
                  intro hkind
                  rw [hkind] at hspells
                  cases hspells
                  exact hline (List.cons.inj hfront).1
                refine .takes (hdrop.trans hfront) hne hspells
                  (iff_of_false Bool.false_ne_true hkind) ?_
                rw [← hwidth, hposition, hrest]
            · next e hread =>
                have hle : min e.offset (c :: rest).length ≤ cs.length - k := by
                  rw [← List.length_drop, hdrop]
                  exact Nat.min_le_right _ _
                refine .fails (j := k + min e.offset (c :: rest).length) (by omega) ?_ rfl
                rw [positionAt_add, hdrop, ← List.take_eq_take_min]
      · simp only [hgap, ne_eq, not_false_eq_true, if_true]
        obtain ⟨chars, next, hfront, hwidth, hchars⟩ := exists_of_gap hgap
        have hne : chars ≠ [] := by
          rintro rfl
          exact hgap hwidth.symm
        obtain ⟨hposition, hrest⟩ := htake hfront hne
        refine .skips (hdrop.trans hfront) hne hchars ?_
        rw [← hwidth, hposition, hrest]

/-! ## A whole text -/

/-- Tokens cover a text from an offset on, where the token before it, if there is one, ended: a gap,
a token, a gap, a token, up to the end of the text. -/
inductive Covers (cs : List Char) : Option TokenKind → Nat → List Token → Prop
  | last {previous : Option TokenKind} {e : Nat} (after : e ≤ cs.length)
      (gap : Gap [] (cs.extract e cs.length)) :
      Covers cs previous e [⟨.endOfInput, positionAt cs cs.length, true⟩]
  | next {previous : Option TokenKind} {e s e' : Nat} {t : Token} {ts : List Token} (after : e ≤ s)
      (forward : s < e') (within : e' ≤ cs.length) (gap : Gap (cs.drop s) (cs.extract e s))
      (spells : Lexeme.Spells previous t.kind (cs.extract s e'))
      (position : t.position = positionAt cs s)
      (spaced : t.spaced = false ↔ previous ≠ none ∧ previous ≠ some .newline ∧ s = e)
      (rest : Covers cs (some t.kind) e' ts) : Covers cs previous e (t :: ts)

/-- **A run of scanning.** The gap behind the last token has been skipped up to some offset; the
tokens from there on cover the rest of the text. -/
theorem covers_scanFrom {cs : List Char} {done : List Token} {spaced : Bool} {e k : Nat}
    {ts : List Token} (he : e ≤ k) (hk : k ≤ cs.length)
    (hgap : Gap (cs.drop k) (cs.extract e k))
    (hspaced : spaced = false ↔ lastKind done ≠ none ∧ lastKind done ≠ some .newline ∧ k = e)
    (h : scanFrom done spaced (positionAt cs k) (cs.drop k) = .ok ts) :
    ∃ more, ts = done.reverse ++ more ∧ Covers cs (lastKind done) e more := by
  induction hleft : cs.length - k using Nat.strongRecOn generalizing done spaced e k with
  | ind left ih =>
      have hstep := scanStep hk done spaced
      rw [h] at hstep
      -- A gap grows by what is skipped and starts anew after a token.
      cases hstep with
      | ends atEnd same =>
          cases same
          subst atEnd
          rw [List.drop_length] at hgap
          exact ⟨_, rfl, .last he hgap⟩
      | @skips chars next front nonempty gap same =>
          have hpos := List.length_pos_iff.mpr nonempty
          have hle := le_of_drop front hk
          rw [← drop_of_drop front] at same
          refine ih _ (by omega) (by omega) hle ?_ ?_ same.symm rfl
          · rw [extract_append he (Nat.le_add_right _ _), extract_of_drop front, drop_of_drop front]
            rw [front] at hgap
            exact hgap.append gap nonempty
          · refine iff_of_false (by simp) fun hnot => ?_
            omega
      | @takes chars next kind spaced' front nonempty spells spaces same =>
          have hpos := List.length_pos_iff.mpr nonempty
          have hle := le_of_drop front hk
          have hchars := extract_of_drop front
          rw [← drop_of_drop front] at same
          have hempty : Gap (cs.drop (k + chars.length))
              (cs.extract (k + chars.length) (k + chars.length)) := by
            rw [List.extract_eq_take_drop, Nat.sub_self, List.take_zero]
            exact .nil
          have hspaced' : spaced' = false ↔ some kind ≠ none ∧ some kind ≠ some .newline ∧
              k + chars.length = k + chars.length := by
            simpa using not_congr spaces
          obtain ⟨more, rfl, hmore⟩ :=
            ih _ (by omega) (Nat.le_refl _) hle hempty hspaced' same.symm rfl
          refine ⟨⟨kind, positionAt cs k, spaced⟩ :: more, by simp, ?_⟩
          refine .next he (Nat.lt_add_of_pos_right hpos) hle hgap ?_ rfl hspaced hmore
          rw [hchars]
          exact spells
      | fails _ _ same => cases same

theorem Covers.exists_offset {cs : List Char} {previous : Option TokenKind} {e : Nat}
    {ts : List Token} (h : Covers cs previous e ts) :
    ∀ t ∈ ts, ∃ s, e ≤ s ∧ s ≤ cs.length ∧ t.position = positionAt cs s := by
  induction h with
  | last after _ => exact List.forall_mem_singleton.mpr ⟨_, after, Nat.le_refl _, rfl⟩
  | next after forward within _ _ position _ _ ih =>
      refine List.forall_mem_cons.mpr ⟨⟨_, after, by omega, position⟩, fun t ht => ?_⟩
      obtain ⟨s, hs, hlength, hposition⟩ := ih t ht
      exact ⟨s, by omega, hlength, hposition⟩

/-- Tokens that cover a text stand there in reading order. -/
theorem Covers.pairwise_before {cs : List Char} {previous : Option TokenKind} {e : Nat}
    {ts : List Token} (h : Covers cs previous e ts) :
    ts.Pairwise fun t u => t.position.Before u.position := by
  induction h with
  | last _ _ => exact List.pairwise_singleton _ _
  | next _ forward _ _ _ position _ rest ih =>
      refine List.pairwise_cons.mpr ⟨fun u hu => ?_, ih⟩
      obtain ⟨s, hs, hlength, hposition⟩ := rest.exists_offset u hu
      rw [position, hposition]
      exact positionAt_before (Nat.lt_of_lt_of_le forward hs) hlength

theorem covers_of_scan {cs : List Char} {ts : List Token} (h : scan cs = .ok ts) :
    Covers cs none 0 ts := by
  have hstart : Gap (cs.drop 0) (cs.extract 0 0) := by
    rw [List.extract_eq_take_drop, List.take_zero]
    exact .nil
  obtain ⟨_, rfl, hcovers⟩ :=
    covers_scanFrom (Nat.le_refl 0) (Nat.zero_le _) hstart (by simp [lastKind]) h
  exact hcovers

theorem exists_offset_of_scanFrom {cs : List Char} {done : List Token} {spaced : Bool} {k : Nat}
    {m : Misread} (hk : k ≤ cs.length)
    (h : scanFrom done spaced (positionAt cs k) (cs.drop k) = .error m) :
    ∃ j ≤ cs.length, m.position = positionAt cs j := by
  induction hleft : cs.length - k using Nat.strongRecOn generalizing done spaced k with
  | ind left ih =>
      have hstep := scanStep hk done spaced
      rw [h] at hstep
      cases hstep with
      | ends _ same => cases same
      | skips front nonempty _ same =>
          have hpos := List.length_pos_iff.mpr nonempty
          have hle := le_of_drop front hk
          rw [← drop_of_drop front] at same
          exact ih _ (by omega) hle same.symm rfl
      | takes front nonempty _ _ same =>
          have hpos := List.length_pos_iff.mpr nonempty
          have hle := le_of_drop front hk
          rw [← drop_of_drop front] at same
          exact ih _ (by omega) hle same.symm rfl
      | fails within position same =>
          cases same
          exact ⟨_, within, position⟩

/-- What is wrong with a text is at a character of it or at its end. -/
theorem exists_offset_of_scan {cs : List Char} {m : Misread} (h : scan cs = .error m) :
    ∃ k ≤ cs.length, m.position = positionAt cs k :=
  exists_offset_of_scanFrom (Nat.zero_le _) h

/-- **Covering.** Tokens cover the text they are scanned from, from its start to its end, and stand
there in reading order. -/
theorem covers_scan {cs : List Char} {ts : List Token} (h : scan cs = .ok ts) :
    Covers cs none 0 ts ∧ ts.Pairwise fun t u => t.position.Before u.position :=
  ⟨covers_of_scan h, (covers_of_scan h).pairwise_before⟩

/-- An element of an array, behind a comment and an escaped line end. -/
def elementSource : List Char := "# first\n\\\n$a[0]".toList

def elementTokens : List Token :=
  [⟨.newline, ⟨1, 8⟩, true⟩, ⟨.variable "a", ⟨3, 1⟩, true⟩, ⟨.symbol .openBracket, ⟨3, 3⟩, false⟩,
    ⟨.int 0, ⟨3, 4⟩, false⟩, ⟨.symbol .closeBracket, ⟨3, 5⟩, false⟩, ⟨.endOfInput, ⟨3, 6⟩, true⟩]

theorem covers_scan_element :
    scan elementSource = .ok elementTokens ∧ Covers elementSource none 0 elementTokens := by
  have hscan : scan elementSource = .ok elementTokens := by cbv
  exact ⟨hscan, (covers_scan hscan).1⟩

end Token

end TabPilot
