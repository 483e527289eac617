import Mathlib.Data.List.Basic
import TabPilot.Proofs.Script.Heredoc

set_option autoImplicit false

/-! # Line ends with carriage returns

`withReturns` puts a carriage return in front of every line end. `Token.divide` cuts a source into
stretches, the characters of its tokens and what stands between them, as far as it can be read. The
main statement, `Token.kinds_withReturns`, is that the tokens stay the same, unless a line end
stands inside quotes or slashes or is escaped: a backslash escapes a line end only directly in front
of it, so that a source with an escaped line end cannot be read any more.
-/

namespace TabPilot

/-- A source with a carriage return in front of every line end. -/
def withReturns (cs : List Char) : List Char :=
  cs.flatMap fun c => if c = '\n' then ['\r', '\n'] else [c]

section

variable {c : Char} {cs : List Char}

@[simp] theorem withReturns_nil : withReturns [] = [] := rfl

@[simp] theorem withReturns_newline (cs : List Char) :
    withReturns ('\n' :: cs) = '\r' :: '\n' :: withReturns cs := rfl

theorem withReturns_cons (h : c ≠ '\n') : withReturns (c :: cs) = c :: withReturns cs := by
  simp [withReturns, h]

theorem withReturns_append (cs ds : List Char) :
    withReturns (cs ++ ds) = withReturns cs ++ withReturns ds := List.flatMap_append

theorem withReturns_of_not_mem (h : '\n' ∉ cs) : withReturns cs = cs := by
  induction cs with
  | nil => rfl
  | cons c cs ih =>
      obtain ⟨hc, hcs⟩ := not_or.mp (List.mem_cons.not.mp h)
      rw [withReturns_cons (Ne.symm hc), ih hcs]

/-- What comes up to a character stays when no line end comes up to it. -/
theorem withReturns_append_cons {front next : List Char}
    (inLine : '\n' ∉ (front ++ c :: next).take (front.length + 1)) :
    withReturns (front ++ c :: next) = front ++ c :: withReturns next := by
  rw [List.append_cons, List.take_left' (by simp)] at inLine
  rw [List.append_cons, withReturns_append, withReturns_of_not_mem inLine, ← List.append_cons]

theorem drop_withReturns {n : Nat} (h : '\n' ∉ cs.take n) :
    (withReturns cs).drop n = withReturns (cs.drop n) := by
  induction cs generalizing n with
  | nil => simp
  | cons c cs ih =>
      cases n with
      | zero => rfl
      | succ n =>
          obtain ⟨hc, hcs⟩ := not_or.mp (List.mem_cons.not.mp h)
          rw [withReturns_cons (Ne.symm hc), List.drop_succ_cons, List.drop_succ_cons, ih hcs]

/-- What stops at a line end stops at a carriage return in front of it. -/
theorem takeWhile_withReturns {p : Char → Bool} (hline : p '\n' = false) (hreturn : p '\r' = false)
    (cs : List Char) : (withReturns cs).takeWhile p = cs.takeWhile p := by
  induction cs with
  | nil => rfl
  | cons c cs ih =>
      by_cases hc : c = '\n'
      · subst hc
        simp [hline, hreturn]
      · rw [withReturns_cons hc, List.takeWhile_cons, List.takeWhile_cons, ih]

theorem not_mem_takeWhile {p : Char → Bool} (hline : p '\n' = false) : '\n' ∉ cs.takeWhile p := by
  intro hmem
  rw [Lexeme.all_of_mem_takeWhile _ hmem] at hline
  cases hline

theorem drop_takeWhile_withReturns {p : Char → Bool} (hline : p '\n' = false) (cs : List Char) :
    (withReturns cs).drop (cs.takeWhile p).length =
      withReturns (cs.drop (cs.takeWhile p).length) := by
  refine drop_withReturns ?_
  rw [← List.prefix_iff_eq_take.mp (List.takeWhile_prefix p)]
  exact not_mem_takeWhile hline

theorem any_head?_withReturns {p : Char → Bool} (hline : p '\n' = false) (hreturn : p '\r' = false)
    (cs : List Char) : (withReturns cs).head?.any p = cs.head?.any p := by
  cases cs with
  | nil => rfl
  | cons c cs =>
      by_cases hc : c = '\n'
      · subst hc
        simp [hline, hreturn]
      · rw [withReturns_cons hc]
        rfl

theorem isPrefixOf_withReturns {word : List Char} (hline : '\n' ∉ word) (hreturn : '\r' ∉ word)
    (cs : List Char) : word.isPrefixOf (withReturns cs) = word.isPrefixOf cs := by
  induction word generalizing cs with
  | nil => simp
  | cons w word ih =>
      obtain ⟨hw, hword⟩ := not_or.mp (List.mem_cons.not.mp hline)
      obtain ⟨hw', hword'⟩ := not_or.mp (List.mem_cons.not.mp hreturn)
      cases cs with
      | nil => rfl
      | cons c cs =>
          by_cases hc : c = '\n'
          · subst hc
            simp [List.isPrefixOf, beq_eq_false_iff_ne.mpr (Ne.symm hw),
              beq_eq_false_iff_ne.mpr (Ne.symm hw')]
          · rw [withReturns_cons hc]
            simp [List.isPrefixOf, ih hword hword']

/-- The first line may come to end in a carriage return. -/
theorem exists_of_line_withReturns (cs : List Char) :
    ∃ returns, (withReturns cs).takeWhile (· ≠ '\n') = cs.takeWhile (· ≠ '\n') ++ returns ∧
      (returns = [] ∨ returns = ['\r']) := by
  induction cs with
  | nil => exact ⟨[], rfl, .inl rfl⟩
  | cons c cs ih =>
      by_cases hc : c = '\n'
      · subst hc
        exact ⟨['\r'], rfl, .inr rfl⟩
      · obtain ⟨returns, hline, hreturns⟩ := ih
        refine ⟨returns, ?_, hreturns⟩
        rw [withReturns_cons hc]
        simp only [List.takeWhile_cons, hline, hc, ne_eq, not_false_eq_true, decide_true, if_true,
          List.cons_append]

/-- What follows the first line. -/
theorem drop_line_withReturns (cs : List Char) :
    (withReturns cs).drop (((withReturns cs).takeWhile (· ≠ '\n')).length + 1) =
      withReturns (cs.drop ((cs.takeWhile (· ≠ '\n')).length + 1)) := by
  induction cs with
  | nil => rfl
  | cons c cs ih =>
      by_cases hc : c = '\n'
      · subst hc
        rfl
      · rw [withReturns_cons hc]
        simpa [List.takeWhile_cons, hc] using ih

end

namespace Lexeme

/-! ## Numbers, words and symbols -/

theorem fraction_dot (cs : List Char) : fraction ('.' :: cs) =
    if cs.head?.any Char.isDigit = true then '.' :: cs.takeWhile Char.isDigit else [] := by
  cases cs with
  | nil => rfl
  | cons d cs =>
      by_cases hd : d.isDigit = true <;> simp [fraction, hd]

theorem fraction_withReturns (cs : List Char) : fraction (withReturns cs) = fraction cs := by
  cases cs with
  | nil => rfl
  | cons c cs =>
      by_cases hline : c = '\n'
      · subst hline
        rfl
      rw [withReturns_cons hline]
      by_cases hdot : c = '.'
      · subst hdot
        rw [fraction_dot, fraction_dot, any_head?_withReturns (by decide) (by decide),
          takeWhile_withReturns (by decide) (by decide)]
      · rw [fraction_eq_nil (by simpa using hdot), fraction_eq_nil (by simpa using hdot)]

theorem exponent_cons (e s : Char) (cs : List Char) : exponent (e :: s :: cs) =
    if ((e = 'e' || e = 'E') &&
        ((s = '+' || s = '-') && cs.head?.any Char.isDigit || s.isDigit)) = true
      then e :: s :: cs.takeWhile Char.isDigit else [] := by
  by_cases he : e = 'e' ∨ e = 'E'
  · cases cs with
    | nil => simp [exponent, he]
    | cons d cs =>
        by_cases hsign : (s = '+' ∨ s = '-') ∧ d.isDigit = true
        · simp [exponent, he, hsign]
        · simp [exponent, he, hsign]
  · simp [exponent, he]

theorem exponent_withReturns (cs : List Char) : exponent (withReturns cs) = exponent cs := by
  cases cs with
  | nil => rfl
  | cons e cs =>
      by_cases he : e = '\n'
      · subst he
        rfl
      rw [withReturns_cons he]
      cases cs with
      | nil => rfl
      | cons s cs =>
          by_cases hs : s = '\n'
          · subst hs
            rw [withReturns_newline, exponent_cons, exponent_cons]
            simp
          · rw [withReturns_cons hs, exponent_cons, exponent_cons,
              any_head?_withReturns (by decide) (by decide),
              takeWhile_withReturns (by decide) (by decide)]

theorem not_mem_of_isDigits {ds : List Char} (h : IsDigits ds) : '\n' ∉ ds := by
  intro hmem
  cases h.2 _ hmem

theorem not_mem_of_isFraction {cs : List Char} (h : IsFraction cs) : '\n' ∉ cs := by
  rcases h with rfl | ⟨ds, hds, rfl⟩
  · simp
  · simpa using not_mem_of_isDigits hds

theorem not_mem_of_isExponent {cs : List Char} (h : IsExponent cs) : '\n' ∉ cs := by
  rcases h with rfl | ⟨e, sign, ds, he, hsign, hds, rfl⟩
  · simp
  · have hds := not_mem_of_isDigits hds
    rcases he with rfl | rfl <;> rcases hsign with rfl | rfl | rfl <;> simpa using hds

theorem number_withReturns (afterDot : Bool) (cs : List Char) :
    number afterDot (withReturns cs) = number afterDot cs := by
  have hdigits : (withReturns cs).takeWhile Char.isDigit = cs.takeWhile Char.isDigit :=
    takeWhile_withReturns (by decide) (by decide) cs
  have htail : (withReturns cs).drop (cs.takeWhile Char.isDigit).length =
      withReturns (cs.drop (cs.takeWhile Char.isDigit).length) :=
    drop_takeWhile_withReturns (by decide) cs
  unfold number
  simp only [hdigits, htail]
  generalize cs.drop (cs.takeWhile Char.isDigit).length = tail
  have hpower : (withReturns tail).drop (fraction tail).length =
      withReturns (tail.drop (fraction tail).length) := by
    obtain ⟨next, hnext, hfraction⟩ := exists_of_fraction tail
    have htake : fraction tail = tail.take (fraction tail).length :=
      List.prefix_iff_eq_take.mp ⟨next, hnext.symm⟩
    exact drop_withReturns (htake ▸ not_mem_of_isFraction hfraction)
  cases afterDot with
  | true => rfl
  | false => simp only [Bool.false_eq_true, if_false, fraction_withReturns, hpower,
      exponent_withReturns]

theorem symbol_withReturns (cs : List Char) :
    Symbol.leading? (withReturns cs) = Symbol.leading? cs := by
  have hfront : ∀ s : Symbol, '\n' ∉ s.text.toList ∧ '\r' ∉ s.text.toList := by
    intro s
    cases s <;> decide
  unfold Symbol.leading?
  congr 1
  funext s
  exact isPrefixOf_withReturns (hfront s).1 (hfront s).2 cs

/-! ## Texts in quotes and patterns -/

/-- A text that is closed within its line is the same text. -/
theorem quoted?_withReturns {quote : Char} {cs text : List Char} {n : Nat} (hquote : quote ≠ '\\')
    (h : quoted? quote cs = some (text, n)) (inLine : '\n' ∉ cs.take n) :
    quoted? quote (withReturns cs) = some (text, n) := by
  obtain ⟨body, next, rfl, rfl, hbody⟩ := exists_of_quoted? h
  rw [withReturns_append_cons inLine]
  exact quoted?_of_quoted hquote hbody _

theorem slashed?_withReturns {cs source : List Char} {n : Nat}
    (h : slashed? cs = some (source, n)) (inLine : '\n' ∉ cs.take n) :
    slashed? (withReturns cs) = some (source, n) := by
  obtain ⟨body, next, rfl, rfl, hbody⟩ := exists_of_slashed? h
  rw [withReturns_append_cons inLine]
  exact slashed?_of_slashed hbody _

/-- An open text stays open, wherever its line ends are. -/
theorem quoted?_withReturns_eq_none {quote : Char} {cs : List Char}
    (hquote : quote = '"' ∨ quote = '\'') (h : quoted? quote cs = none) :
    quoted? quote (withReturns cs) = none := by
  obtain ⟨hback, hline, hreturn⟩ : '\\' ≠ quote ∧ '\n' ≠ quote ∧ '\r' ≠ quote := by
    rcases hquote with rfl | rfl <;> decide
  fun_induction quoted? quote cs with
  | case1 => rfl
  | case2 => cases h
  | case3 =>
      rw [withReturns_of_not_mem (by decide), quoted?.eq_def]
      simp [hback]
  | case4 e rest _ ih =>
      have ih := ih (Option.map_eq_none_iff.mp h)
      rw [withReturns_cons (by decide)]
      by_cases he : e = '\n'
      -- The backslash now escapes the carriage return, and the line end is one of the text.
      · subst he
        rw [withReturns_newline, quoted?_escape hback, quoted?_char hline (by decide), ih]
        rfl
      · rw [withReturns_cons he, quoted?_escape hback, ih]
        rfl
  | case5 c rest hc hslash ih =>
      have ih := ih (Option.map_eq_none_iff.mp h)
      by_cases hbreak : c = '\n'
      · subst hbreak
        rw [withReturns_newline, quoted?_char hreturn (by decide), quoted?_char hline (by decide),
          ih]
        rfl
      · rw [withReturns_cons hbreak, quoted?_char hc hslash, ih]
        rfl

/-- A pattern cannot go on behind a line end, except behind an escaped one, and none is escaped when
carriage returns stand in front of them. -/
theorem slashed?_withReturns_eq_none {cs : List Char}
    (h : ∀ source n, slashed? cs = some (source, n) → '\n' ∈ cs.take n) :
    slashed? (withReturns cs) = none := by
  fun_induction slashed? cs with
  | case1 => rfl
  | case2 rest => simpa using h [] 1 rfl
  | case3 rest => simp [slashed?.eq_def]
  | case4 => simp [withReturns, slashed?.eq_def]
  | case5 e rest _ _ ih =>
      rw [withReturns_cons (by decide), slashed?.eq_def]
      by_cases he : e = '\n'
      · subst he
        simp [slashed?.eq_def]
      · have ih := ih fun source n hread => by
          have hmem := h _ (n + 2) (by rw [hread, Option.map_some])
          simpa only [List.take_succ_cons, List.mem_cons, Ne.symm he, false_or,
            (by decide : '\n' ≠ '\\')] using hmem
        rw [withReturns_cons he]
        simp [ih]
  | case6 c rest hslash hline hback ih =>
      have ih := ih fun source n hread => by
        have hmem := h _ (n + 1) (by rw [hread, Option.map_some])
        simpa only [List.take_succ_cons, List.mem_cons, Ne.symm hline, false_or] using hmem
      rw [withReturns_cons hline, slashed?.eq_def]
      simp [hslash, hline, hback, ih]

/-! ## Texts over several lines -/

theorem lineEnds_withReturns (cs : List Char) : lineEnds (withReturns cs) = lineEnds cs := by
  induction cs with
  | nil => rfl
  | cons c cs ih =>
      by_cases hline : c = '\n'
      · subst hline
        rfl
      · rw [withReturns_cons hline]
        unfold lineEnds at ih ⊢
        by_cases hgap : isGap c = true
        · simpa [hgap] using ih
        · simp [hgap]

theorem indentation_withReturns (cs : List Char) :
    indentation (withReturns cs) = indentation cs := by
  unfold indentation
  rw [takeWhile_withReturns (by decide) (by decide)]

theorem drop_indentation_withReturns (cs : List Char) :
    (withReturns cs).drop (indentation cs) = withReturns (cs.drop (indentation cs)) :=
  drop_takeWhile_withReturns (by decide) cs

theorem closes_withReturns (cs : List Char) : closes (withReturns cs) = closes cs := by
  have hfront : ['e', 'n', 'd'].isPrefixOf (withReturns cs) = ['e', 'n', 'd'].isPrefixOf cs :=
    isPrefixOf_withReturns (by decide) (by decide) cs
  unfold closes
  rw [hfront]
  cases hend : ['e', 'n', 'd'].isPrefixOf cs with
  | false => rfl
  | true =>
      obtain ⟨next, rfl⟩ := List.isPrefixOf_iff_prefix.mp hend
      cases next with
      | nil => rfl
      | cons c next =>
          by_cases hline : c = '\n'
          · subst hline
            rfl
          · rw [withReturns_append, withReturns_cons hline]
            rfl

theorem trimEndBy_append_returns (line : List Char) {returns : List Char}
    (h : returns = [] ∨ returns = ['\r']) :
    Text.trimEndBy (· = '\r') (line ++ returns) = Text.trimEndBy (· = '\r') line := by
  rcases h with rfl | rfl
  · rw [List.append_nil]
  · simp [Text.trimEndBy]

theorem withReturns_eq_nil_iff {cs : List Char} : withReturns cs = [] ↔ cs = [] := by
  cases cs with
  | nil => simp
  | cons c cs => by_cases hline : c = '\n' <;> simp [withReturns, hline]

theorem closes_drop_withReturns (cs : List Char) :
    closes ((withReturns cs).drop (indentation (withReturns cs))) =
      closes (cs.drop (indentation cs)) := by
  rw [indentation_withReturns, drop_indentation_withReturns, closes_withReturns]

theorem drop_closing_withReturns {cs : List Char}
    (h : closes (cs.drop (indentation cs)) = true) :
    (withReturns cs).drop (indentation cs + 3) = withReturns (cs.drop (indentation cs + 3)) := by
  obtain ⟨next, hnext, -⟩ := closes_iff.mp h
  have hword : '\n' ∉ (cs.drop (indentation cs)).take 3 := by
    rw [hnext]
    exact (by decide : '\n' ∉ "end".toList)
  rw [← List.drop_drop, drop_indentation_withReturns, drop_withReturns hword, List.drop_drop]

/-- The lines are the same, and so is what stands behind them. -/
theorem heredocLines?_withReturns (cs : List Char) :
    match heredocLines? cs with
    | none => heredocLines? (withReturns cs) = none
    | some (lines, indent, n) =>
        ∃ n', heredocLines? (withReturns cs) = some (lines, indent, n') ∧
          (withReturns cs).drop n' = withReturns (cs.drop n) := by
  -- Line by line, so by the length of what is left.
  induction hlength : cs.length using Nat.strong_induction_on generalizing cs with
  | h length ih =>
      subst hlength
      by_cases hne : cs = []
      · subst hne
        simp [heredocLines?]
      have hcloses' := closes_drop_withReturns cs
      cases hcloses : closes (cs.drop (indentation cs)) with
      | true =>
          rw [hcloses] at hcloses'
          rw [heredocLines?_of_closes hcloses, heredocLines?_of_closes hcloses',
            indentation_withReturns]
          exact ⟨_, rfl, drop_closing_withReturns hcloses⟩
      | false =>
          rw [hcloses] at hcloses'
          have hne' : withReturns cs ≠ [] := withReturns_eq_nil_iff.not.mpr hne
          obtain ⟨returns, hline, hreturns⟩ := exists_of_line_withReturns cs
          have hshort : (cs.drop ((cs.takeWhile (· ≠ '\n')).length + 1)).length < cs.length := by
            have hpos := List.length_pos_iff.mpr hne
            rw [List.length_drop]
            omega
          have ih := ih _ hshort _ rfl
          have hbehind := drop_line_withReturns cs
          rw [heredocLines?_of_open hne hcloses, heredocLines?_of_open hne' hcloses', hbehind]
          -- The line may have gained a carriage return, but loses it when it is read.
          rw [hline] at hbehind ⊢
          rw [trimEndBy_append_returns _ hreturns]
          cases hread : heredocLines? (cs.drop ((cs.takeWhile (· ≠ '\n')).length + 1)) with
          | none =>
              simp only [hread] at ih
              simp only [ih, Option.map_none]
          | some read =>
              obtain ⟨lines, indent, n⟩ := read
              simp only [hread] at ih
              obtain ⟨n', hread', hdrop⟩ := ih
              simp only [hread', Option.map_some]
              refine ⟨_, rfl, ?_⟩
              rw [← List.drop_drop, hbehind, hdrop, List.drop_drop]

/-! ## Any token -/

/-- Whether the characters of a token stand between quotes or slashes. -/
def isLiteral : TokenKind → List Char → Bool
  | .text _ _, chars => chars.head? = some '"' || chars.head? = some '\''
  | .pattern _ _, _ => true
  | _, _ => false

/-- A reading of a text and one of the same text with carriage returns come to the same: both fail,
or they read the same and leave the same. -/
inductive SameReading (cs : List Char) : Except Failure Lexeme → Except Failure Lexeme → Prop
  | fails (e e' : Failure) : SameReading cs (.error e) (.error e')
  | reads {l l' : Lexeme} (same : l'.kind = l.kind)
      (leaves : (withReturns cs).drop l'.width = withReturns (cs.drop l.width)) :
      SameReading cs (.ok l) (.ok l')

/-- No line end stands between the quotes or slashes of the token at the front. -/
def InLine (previous : Option TokenKind) (c : Char) (rest : List Char) : Prop :=
  ∀ l, leading previous c rest = .ok l → isLiteral l.kind ((c :: rest).take l.width) = true →
    '\n' ∉ (c :: rest).take l.width

section

variable {previous : Option TokenKind} {c : Char} {rest : List Char}

theorem sameReading_quoted (hquote : c = '"' ∨ c = '\'')
    (inLine : InLine previous c rest) :
    SameReading (c :: rest) (leading previous c rest) (leading previous c (withReturns rest)) := by
  have hreads {cs text : List Char} {n : Nat} (hread : quoted? c cs = some (text, n)) :
      leading previous c cs = .ok ⟨.text (String.ofList text) (c = '"'), 1 + n⟩ := by
    rcases hquote with rfl | rfl <;> simp [leading, hread]
  have hfails {cs : List Char} (hread : quoted? c cs = none) :
      leading previous c cs = .error ⟨.openString, 0⟩ := by
    rcases hquote with rfl | rfl <;> simp [leading, hread]
  have hback : c ≠ '\\' := by rcases hquote with rfl | rfl <;> decide
  have hline : c ≠ '\n' := by rcases hquote with rfl | rfl <;> decide
  cases hread : quoted? c rest with
  | none =>
      rw [hfails hread, hfails (quoted?_withReturns_eq_none hquote hread)]
      exact .fails _ _
  | some read =>
      obtain ⟨text, n⟩ := read
      have hinside := inLine _ (hreads hread) (by simpa [isLiteral, Nat.add_comm] using hquote)
      rw [Nat.add_comm, List.take_succ_cons] at hinside
      have hinside : '\n' ∉ rest.take n := (not_or.mp (List.mem_cons.not.mp hinside)).2
      rw [hreads hread, hreads (quoted?_withReturns hback hread hinside)]
      refine .reads rfl ?_
      rw [withReturns_cons hline, Nat.add_comm, List.drop_succ_cons, List.drop_succ_cons,
        drop_withReturns hinside]

theorem pattern_withReturns {source : List Char} {n : Nat}
    (hread : slashed? rest = some (source, n)) (inLine : '\n' ∉ rest.take n) :
    pattern (withReturns rest) = pattern rest := by
  unfold pattern
  simp only [hread, slashed?_withReturns hread inLine, drop_withReturns inLine,
    takeWhile_withReturns (p := Char.isAlpha) (by decide) (by decide)]

theorem exists_of_pattern {l : Lexeme} (h : pattern rest = .ok l) :
    ∃ source n, slashed? rest = some (source, n) ∧ n + 1 ≤ l.width ∧
      ∀ chars, isLiteral l.kind chars = true := by
  unfold pattern at h
  split at h
  · cases h
  · next source n hread =>
      dsimp only at h
      split at h
      · cases h
      · cases h
        exact ⟨source, n, hread, by simp only []; omega, fun _ => rfl⟩

theorem sameReading_pattern (hpattern : wantsPattern previous = true)
    (inLine : InLine previous '/' rest) :
    SameReading ('/' :: rest) (leading previous '/' rest)
      (leading previous '/' (withReturns rest)) := by
  have hleading (cs : List Char) : leading previous '/' cs = pattern cs := by
    have hdigit : ('/' : Char).isDigit = false := by decide
    have hstart : startsWord '/' = false := by decide
    simp [leading, hdigit, hstart, hpattern]
  rw [InLine, hleading] at inLine
  rw [hleading, hleading]
  -- With returns a pattern is read only if it ends on its line.
  by_cases hread : ∃ source n, slashed? rest = some (source, n) ∧ '\n' ∉ rest.take n
  · obtain ⟨source, n, hread, hinside⟩ := hread
    rw [pattern_withReturns hread hinside]
    cases hresult : pattern rest with
    | error e => exact .fails _ _
    | ok l =>
        obtain ⟨-, -, -, -, hliteral⟩ := exists_of_pattern hresult
        exact .reads rfl (drop_withReturns (inLine l hresult (hliteral _)))
  · push Not at hread
    have hfails : pattern (withReturns rest) = .error ⟨.openPattern, 0⟩ := by
      simp only [pattern, slashed?_withReturns_eq_none hread]
    rw [hfails]
    cases hresult : pattern rest with
    | error e => exact .fails _ _
    | ok l =>
        obtain ⟨source, n, hsource, hwidth, hliteral⟩ := exists_of_pattern hresult
        have hbreak : '\n' ∈ rest.take (l.width - 1) :=
          (List.take_sublist_take_left (by omega)).subset (hread source n hsource)
        have hinside := inLine l hresult (hliteral _)
        obtain ⟨width, hwidth'⟩ : ∃ width, l.width = width + 1 := ⟨l.width - 1, by omega⟩
        rw [hwidth', List.take_succ_cons] at hinside
        rw [hwidth', Nat.add_sub_cancel] at hbreak
        exact absurd (List.mem_cons_of_mem _ hbreak) hinside

theorem word_withReturns (cs : List Char) : word (withReturns cs) = word cs :=
  takeWhile_withReturns (by decide) (by decide) cs

theorem drop_word_withReturns (cs : List Char) :
    (withReturns cs).drop (word cs).length = withReturns (cs.drop (word cs).length) :=
  drop_takeWhile_withReturns (by decide) cs

theorem sameReading_heredoc (cs : List Char) :
    SameReading cs (heredoc cs) (heredoc (withReturns cs)) := by
  have hbehind := drop_line_withReturns cs
  have hlines := heredocLines?_withReturns (cs.drop ((cs.takeWhile (· ≠ '\n')).length + 1))
  unfold heredoc
  dsimp only
  rw [hbehind]
  cases hread : heredocLines? (cs.drop ((cs.takeWhile (· ≠ '\n')).length + 1)) with
  | none =>
      simp only [hread] at hlines
      rw [hlines]
      exact .fails _ _
  | some read =>
      obtain ⟨lines, indent, n⟩ := read
      simp only [hread] at hlines
      obtain ⟨n', hread', hdrop⟩ := hlines
      rw [hread']
      refine .reads rfl ?_
      rw [← List.drop_drop, hbehind, hdrop, List.drop_drop]

theorem sameReading_lines (hstart : startsWord c = true)
    (hopens : (String.ofList (word (c :: rest)) = "begin" &&
      lineEnds ((c :: rest).drop (word (c :: rest)).length)) = true) :
    SameReading (c :: rest) (leading previous c rest) (leading previous c (withReturns rest)) := by
  have hline : c ≠ '\n' := startsWord_ne hstart '\n' (by decide)
  have hbehind := drop_word_withReturns (c :: rest)
  have hopens' : (String.ofList (word (c :: withReturns rest)) = "begin" && lineEnds
      ((c :: withReturns rest).drop (word (c :: withReturns rest)).length)) = true := by
    rw [← withReturns_cons hline, word_withReturns, hbehind, lineEnds_withReturns]
    exact hopens
  rw [leading_of_startsWord hstart, leading_of_startsWord hstart, if_pos hopens, if_pos hopens',
    ← withReturns_cons hline, word_withReturns, hbehind]
  have hsame := sameReading_heredoc ((c :: rest).drop (word (c :: rest)).length)
  generalize heredoc (withReturns _) = reading' at hsame ⊢
  generalize heredoc _ = reading at hsame ⊢
  cases hsame with
  | fails e e' => exact .fails e e'
  | reads same leaves =>
      refine .reads same ?_
      rw [← List.drop_drop, hbehind, leaves, List.drop_drop]

/-- A symbol, a number, a name: what stands in a line is read the same. -/
theorem leading_withReturns (hline : c ≠ '\n') (hquote : ¬ (c = '"' ∨ c = '\''))
    (hpattern : ¬ (c = '/' ∧ wantsPattern previous = true))
    (hopens : ¬ (startsWord c = true ∧ (String.ofList (word (c :: rest)) = "begin" &&
      lineEnds ((c :: rest).drop (word (c :: rest)).length)) = true)) :
    leading previous c (withReturns rest) = leading previous c rest := by
  by_cases hstart : startsWord c = true
  · have hopen := not_and.mp hopens hstart
    have hopen' : ¬ (String.ofList (word (c :: withReturns rest)) = "begin" && lineEnds
        ((c :: withReturns rest).drop (word (c :: withReturns rest)).length)) = true := by
      rw [← withReturns_cons hline, word_withReturns, drop_word_withReturns, lineEnds_withReturns]
      exact hopen
    rw [leading_of_startsWord hstart, leading_of_startsWord hstart, if_neg hopen, if_neg hopen',
      ← withReturns_cons hline, word_withReturns]
  · have hquote' : ¬ (decide (c = '"') || decide (c = '\'')) = true := by simpa using hquote
    have hpattern' : ¬ (decide (c = '/') && wantsPattern previous) = true := by
      simpa using hpattern
    unfold leading
    rw [if_neg hquote', if_neg hquote', if_neg hstart, if_neg hstart, if_neg hpattern',
      if_neg hpattern', ← withReturns_cons hline, word_withReturns, number_withReturns,
      symbol_withReturns]

/-- A token that holds a line end ends a line, stands between quotes or slashes, or opens with the
rest of a line that holds blanks only. -/
theorem exists_of_newline_mem {kind : TokenKind} {chars : List Char}
    (h : Spells previous kind chars) (hmem : '\n' ∈ chars) :
    kind = .newline ∨ isLiteral kind chars = true ∨ ∃ blanks next, (∀ c ∈ blanks, isGap c = true) ∧
      chars = "begin".toList ++ (blanks ++ '\n' :: next) := by
  have hword : isWordChar '\n' = false := by decide
  -- Of the tokens that are no literals, only a heredoc goes over several lines.
  cases h with
  | newline => exact .inl rfl
  | symbol s =>
      exfalso
      revert hmem
      cases s <;> decide
  | word isWord =>
      rw [all_isWordChar isWord _ hmem] at hword
      cases hword
  | «variable» isName =>
      rw [isName.2 _ (List.mem_of_ne_of_mem (by decide) hmem)] at hword
      cases hword
  | int isDigits => exact absurd hmem (not_mem_of_isDigits isDigits)
  | float _ isDigits isFraction isExponent =>
      exfalso
      simp only [List.mem_append, not_mem_of_isDigits isDigits, not_mem_of_isFraction isFraction,
        not_mem_of_isExponent isExponent, or_self] at hmem
  | single => exact .inr (.inl rfl)
  | double => exact .inr (.inl rfl)
  | @lines blanks margin lines heading =>
      refine .inr (.inr ⟨blanks, lines.flatMap (· ++ ['\n']) ++ (margin ++ "end".toList),
        heading, ?_⟩)
      simp only [List.append_assoc, List.cons_append]
  | pattern => exact .inr (.inl rfl)

theorem lineEnds_append {blanks : List Char} (next : List Char)
    (h : ∀ c ∈ blanks, isGap c = true) : lineEnds (blanks ++ '\n' :: next) = true := by
  have hgap : isGap '\n' = false := by decide
  rw [lineEnds, List.dropWhile_append_of_pos h, List.dropWhile_cons, hgap]
  rfl

/-- What starts so is read as a text over several lines. -/
theorem opens_of_begin {blanks more : List Char} (hblanks : ∀ c ∈ blanks, isGap c = true)
    (hfront : c :: rest = "begin".toList ++ (blanks ++ '\n' :: more)) :
    startsWord c = true ∧ (String.ofList (word (c :: rest)) = "begin" &&
      lineEnds ((c :: rest).drop (word (c :: rest)).length)) = true := by
  obtain rfl : c = 'b' := (List.cons.inj hfront).1
  rw [hfront, word_begin hblanks, List.drop_left, lineEnds_append more hblanks]
  decide

/-- **A token is the same token**, unless a line end stands between its quotes or slashes. -/
theorem sameReading_leading (hline : c ≠ '\n')
    (inLine : InLine previous c rest) :
    SameReading (c :: rest) (leading previous c rest) (leading previous c (withReturns rest)) := by
  by_cases hquote : c = '"' ∨ c = '\''
  · exact sameReading_quoted hquote inLine
  by_cases hpattern : c = '/' ∧ wantsPattern previous = true
  · obtain ⟨rfl, hpattern⟩ := hpattern
    exact sameReading_pattern hpattern inLine
  by_cases hopens : startsWord c = true ∧ (String.ofList (word (c :: rest)) = "begin" &&
      lineEnds ((c :: rest).drop (word (c :: rest)).length)) = true
  · exact sameReading_lines hopens.1 hopens.2
  rw [leading_withReturns hline hquote hpattern hopens]
  cases hread : leading previous c rest with
  | error e => exact .fails e e
  | ok l =>
      refine .reads rfl (drop_withReturns fun hmem => ?_)
      obtain ⟨chars, next, hfront, hwidth, hspells⟩ := takes_leading hread
      have htake : (c :: rest).take l.width = chars := by rw [hfront, ← hwidth, List.take_left]
      rw [htake] at hmem
      rcases exists_of_newline_mem hspells hmem with hkind | hliteral | ⟨blanks, more, hblanks, rfl⟩
      · rw [hkind] at hspells
        cases hspells
        exact hline (List.cons.inj hfront).1
      · exact inLine l hread (htake ▸ hliteral) (htake ▸ hmem)
      -- A text over several lines has been dealt with.
      · rw [List.append_assoc, List.append_assoc, List.cons_append] at hfront
        exact hopens (opens_of_begin hblanks hfront)

end

end Lexeme

/-! ## A source in stretches -/

namespace Token

open Lexeme

/-- A stretch of a source: what stands between tokens, or a token and what it is read from. -/
inductive Stretch
  | gap (chars : List Char)
  | token (kind : TokenKind) (chars : List Char)

def Stretch.escapesLineEnd : Stretch → Bool
  | .gap chars => chars = ['\\', '\n']
  | .token _ _ => false

/-- Whether a stretch stands between quotes or slashes. -/
def Stretch.isLiteral : Stretch → Bool
  | .gap _ => false
  | .token kind chars => Lexeme.isLiteral kind chars

def Stretch.kind? : Stretch → Option TokenKind
  | .gap _ => none
  | .token kind _ => some kind

def Stretch.chars : Stretch → List Char
  | .gap chars => chars
  | .token _ chars => chars

/-- The stretches at the front of a source. Where the source is not read as a `whole`, no token can
be read behind them. -/
structure Division where
  stretches : List Stretch
  whole : Bool

namespace Division

/-- One more stretch in front. -/
def behind (d : Division) (s : Stretch) : Division := ⟨s :: d.stretches, d.whole⟩

/-- The tokens of a source that can be read. -/
def kinds? (d : Division) : Option (List TokenKind) :=
  if d.whole then some (d.stretches.filterMap Stretch.kind? ++ [.endOfInput]) else none

def escapesLineEnd (d : Division) : Bool := d.stretches.any Stretch.escapesLineEnd

/-- Its tokens if, moreover, no line end is escaped. -/
def unescapedKinds? (d : Division) : Option (List TokenKind) :=
  if d.escapesLineEnd then none else d.kinds?

/-- No line end stands between quotes or slashes. -/
def LiteralsInLine (d : Division) : Prop :=
  ∀ s ∈ d.stretches, s.isLiteral = true → '\n' ∉ s.chars

instance (d : Division) : Decidable d.LiteralsInLine :=
  inferInstanceAs (Decidable (∀ s ∈ d.stretches, s.isLiteral = true → '\n' ∉ s.chars))

variable (d : Division)

theorem kinds?_gap (chars : List Char) : (d.behind (.gap chars)).kinds? = d.kinds? := rfl

theorem kinds?_token (kind : TokenKind) (chars : List Char) :
    (d.behind (.token kind chars)).kinds? = d.kinds?.map (kind :: ·) := by
  unfold kinds? behind
  cases d.whole <;> rfl

theorem escapesLineEnd_behind (s : Stretch) :
    (d.behind s).escapesLineEnd = (s.escapesLineEnd || d.escapesLineEnd) := rfl

theorem unescapedKinds?_gap {chars : List Char}
    (h : Stretch.escapesLineEnd (.gap chars) = false) :
    (d.behind (.gap chars)).unescapedKinds? = d.unescapedKinds? := by
  rw [unescapedKinds?, escapesLineEnd_behind, h, Bool.false_or, kinds?_gap]
  rfl

theorem unescapedKinds?_token (kind : TokenKind) (chars : List Char) :
    (d.behind (.token kind chars)).unescapedKinds? = d.unescapedKinds?.map (kind :: ·) := by
  rw [unescapedKinds?, escapesLineEnd_behind, Stretch.escapesLineEnd, Bool.false_or, kinds?_token,
    unescapedKinds?]
  cases d.escapesLineEnd <;> rfl

variable {d}

theorem LiteralsInLine.of_behind {s : Stretch} (h : (d.behind s).LiteralsInLine) :
    d.LiteralsInLine := fun t hmem => h t (List.mem_cons_of_mem _ hmem)

end Division

theorem drop_width {previous : Option TokenKind} {c : Char} {rest : List Char} {l : Lexeme}
    (h : leading previous c rest = .ok l) :
    rest.drop (l.width - 1) = (c :: rest).drop l.width := by
  obtain ⟨chars, next, -, hwidth, hspells⟩ := takes_leading h
  have hpos := List.length_pos_iff.mpr (ne_nil_of_spells hspells)
  obtain ⟨width, hwidth⟩ : ∃ width, l.width = width + 1 := ⟨l.width - 1, by omega⟩
  rw [hwidth, Nat.add_sub_cancel, List.drop_succ_cons]

/-- Cuts a source into stretches, behind a token. -/
def divide (previous : Option TokenKind) (cs : List Char) : Division :=
  match cs with
  | [] => ⟨[], true⟩
  | c :: rest =>
      let skipped := gap c rest
      if skipped ≠ 0 then
        (divide previous (rest.drop (skipped - 1))).behind (.gap ((c :: rest).take skipped))
      else if c = '\n' then (divide (some .newline) rest).behind (.token .newline ['\n'])
      else
        match leading previous c rest with
        | .ok l =>
            (divide (some l.kind) (rest.drop (l.width - 1))).behind
              (.token l.kind ((c :: rest).take l.width))
        | .error _ => ⟨[], false⟩
  termination_by cs.length
  decreasing_by all_goals simp_all; try omega

section

variable {previous : Option TokenKind} {c : Char} {rest : List Char}

theorem divide_of_gap (h : gap c rest ≠ 0) : divide previous (c :: rest) =
    (divide previous (rest.drop (gap c rest - 1))).behind
      (.gap ((c :: rest).take (gap c rest))) := by
  rw [divide, if_pos h]

theorem divide_blank (h : isGap c = true) (rest : List Char) :
    divide previous (c :: rest) = (divide previous rest).behind (.gap [c]) := by
  have hwidth : gap c rest = 1 := if_pos h
  rw [divide_of_gap (by simp [hwidth]), hwidth]
  rfl

theorem divide_comment (rest : List Char) : divide previous ('#' :: rest) =
    (divide previous (rest.drop (rest.takeWhile (· ≠ '\n')).length)).behind
      (.gap ('#' :: rest.takeWhile (· ≠ '\n'))) := by
  have hwidth : gap '#' rest = (rest.takeWhile (· ≠ '\n')).length + 1 := Nat.add_comm _ _
  have htake : rest.take (rest.takeWhile (· ≠ '\n')).length = rest.takeWhile (· ≠ '\n') :=
    (List.prefix_iff_eq_take.mp (List.takeWhile_prefix _)).symm
  rw [divide_of_gap (by simp [hwidth]), hwidth, List.take_succ_cons, htake, Nat.add_sub_cancel]

theorem divide_escaped (rest : List Char) : divide previous ('\\' :: '\n' :: rest) =
    (divide previous rest).behind (.gap ['\\', '\n']) := by
  have hwidth : gap '\\' ('\n' :: rest) = 2 := rfl
  rw [divide_of_gap (by simp [hwidth]), hwidth]
  rfl

theorem divide_newline (rest : List Char) : divide previous ('\n' :: rest) =
    (divide (some .newline) rest).behind (.token .newline ['\n']) := by
  rw [divide]
  rfl

theorem divide_of_ok {l : Lexeme} (hgap : gap c rest = 0) (hline : c ≠ '\n')
    (h : leading previous c rest = .ok l) : divide previous (c :: rest) =
    (divide (some l.kind) (rest.drop (l.width - 1))).behind
      (.token l.kind ((c :: rest).take l.width)) := by
  rw [divide, if_neg (not_not.mpr hgap), if_neg hline, h]

theorem divide_of_error {e : Failure} (hgap : gap c rest = 0) (hline : c ≠ '\n')
    (h : leading previous c rest = .error e) : divide previous (c :: rest) = ⟨[], false⟩ := by
  rw [divide, if_neg (not_not.mpr hgap), if_neg hline, h]

end

/-- The stretches make up the source, up to where no token can be read. -/
theorem exists_of_divide (previous : Option TokenKind) (cs : List Char) :
    ∃ rest, cs = (divide previous cs).stretches.flatMap Stretch.chars ++ rest ∧
      ((divide previous cs).whole = true → rest = []) := by
  fun_induction divide previous cs with
  | case1 => exact ⟨[], rfl, fun _ => rfl⟩
  | case2 previous c rest skipped hgap ih =>
      obtain ⟨more, hmore, hwhole⟩ := ih
      obtain ⟨width, hwidth⟩ : ∃ width, skipped = width + 1 := ⟨skipped - 1, by omega⟩
      refine ⟨more, ?_, hwhole⟩
      rw [hwidth, Nat.add_sub_cancel] at hmore ⊢
      rw [Division.behind, List.flatMap_cons, Stretch.chars, List.take_succ_cons, List.append_assoc,
        ← hmore, List.cons_append, List.take_append_drop]
  | case3 previous rest skipped hgap ih =>
      obtain ⟨more, hmore, hwhole⟩ := ih
      exact ⟨more, congrArg (List.cons '\n') hmore, hwhole⟩
  | case4 previous c rest skipped hgap hline l hread ih =>
      obtain ⟨more, hmore, hwhole⟩ := ih
      refine ⟨more, ?_, hwhole⟩
      rw [drop_width hread] at hmore ⊢
      rw [Division.behind, List.flatMap_cons, Stretch.chars, List.append_assoc, ← hmore,
        List.take_append_drop]
  | case5 => exact ⟨_, rfl, fun h => absurd h Bool.false_ne_true⟩

def kinds? (cs : List Char) : Option (List TokenKind) :=
  (scan cs).toOption.map (List.map Token.kind)

theorem kinds?_scanFrom (done : List Token) (spaced : Bool) (p : Position) (cs : List Char) :
    (scanFrom done spaced p cs).toOption.map (List.map Token.kind) =
      (divide (lastKind done) cs).kinds?.map ((done.map Token.kind).reverse ++ ·) := by
  fun_induction scanFrom done spaced p cs with
  | case1 =>
      rw [divide]
      simp [Division.kinds?, Except.toOption]
  | case2 done spaced p c rest skipped hgap ih =>
      rw [ih, divide_of_gap hgap, Division.kinds?_gap]
  | case3 done spaced p rest skipped hgap ih =>
      rw [ih, divide_newline, Division.kinds?_token, Option.map_map]
      simp [lastKind, Function.comp_def]
  | case4 done spaced p c rest skipped hgap hline l hread ih =>
      have hread : leading (lastKind done) c rest = .ok l := hread
      rw [ih, divide_of_ok (not_not.mp hgap) hline hread, Division.kinds?_token, Option.map_map]
      simp [lastKind, Function.comp_def]
  | case5 done spaced p c rest skipped hgap hline e hread =>
      have hread : leading (lastKind done) c rest = .error e := hread
      rw [divide_of_error (not_not.mp hgap) hline hread]
      rfl

/-- Its tokens are those of its stretches. -/
theorem kinds?_eq (cs : List Char) : kinds? cs = (divide none cs).kinds? := by
  rw [kinds?, scan, kinds?_scanFrom]
  simp [lastKind]

/-! ## A source with carriage returns -/

theorem head?_withReturns_ne (cs : List Char) : (withReturns cs).head? ≠ some '\n' := by
  cases cs with
  | nil => simp
  | cons c cs =>
      by_cases hline : c = '\n'
      · subst hline
        exact (by decide : some '\r' ≠ some '\n')
      · rw [withReturns_cons hline]
        simpa using hline

theorem divide_return {previous : Option TokenKind} (cs : List Char) :
    divide previous ('\r' :: cs) = (divide previous cs).behind (.gap ['\r']) :=
  divide_of_gap (by simp [gap, isGap])

theorem gap_eq_zero_iff {c : Char} {rest : List Char} : gap c rest = 0 ↔
    isGap c = false ∧ c ≠ '#' ∧ ¬ (c = '\\' ∧ rest.head? = some '\n') := by
  unfold gap
  by_cases hblank : isGap c = true
  · simp [hblank]
  · by_cases hhash : c = '#'
    · subst hhash
      simp [isGap]
    · simp [hblank, hhash]

theorem gap_withReturns {c : Char} {rest : List Char} (h : gap c rest = 0) :
    gap c (withReturns rest) = 0 := by
  obtain ⟨hblank, hhash, -⟩ := gap_eq_zero_iff.mp h
  exact gap_eq_zero_iff.mpr ⟨hblank, hhash, fun hline => head?_withReturns_ne rest hline.2⟩

/-- No token starts with a backslash. -/
theorem leading_backslash (previous : Option TokenKind) (rest : List Char) :
    leading previous '\\' rest = .error ⟨.badCharacter '\\', 0⟩ := by
  have hdigit : '\\'.isDigit = false := by decide
  have hstart : startsWord '\\' = false := by decide
  have hsymbol : Symbol.leading? ('\\' :: rest) = none := by
    refine List.find?_eq_none.mpr fun s _ => ?_
    cases s <;> simp [Symbol.text, List.isPrefixOf]
  simp [leading, hdigit, hstart, hsymbol]

/-- A comment goes on up to the carriage return, and the line end is still a token. -/
theorem kinds?_divide_behind_line (previous : Option TokenKind) (cs : List Char) :
    (divide previous
        ((withReturns cs).drop ((withReturns cs).takeWhile (· ≠ '\n')).length)).kinds? =
      (divide previous (withReturns (cs.drop (cs.takeWhile (· ≠ '\n')).length))).kinds? := by
  induction cs with
  | nil => rfl
  | cons c cs ih =>
      by_cases hline : c = '\n'
      · subst hline
        have hdrop : (withReturns ('\n' :: cs)).drop
            ((withReturns ('\n' :: cs)).takeWhile (· ≠ '\n')).length = '\n' :: withReturns cs := rfl
        rw [hdrop, ← Division.kinds?_gap, ← divide_return]
        rfl
      · rw [withReturns_cons hline]
        simpa [List.takeWhile_cons, hline] using ih

theorem divide_withReturns_token {previous : Option TokenKind} {c : Char} {rest : List Char}
    (hline : c ≠ '\n') (hgap : gap c rest = 0)
    (inLine : (divide previous (c :: rest)).LiteralsInLine)
    (ih : ∀ kind n, (divide kind (rest.drop n)).LiteralsInLine →
      (divide kind (withReturns (rest.drop n))).kinds? =
        (divide kind (rest.drop n)).unescapedKinds?) :
    (divide previous (withReturns (c :: rest))).kinds? =
      (divide previous (c :: rest)).unescapedKinds? := by
  have hgap' := gap_withReturns hgap
  have hsame : SameReading (c :: rest) (leading previous c rest)
      (leading previous c (withReturns rest)) := by
    refine sameReading_leading hline fun l hread => inLine (.token _ _) ?_
    rw [divide_of_ok hgap hline hread]
    exact List.mem_cons_self
  rw [withReturns_cons hline]
  generalize hread : leading previous c rest = reading at hsame
  generalize hread' : leading previous c (withReturns rest) = reading' at hsame
  cases hsame with
  | fails =>
      rw [divide_of_error hgap hline hread, divide_of_error hgap' hline hread']
      rfl
  | @reads l l' same leaves =>
      rw [divide_of_ok hgap hline hread] at inLine ⊢
      rw [divide_of_ok hgap' hline hread', Division.kinds?_token, Division.unescapedKinds?_token,
        drop_width hread', ← withReturns_cons hline, leaves, ← drop_width hread, same]
      exact congrArg _ (ih _ _ inLine.of_behind)

/-- **Stretch by stretch**, a source and the same source with carriage returns have the same tokens,
up to an escaped line end, which is one no more. -/
theorem kinds?_divide_withReturns {previous : Option TokenKind} {cs : List Char}
    (inLine : (divide previous cs).LiteralsInLine) :
    (divide previous (withReturns cs)).kinds? = (divide previous cs).unescapedKinds? := by
  induction hlength : cs.length using Nat.strong_induction_on generalizing previous cs with
  | h length ih =>
      subst hlength
      cases cs with
      | nil => rw [withReturns_nil, divide]; rfl
      | cons c rest =>
          have hlater (kind : Option TokenKind) (n : Nat)
              (h : (divide kind (rest.drop n)).LiteralsInLine) :
              (divide kind (withReturns (rest.drop n))).kinds? =
                (divide kind (rest.drop n)).unescapedKinds? := by
            refine ih _ ?_ h rfl
            rw [List.length_drop, List.length_cons]
            omega
          by_cases hline : c = '\n'
          -- The carriage return is a blank in front of the line end.
          · subst hline
            rw [divide_newline] at inLine ⊢
            rw [withReturns_newline, divide_return, Division.kinds?_gap, divide_newline,
              Division.kinds?_token, Division.unescapedKinds?_token]
            exact congrArg _ (hlater _ 0 inLine.of_behind)
          by_cases hblank : isGap c = true
          · rw [divide_blank hblank] at inLine ⊢
            rw [withReturns_cons hline, divide_blank hblank, Division.kinds?_gap,
              Division.unescapedKinds?_gap _ (by simp [Stretch.escapesLineEnd])]
            exact hlater _ 0 inLine.of_behind
          by_cases hhash : c = '#'
          · subst hhash
            rw [divide_comment] at inLine ⊢
            rw [withReturns_cons hline, divide_comment, Division.kinds?_gap,
              kinds?_divide_behind_line,
              Division.unescapedKinds?_gap _ (by simp [Stretch.escapesLineEnd])]
            exact hlater _ _ inLine.of_behind
          by_cases hescaped : c = '\\' ∧ rest.head? = some '\n'
          -- The backslash is in front of a carriage return now, and no token starts with one.
          · obtain ⟨rfl, hhead⟩ := hescaped
            obtain ⟨next, rfl⟩ := List.head?_eq_some_iff.mp hhead
            rw [withReturns_cons hline, withReturns_newline, divide_escaped,
              divide_of_error rfl hline (leading_backslash _ _)]
            rfl
          · refine divide_withReturns_token hline ?_ inLine hlater
            exact gap_eq_zero_iff.mpr ⟨by simpa using hblank, hhash, hescaped⟩

/-- **Line ends with carriage returns.** With a carriage return in front of every line end, a
source can be read just as before, and its tokens are the same, if no line end of it is escaped. If
one is, the source can no longer be read. -/
theorem kinds_withReturns {cs : List Char} (inLine : (divide none cs).LiteralsInLine) :
    kinds? (withReturns cs) = if (divide none cs).escapesLineEnd then none else kinds? cs := by
  rw [kinds?_eq, kinds?_eq, kinds?_divide_withReturns inLine]
  rfl

/-- A comment, and a text over several lines. -/
theorem kinds_withReturns_lines :
    (divide none "put 'a' # b\n begin\n  c\n end".toList).LiteralsInLine ∧
      kinds? "put 'a' # b\r\n begin\r\n  c\r\n end".toList =
        some [.word "put", .text "a" false, .newline, .text " c" true, .endOfInput] := by
  have hdivide : divide none "put 'a' # b\n begin\n  c\n end".toList =
      ⟨[.token (.word "put") "put".toList, .gap [' '], .token (.text "a" false) "'a'".toList,
        .gap [' '], .gap "# b".toList, .token .newline ['\n'], .gap [' '],
        .token (.text " c" true) "begin\n  c\n end".toList], true⟩ := by
    cbv
  have inLine : (divide none "put 'a' # b\n begin\n  c\n end".toList).LiteralsInLine := by
    rw [hdivide]
    decide
  have hkinds := kinds_withReturns inLine
  rw [kinds?_eq "put 'a' # b\n begin\n  c\n end".toList, hdivide] at hkinds
  exact ⟨inLine, hkinds⟩

/-- A line end behind a backslash is skipped, but not with a carriage return in front of it. -/
theorem escaped_line_end_with_return :
    (divide none "put \\\n1".toList).LiteralsInLine ∧
      kinds? "put \\\n1".toList = some [.word "put", .int 1, .endOfInput] ∧
      kinds? "put \\\r\n1".toList = none := by
  have hdivide : divide none "put \\\n1".toList =
      ⟨[.token (.word "put") "put".toList, .gap [' '], .gap ['\\', '\n'],
        .token (.int 1) ['1']], true⟩ := by
    cbv
  refine ⟨?_, ?_, by cbv⟩
  · rw [hdivide]
    decide
  · rw [kinds?_eq, hdivide]
    rfl

end Token

end TabPilot
