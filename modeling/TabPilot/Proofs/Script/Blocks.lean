import TabPilot.Proofs.Script.Headers

set_option autoImplicit false

/-! # Reading statements and scripts back

A statement is read back in front of its line end, provided that the next line does not go on
with it; the first piece of a statement never does. The braces of a body are followed by a line
end and by a statement, whose second token is no colon, so they do not look like options. The
main statement is `Grammar.recovers_script`.
-/

namespace TabPilot.Grammar

open Piece

/-! ## The start of a line -/

def mayStartStatement : TokenKind → Bool
  | .variable _ | .symbol .openParen => true
  | .word w => Decimal.asciiLower w != "on" && Decimal.asciiLower w != "else"
  | _ => false

/-- The words of the language, none of which has capitals. -/
def keywords : List String :=
  ["if", "else", "loop", "unset", "break", "continue", "on", "isolated", "_"]

theorem asciiLower_keyword : ∀ w ∈ keywords, Decimal.asciiLower w = w := by decide +kernel

theorem mayStartStatement_keyword : ∀ w ∈ keywords, w ≠ "on" → w ≠ "else" →
    mayStartStatement (.word w) = true := by
  intro w hw hon helse
  simp [mayStartStatement, asciiLower_keyword w hw, hon, helse]

theorem mayStartStatement_of_startsTarget {ts : List Token} (h : startsTarget ts = true) :
    mayStartStatement (kind ts) = true := by
  unfold startsTarget at h
  split at h
  · next hk => rw [hk]; rfl
  · next w hk =>
      obtain rfl : w = "_" := of_decide_eq_true h
      rw [hk]
      exact mayStartStatement_keyword "_" (by decide) (by decide) (by decide)
  · cases h

theorem mayStartStatement_of_startsCommand {ts : List Token} (h : startsCommand ts = true) :
    mayStartStatement (kind ts) = true := by
  have hon := not_atWord_of_startsCommand (by decide : "on" ∈ reserved) h
  have helse := not_atWord_of_startsCommand (by decide : "else" ∈ reserved) h
  unfold startsCommand at h
  unfold atWord at hon helse
  split at h
  · next w hk =>
      rw [hk] at hon helse ⊢
      simp [mayStartStatement, of_decide_eq_false hon, of_decide_eq_false helse]
  · cases h

/-- A statement starts with a token that may start one. -/
theorem mayStartStatement_pieces {s : Statement} (wf : s.WellFormed)
    (place : Nat → Position × Bool) (more : List Piece) (ts : List Token) :
    mayStartStatement (kind (tokens place (s.pieces ++ more) ++ ts)) = true := by
  cases s with
  | assign a =>
      rw [Statement.pieces, Assignment.pieces, List.append_assoc, tokens_append, List.append_assoc]
      exact mayStartStatement_of_startsTarget (startsTarget_commas wf.1.1 place _)
  | expression e p => rfl
  | unset taken p => exact mayStartStatement_keyword "unset" (by decide) (by decide) (by decide)
  | choice first others otherwise p =>
      exact mayStartStatement_keyword "if" (by decide) (by decide) (by decide)
  | loop mode body p => exact mayStartStatement_keyword "loop" (by decide) (by decide) (by decide)
  | jump k levels p =>
      cases k
      · exact mayStartStatement_keyword "break" (by decide) (by decide) (by decide)
      · exact mayStartStatement_keyword "continue" (by decide) (by decide) (by decide)
  | commands cs p =>
      obtain ⟨hne, hcs⟩ := wf
      cases cs with
      | nil => exact absurd rfl hne
      | cons c cs =>
          have hname := (hcs c List.mem_cons_self).1
          exact mayStartStatement_of_startsCommand (startsCommand_commands hname cs place more ts)

/-- Tokens at the start of a line: they neither separate statements nor go on with a choice. -/
structure StartsLine (ts : List Token) : Prop where
  not_separator : isSeparator (kind ts) = false
  not_else : atWord "else" ts = false

theorem startsLine_of_mayStartStatement {ts : List Token} (h : mayStartStatement (kind ts) = true) :
    StartsLine ts := by
  unfold mayStartStatement at h
  split at h
  · next hk => exact ⟨by rw [hk]; rfl, by rw [atWord, hk]⟩
  · next hk => exact ⟨by rw [hk]; rfl, by rw [atWord, hk]⟩
  · next w hk =>
      refine ⟨by rw [hk]; rfl, ?_⟩
      rw [atWord, hk]
      simp only [Bool.and_eq_true, bne_iff_ne] at h
      exact decide_eq_false h.2
  · cases h

/-- What comes after a statement: a line end, and a line that does not go on with it. -/
def EndsLine (ts : List Token) : Prop := ∃ p spaced rest, ts = ⟨.newline, p, spaced⟩ :: rest ∧
  rest ≠ [] ∧ StartsLine rest

theorem EndsLine.kind_eq {ts : List Token} (h : EndsLine ts) : kind ts = .newline := by
  obtain ⟨p, spaced, rest, rfl, -⟩ := h
  rfl

theorem EndsLine.ne_nil {ts : List Token} (h : EndsLine ts) : ts ≠ [] := by
  obtain ⟨p, spaced, rest, rfl, -⟩ := h
  exact List.cons_ne_nil _ _

theorem StartsLine.skipNewlines_eq {ts : List Token} (h : StartsLine ts) :
    skipNewlines ts = ts := by
  refine skipNewlines_eq_self ?_
  have hseparator := h.not_separator
  simp only [isSeparator, Bool.or_eq_false_iff] at hseparator
  exact hseparator.1

theorem StartsLine.skipSeparators_eq {ts : List Token} (h : StartsLine ts) :
    skipSeparators ts = ts := by
  cases ts with
  | nil => rfl
  | cons t ts =>
      have ht : isSeparator t.kind = false := h.not_separator
      simp [skipSeparators, ht]

/-! ## Bodies -/

/-- The second piece of a statement is no colon. -/
theorem not_colon_second {y : Piece} {ys : List Piece} (h : Phrase (y :: ys))
    (hy : mayStartStatement y.kind = true) : ∀ z ∈ ys.head?, z.kind.isSymbol .colon = false := by
  intro z hz
  cases ys with
  | nil => cases hz
  | cons z' zs =>
      obtain rfl : z' = z := Option.some.inj hz
      obtain ⟨-, -, -, joins, -⟩ := h [] fitAnywhere_nil (symbol .comma) rfl
      cases hcolon : z'.kind.isSymbol .colon with
      | false => rfl
      | true =>
          have hz' : z' = symbol .colon := by
            cases z' with
            | token k => exact congrArg Piece.token (eq_symbol_of_isSymbol hcolon)
            | newline | dot | position | index | sign => cases hcolon
          -- A colon follows the name of a member, and no statement starts with a text.
          obtain ⟨content, rfl⟩ := joins.colon hz'
          cases hy

theorem startsLine_lines {body : List Statement} (wf : statementsWellFormed body)
    (place : Nat → Position × Bool) (ts : List Token) :
    StartsLine (tokens place (linePieces body ++ [symbol .closeBrace]) ++ ts) := by
  cases body with
  | nil => exact ⟨rfl, rfl⟩
  | cons s rest =>
      rw [linePieces, List.append_assoc]
      exact startsLine_of_mayStartStatement (mayStartStatement_pieces wf.1 place _ ts)

/-- The lines of a body do not look like the members of an object. -/
theorem not_member_lines {body : List Statement} (wf : statementsWellFormed body)
    (plain : statementsPlain body) (place : Nat → Position × Bool) (ts : List Token) :
    ((memberName? (kind (tokens place (linePieces body ++ [symbol .closeBrace]) ++ ts))).isSome &&
      at? .colon (advance (tokens place (linePieces body ++ [symbol .closeBrace]) ++ ts))) =
        false := by
  cases body with
  | nil => rfl
  | cons s rest =>
      have hphrase : Phrase (linePieces (s :: rest)) := phrase_linePieces _ wf plain
      have hstart := mayStartStatement_pieces wf.1 place
        (.newline :: linePieces rest ++ [symbol .closeBrace]) ts
      have hpieces : linePieces (s :: rest) ++ [symbol .closeBrace] =
          s.pieces ++ (.newline :: linePieces rest ++ [symbol .closeBrace]) := by
        rw [linePieces, List.append_assoc]
      rw [← hpieces] at hstart
      -- What the look-ahead sees are the first two pieces, whatever statement they come from.
      obtain ⟨y, ys, hys⟩ : ∃ y ys, linePieces (s :: rest) = y :: ys := by
        refine List.exists_cons_of_ne_nil ?_
        simp [linePieces]
      rw [hys] at hphrase hstart ⊢
      have hcolon := not_colon_second hphrase hstart
      have hadvance : at? .colon (advance (tokens place (y :: ys ++ [symbol .closeBrace]) ++ ts)) =
          false := by
        cases ys with
        | nil => rfl
        | cons z zs => exact hcolon z rfl
      rw [hadvance, Bool.and_false]

/-- The braces of a body do not look like options. -/
theorem atBody_braces {body : List Statement} (wf : statementsWellFormed body)
    (plain : statementsPlain body) (place : Nat → Position × Bool) (ts : List Token) :
    AtBody (tokens place (braces (linePieces body)) ++ ts) := by
  refine ⟨rfl, ?_⟩
  have hskip : skipNewlines (advance (tokens place (braces (linePieces body)) ++ ts)) =
      tokens (fun n => place (n + 1 + 1)) (linePieces body ++ [symbol .closeBrace]) ++ ts :=
    (startsLine_lines wf (fun n => place (n + 1 + 1)) ts).skipNewlines_eq
  rw [startsOptions, hskip, not_member_lines wf plain]
  rfl

theorem recovers_body {fuel : Nat} {body : List Statement} (wf : statementsWellFormed body)
    (h : Recovers statementsUnplaced (· ≠ []) (statements fuel)
      (linePieces body ++ [symbol .closeBrace]) body) :
    Recovers statementsUnplaced (· ≠ []) (Grammar.body (fuel + 1)) (braces (linePieces body))
      body := by
  intro place ts hts
  obtain ⟨body', hread, hsame⟩ := h (fun n => place (n + 1 + 1)) ts hts
  refine ⟨body', ?_, hsame⟩
  show statements fuel (skipSeparators (tokens _ (linePieces body ++ [symbol .closeBrace]) ++ ts)) =
    _
  rw [(startsLine_lines wf _ ts).skipSeparators_eq, hread]

/-! ## Statements -/

/-- What starts with none of the words of statements is a command or a simple statement. -/
theorem statement_of_no_keyword {fuel : Nat} {ts : List Token}
    (h : ∀ w ∈ ["if", "loop", "unset", "break", "continue"], atWord w ts = false) :
    statement (fuel + 1) ts =
      if startsCommand ts then
        (commandSequence fuel ts).map fun (cs, rest) => (.commands cs (here ts), rest)
      else simpleStatement fuel ts := by
  unfold atWord at h
  rw [statement]
  -- The five words are the cases of the grammar; everything else falls through to its last one.
  split
  · next w hk =>
      simp only [hk, decide_eq_false_iff_not] at h
      split
      · next hw => exact absurd hw (h _ (by simp))
      · next hw => exact absurd hw (h _ (by simp))
      · next hw => exact absurd hw (h _ (by simp))
      · next hw => exact absurd hw (h _ (by simp))
      · next hw => exact absurd hw (h _ (by simp))
      · rfl
  · next hk =>
      have hstart : startsCommand ts = false := by
        unfold startsCommand
        split
        · next w hw => exact absurd hw (hk w)
        · rfl
      rw [hstart]
      rfl

theorem recovers_assign {a : Assignment} (wf : a.WellFormed) (plain : a.Plain) (fuel : Nat)
    (hfuel : 4 * a.pieces.length ≤ fuel) :
    Recovers Statement.unplaced EndsLine (statement (fuel + 1)) a.pieces (.assign a) := by
  intro place ts hts
  have hstart : startsTarget (tokens place a.pieces ++ ts) = true := by
    rw [Assignment.pieces, tokens_append, List.append_assoc]
    exact startsTarget_commas wf.1.1 place _
  have hcommand : startsCommand (tokens place a.pieces ++ ts) = false := by
    cases h : startsCommand (tokens place a.pieces ++ ts) with
    | false => rfl
    | true =>
        rw [not_startsTarget_of_startsCommand h] at hstart
        cases hstart
  obtain ⟨a', hread, hsame⟩ := recovers_assignment wf plain fuel hfuel place hts.ne_nil
    (by rw [hts.kind_eq]; rfl)
  refine ⟨.assign a', ?_, by rw [Statement.unplaced, Statement.unplaced, hsame]⟩
  rw [statement_of_no_keyword, hcommand]
  · simp only [Bool.false_eq_true, if_false, simpleStatement, hread]
  · intro w hw
    refine not_atWord_of_startsTarget ?_ hstart
    rintro rfl
    exact absurd hw (by decide)

theorem recovers_expression {e : Expr} {p : Position} (wf : e.WellFormed) (plain : e.Plain)
    (fuel : Nat) (hfuel : 4 * (parens e.pieces).length ≤ fuel) :
    Recovers Statement.unplaced EndsLine (statement (fuel + 1)) (parens e.pieces)
      (.expression e p) := by
  intro place ts hts
  have hread := ((readable_parens (e.readable wf plain)).reads fuel hfuel).apply place hts.ne_nil
    (by rw [hts.kind_eq]; rfl)
  have hcommand : startsCommand (tokens place (parens e.pieces) ++ ts) = false := rfl
  refine ⟨.expression e (here (tokens place (parens e.pieces) ++ ts)), ?_, rfl⟩
  rw [statement_of_no_keyword (fun _ _ => rfl), hcommand]
  simp only [Bool.false_eq_true, if_false, simpleStatement,
    assignment?_eq_none (rfl : startsTarget (tokens place (parens e.pieces) ++ ts) = false), hread]
  rfl

theorem recovers_commands {cs : List Command} {p : Position} (hne : cs ≠ [])
    (wf : ∀ c ∈ cs, c.WellFormed) (plain : ∀ c ∈ cs, c.Plain) (fuel : Nat)
    (hfuel : 4 * (joined (symbol .semicolon) (cs.map Command.pieces)).length + 1 ≤ fuel) :
    Recovers Statement.unplaced EndsLine (statement (fuel + 1))
      (joined (symbol .semicolon) (cs.map Command.pieces)) (.commands cs p) := by
  intro place ts hts
  obtain ⟨cs', hread, hsame⟩ :=
    recovers_commandSequence hne wf plain fuel hfuel place ts hts.kind_eq
  have hstart : startsCommand (tokens place (joined (symbol .semicolon)
      (cs.map Command.pieces)) ++ ts) = true := by
    obtain ⟨c, cs, rfl⟩ := List.exists_cons_of_ne_nil hne
    simpa using startsCommand_commands (wf c List.mem_cons_self).1 cs place [] ts
  refine ⟨.commands cs' (here (tokens place (joined (symbol .semicolon)
    (cs.map Command.pieces)) ++ ts)), ?_, by rw [Statement.unplaced, Statement.unplaced, hsame]⟩
  rw [statement_of_no_keyword, hstart]
  · simp only [if_true, hread]
    rfl
  · intro w hw
    refine not_atWord_of_startsCommand ?_ hstart
    revert w
    decide

theorem recovers_unset {taken : List Variable} {p : Position} (hne : taken ≠ [])
    (wf : ∀ v ∈ taken, v.WellFormed) (plain : ∀ v ∈ taken, v.Plain) (fuel : Nat)
    (hfuel : 4 * (commas (taken.map Variable.pieces)).length + 1 ≤ fuel) :
    Recovers Statement.unplaced EndsLine (statement (fuel + 1))
      (word "unset" :: commas (taken.map Variable.pieces)) (.unset taken p) := by
  intro place ts hts
  have hread := (reads_commas (fun v hv => reads_reference (wf v hv) (plain v hv)) hne fuel
    hfuel).apply (fun n => place (n + 1)) hts.ne_nil (by rw [hts.kind_eq]; rfl)
  refine ⟨.unset taken (place 0).1, ?_, rfl⟩
  show statement (fuel + 1) (⟨.word "unset", (place 0).1, (place 0).2⟩ ::
    (tokens (fun n => place (n + 1)) (commas (taken.map Variable.pieces)) ++ ts)) = _
  simp only [statement, kind, asciiLower_keyword "unset" (by decide)]
  rw [advance_cons (by simp [hts.ne_nil]), hread]
  rfl

theorem recovers_jump {k : JumpKind} {levels : Nat} {p : Position} (hlevels : 1 ≤ levels)
    (fuel : Nat) : Recovers Statement.unplaced EndsLine (statement (fuel + 1))
      [word k.keyword, .token (.int levels)] (.jump k levels p) := by
  intro place ts hts
  have hread : Grammar.levels (⟨.int levels, (place 1).1, (place 1).2⟩ :: ts) =
      .ok (levels, ts) := by
    have hlow : ¬ (levels : Int) < 1 := by omega
    simp only [Grammar.levels, kind, hlow, if_false]
    rw [advance_cons hts.ne_nil]
    rfl
  refine ⟨.jump k levels (place 0).1, ?_, rfl⟩
  cases k with
  | «break» =>
      show statement (fuel + 1) (⟨.word "break", (place 0).1, (place 0).2⟩ ::
        ⟨.int levels, (place 1).1, (place 1).2⟩ :: ts) = _
      simp only [statement, kind, asciiLower_keyword "break" (by decide), advance, hread]
      rfl
  | «continue» =>
      show statement (fuel + 1) (⟨.word "continue", (place 0).1, (place 0).2⟩ ::
        ⟨.int levels, (place 1).1, (place 1).2⟩ :: ts) = _
      simp only [statement, kind, asciiLower_keyword "continue" (by decide), advance, hread]
      rfl

/-! ## Choices and loops -/

theorem recovers_loop {mode : LoopMode} {body : List Statement} {p : Position} {fuel : Nat}
    (wf : mode.WellFormed) (plain : mode.Plain) (hfuel : 4 * mode.pieces.length + 1 ≤ fuel)
    (hbody : Recovers statementsUnplaced (· ≠ []) (Grammar.body fuel) (braces (linePieces body))
      body)
    (atBody : ∀ place ts, AtBody (tokens place (braces (linePieces body)) ++ ts)) :
    Recovers Statement.unplaced EndsLine (statement (fuel + 1))
      (word "loop" :: (mode.pieces ++ braces (linePieces body))) (.loop mode body p) := by
  intro place ts hts
  obtain ⟨mode', hmode, hsame⟩ := recovers_loopMode wf plain fuel hfuel (fun n => place (n + 1)) _
    (atBody (fun n => place (n + mode.pieces.length + 1)) ts)
  obtain ⟨body', hread, hsames⟩ := hbody (fun n => place (n + mode.pieces.length + 1)) ts hts.ne_nil
  refine ⟨.loop mode' body' (place 0).1, ?_, by
    rw [Statement.unplaced, Statement.unplaced, hsame, hsames]⟩
  show statement (fuel + 1) (⟨.word "loop", (place 0).1, (place 0).2⟩ ::
    (tokens (fun n => place (n + 1)) (mode.pieces ++ braces (linePieces body)) ++ ts)) = _
  simp only [statement, kind, asciiLower_keyword "loop" (by decide)]
  rw [advance_cons (by simp [hts.ne_nil]), tokens_append, List.append_assoc, hmode]
  simp only []
  rw [hread]
  rfl

theorem recovers_branch {test : Condition} {body : List Statement} {fuel : Nat}
    (wf : test.WellFormed) (plain : test.Plain) (hfuel : 4 * test.pieces.length + 1 ≤ fuel)
    (hbody : Recovers statementsUnplaced (· ≠ []) (Grammar.body fuel) (braces (linePieces body))
      body)
    (atBody : ∀ place ts, AtBody (tokens place (braces (linePieces body)) ++ ts)) :
    Recovers Branch.unplaced (· ≠ []) (branch (fuel + 1)) (test.pieces ++ braces (linePieces body))
      (.mk test body) := by
  intro place ts hts
  obtain ⟨test', htest, hsame⟩ := recovers_condition wf plain fuel hfuel place _
    (.inl (atBody (fun n => place (n + test.pieces.length)) ts))
  obtain ⟨body', hread, hsames⟩ := hbody (fun n => place (n + test.pieces.length)) ts hts
  refine ⟨.mk test' body', ?_, by rw [Branch.unplaced, Branch.unplaced, hsame, hsames]⟩
  rw [tokens_append, List.append_assoc, branch, htest]
  simp only []
  rw [hread]
  rfl

/-- The branches after the first one and the last resort of a choice, without positions. -/
def alternativesUnplaced (x : List Branch × Option (List Statement)) :
    List Branch × Option (List Statement) := (branchesUnplaced x.1, otherwiseUnplaced x.2)

theorem recovers_no_alternatives (fuel : Nat) :
    Recovers alternativesUnplaced EndsLine (alternatives (fuel + 1)) [] ([], none) := by
  rintro place ts ⟨p, spaced, rest, rfl, -, hrest⟩
  -- A choice looks for `else` behind line ends, so the next line must not start with it.
  have helse : atWord "else" (skipNewlines (⟨.newline, p, spaced⟩ :: rest)) = false := by
    show atWord "else" (skipNewlines rest) = false
    rw [hrest.skipNewlines_eq, hrest.not_else]
  refine ⟨([], none), ?_, rfl⟩
  show alternatives (fuel + 1) (⟨.newline, p, spaced⟩ :: rest) = _
  rw [alternatives]
  simp only [helse, Bool.not_false, if_true]

theorem recovers_otherwise {body : List Statement} {fuel : Nat}
    (hbody : Recovers statementsUnplaced (· ≠ []) (Grammar.body fuel) (braces (linePieces body))
      body) :
    Recovers alternativesUnplaced EndsLine (alternatives (fuel + 1))
      (word "else" :: braces (linePieces body)) ([], some body) := by
  intro place ts hts
  obtain ⟨body', hread, hsame⟩ := hbody (fun n => place (n + 1)) ts hts.ne_nil
  refine ⟨([], some body'), ?_, by
    simp only [alternativesUnplaced, otherwiseUnplaced, hsame]⟩
  have helse : atWord "else" (tokens place (word "else" :: braces (linePieces body)) ++ ts) =
      true := decide_eq_true (asciiLower_keyword "else" (by decide))
  have hskip : skipNewlines (tokens place (word "else" :: braces (linePieces body)) ++ ts) =
      tokens place (word "else" :: braces (linePieces body)) ++ ts := skipNewlines_eq_self rfl
  have hadvance : advance (tokens place (word "else" :: braces (linePieces body)) ++ ts) =
      tokens (fun n => place (n + 1)) (braces (linePieces body)) ++ ts := rfl
  have hif : atWord "if" (tokens (fun n => place (n + 1)) (braces (linePieces body)) ++ ts) =
      false := rfl
  rw [alternatives]
  simp only [hskip, helse, hadvance, hif, hread, Bool.not_true, Bool.false_eq_true, if_false]
  rfl

theorem recovers_else_if {b : Branch} {others : List Branch} {otherwise : Option (List Statement)}
    {ps : List Piece} {fuel : Nat}
    (hb : Recovers Branch.unplaced (· ≠ []) (branch fuel) b.pieces b)
    (h : Recovers alternativesUnplaced EndsLine (alternatives fuel) ps (others, otherwise)) :
    Recovers alternativesUnplaced EndsLine (alternatives (fuel + 1))
      (word "else" :: word "if" :: (b.pieces ++ ps)) (b :: others, otherwise) := by
  intro place ts hts
  obtain ⟨⟨others', otherwise'⟩, hread, hsame⟩ :=
    h (fun n => place (n + b.pieces.length + 1 + 1)) ts hts
  obtain ⟨b', hbranch, hbranchSame⟩ := hb (fun n => place (n + 1 + 1))
    (tokens (fun n => place (n + b.pieces.length + 1 + 1)) ps ++ ts) (by simp [hts.ne_nil])
  refine ⟨(b' :: others', otherwise'), ?_, ?_⟩
  · have helse : atWord "else" (tokens place (word "else" :: word "if" :: (b.pieces ++ ps)) ++ ts) =
        true := decide_eq_true (asciiLower_keyword "else" (by decide))
    have hskip : skipNewlines (tokens place (word "else" :: word "if" :: (b.pieces ++ ps)) ++ ts) =
        tokens place (word "else" :: word "if" :: (b.pieces ++ ps)) ++ ts :=
      skipNewlines_eq_self rfl
    have hadvance : advance (tokens place (word "else" :: word "if" :: (b.pieces ++ ps)) ++ ts) =
        tokens (fun n => place (n + 1)) (word "if" :: (b.pieces ++ ps)) ++ ts := rfl
    have hif : atWord "if" (tokens (fun n => place (n + 1)) (word "if" :: (b.pieces ++ ps)) ++ ts) =
        true := decide_eq_true (asciiLower_keyword "if" (by decide))
    have hadvanceIf : advance (tokens (fun n => place (n + 1)) (word "if" :: (b.pieces ++ ps)) ++
        ts) = tokens (fun n => place (n + 1 + 1)) (b.pieces ++ ps) ++ ts :=
      advance_cons (by simp [hts.ne_nil])
    rw [alternatives]
    simp only [hskip, helse, hadvance, hif, hadvanceIf, Bool.not_true, Bool.false_eq_true, if_false,
      if_true]
    rw [tokens_append, List.append_assoc, hbranch]
    simp only []
    rw [hread]
    rfl
  · obtain ⟨hothers, hotherwise⟩ := Prod.mk.inj hsame
    simp only [alternativesUnplaced, branchesUnplaced, hbranchSame, hothers, hotherwise]

theorem recovers_choice {first : Branch} {others : List Branch}
    {otherwise : Option (List Statement)} {p : Position} {ps : List Piece} {fuel : Nat}
    (hfirst : Recovers Branch.unplaced (· ≠ []) (branch fuel) first.pieces first)
    (h : Recovers alternativesUnplaced EndsLine (alternatives fuel) ps (others, otherwise)) :
    Recovers Statement.unplaced EndsLine (statement (fuel + 1)) (word "if" :: (first.pieces ++ ps))
      (.choice first others otherwise p) := by
  intro place ts hts
  obtain ⟨⟨others', otherwise'⟩, hread, hsame⟩ :=
    h (fun n => place (n + first.pieces.length + 1)) ts hts
  obtain ⟨first', hbranch, hbranchSame⟩ := hfirst (fun n => place (n + 1))
    (tokens (fun n => place (n + first.pieces.length + 1)) ps ++ ts) (by simp [hts.ne_nil])
  refine ⟨.choice first' others' otherwise' (place 0).1, ?_, ?_⟩
  · show statement (fuel + 1) (⟨.word "if", (place 0).1, (place 0).2⟩ ::
      (tokens (fun n => place (n + 1)) (first.pieces ++ ps) ++ ts)) = _
    simp only [statement, kind, asciiLower_keyword "if" (by decide)]
    rw [advance_cons (by simp [hts.ne_nil]), tokens_append, List.append_assoc, hbranch]
    simp only []
    rw [hread]
    rfl
  · obtain ⟨hothers, hotherwise⟩ := Prod.mk.inj hsame
    simp only [Statement.unplaced, hbranchSame, hothers, hotherwise]

/-! ## Lines -/

theorem tokens_append_newline (place : Nat → Position × Bool) (ps qs : List Piece)
    (rest : List Token) :
    tokens place (ps ++ .newline :: qs) ++ rest =
      tokens place ps ++ ⟨.newline, (place ps.length).1, (place ps.length).2⟩ ::
        (tokens (fun n => place (n + (ps.length + 1))) qs ++ rest) := by
  simp [tokens, tokens_append, Piece.kind, Nat.add_right_comm, Nat.add_assoc]

theorem recovers_no_lines (fuel : Nat) :
    Recovers statementsUnplaced (· ≠ []) (statements (fuel + 1)) [symbol .closeBrace] [] := by
  intro place ts hts
  refine ⟨[], ?_, rfl⟩
  show Except.ok ([], advance (_ :: ts)) = _
  rw [advance_cons hts]

/-- The start of a statement is no closing brace, no end of input and no handler. -/
theorem statement_goes_on {ts : List Token} (h : mayStartStatement (kind ts) = true) :
    at? .closeBrace ts = false ∧ (kind ts).isEnd = false ∧ atWord "on" ts = false := by
  rw [at?, atWord]
  unfold mayStartStatement at h
  split at h
  · next hk => rw [hk]; exact ⟨rfl, rfl, rfl⟩
  · next hk => rw [hk]; exact ⟨rfl, rfl, rfl⟩
  · next w hk =>
      simp only [Bool.and_eq_true, bne_iff_ne] at h
      rw [hk]
      exact ⟨rfl, rfl, decide_eq_false h.1⟩
  · cases h

theorem recovers_line {s : Statement} {rest : List Statement} {fuel : Nat} (wf : s.WellFormed)
    (wfRest : statementsWellFormed rest)
    (hs : Recovers Statement.unplaced EndsLine (statement fuel) s.pieces s)
    (h : Recovers statementsUnplaced (· ≠ []) (statements fuel)
      (linePieces rest ++ [symbol .closeBrace]) rest) :
    Recovers statementsUnplaced (· ≠ []) (statements (fuel + 1))
      (s.pieces ++ .newline :: (linePieces rest ++ [symbol .closeBrace])) (s :: rest) := by
  intro place ts hts
  have hline := startsLine_lines wfRest (fun n => place (n + (s.pieces.length + 1))) ts
  obtain ⟨s', hread, hsame⟩ := hs place _
    ⟨_, _, _, rfl, List.append_ne_nil_of_right_ne_nil _ hts, hline⟩
  obtain ⟨rest', hrest, hsames⟩ := h (fun n => place (n + (s.pieces.length + 1))) ts hts
  -- The loop over lines stops at a brace, the end of the input or a handler, none of which is here.
  have hstart := mayStartStatement_pieces wf place
    (.newline :: (linePieces rest ++ [symbol .closeBrace])) ts
  rw [tokens_append_newline] at hstart ⊢
  obtain ⟨hclose, hend, hon⟩ := statement_goes_on hstart
  refine ⟨s' :: rest', ?_, by rw [statementsUnplaced, statementsUnplaced, hsame, hsames]⟩
  rw [statements]
  simp only [hclose, hend, hon, Bool.false_eq_true, if_false]
  rw [hread]
  show (statements fuel (skipSeparators (tokens _ (linePieces rest ++ [symbol .closeBrace]) ++
    ts))).map _ = _
  rw [hline.skipSeparators_eq, hrest]
  rfl

-- Four levels for every piece are again enough: the braces of a body have three pieces, which pay
-- for the functions that are called between a statement and the statements inside it.
mutual

/-- **Statements are read back.** -/
theorem recovers_statement : ∀ s : Statement, s.WellFormed → s.Plain → ∀ fuel,
    4 * s.pieces.length + 2 ≤ fuel →
      Recovers Statement.unplaced EndsLine (statement fuel) s.pieces s
  | .assign a, wf, plain, fuel, hfuel => by
      -- Here and below, `hlength` leaves the parts of the statement enough fuel.
      have hlength : (Statement.assign a).pieces.length = a.pieces.length := rfl
      obtain ⟨fuel, rfl⟩ : ∃ n, fuel = n + 1 := ⟨fuel - 1, by omega⟩
      exact recovers_assign wf plain fuel (by omega)
  | .unset taken p, wf, plain, fuel, hfuel => by
      have hlength : (Statement.unset taken p).pieces.length =
          (commas (taken.map Variable.pieces)).length + 1 := rfl
      obtain ⟨fuel, rfl⟩ : ∃ n, fuel = n + 1 := ⟨fuel - 1, by omega⟩
      exact recovers_unset wf.1 wf.2 plain fuel (by omega)
  | .expression e p, wf, plain, fuel, hfuel => by
      have hlength : (Statement.expression e p).pieces.length = (parens e.pieces).length := rfl
      obtain ⟨fuel, rfl⟩ : ∃ n, fuel = n + 1 := ⟨fuel - 1, by omega⟩
      exact recovers_expression wf plain fuel (by omega)
  | .choice first others otherwise p, wf, plain, fuel, hfuel => by
      have hlength : (Statement.choice first others otherwise p).pieces.length =
          first.pieces.length + (othersPieces others ++ otherwisePieces otherwise).length + 1 := by
        simp [Statement.pieces]
      obtain ⟨fuel, rfl⟩ : ∃ n, fuel = n + 1 := ⟨fuel - 1, by omega⟩
      have hrest := recovers_alternatives others wf.2.1 plain.2.1
        (recovers_last otherwise wf.2.2 plain.2.2) fuel (by omega)
      exact recovers_choice (recovers_branches first wf.1 plain.1 fuel (by omega)) hrest
  | .loop mode body p, wf, plain, fuel, hfuel => by
      have hlength : (Statement.loop mode body p).pieces.length =
          mode.pieces.length + (braces (linePieces body)).length + 1 := by
        simp [Statement.pieces]
      obtain ⟨fuel, rfl⟩ : ∃ n, fuel = n + 1 := ⟨fuel - 1, by omega⟩
      exact recovers_loop wf.1 plain.1 (by omega)
        (recovers_braces body wf.2 plain.2 fuel (by omega)) (atBody_braces wf.2 plain.2)
  | .commands cs p, wf, plain, fuel, hfuel => by
      have hlength : (Statement.commands cs p).pieces.length =
          (joined (symbol .semicolon) (cs.map Command.pieces)).length := rfl
      obtain ⟨fuel, rfl⟩ : ∃ n, fuel = n + 1 := ⟨fuel - 1, by omega⟩
      exact recovers_commands wf.1 wf.2 plain fuel (by omega)
  | .jump k levels p, wf, plain, fuel, hfuel => by
      obtain ⟨fuel, rfl⟩ : ∃ n, fuel = n + 1 := ⟨fuel - 1, by omega⟩
      exact recovers_jump wf.1 fuel

theorem recovers_branches : ∀ b : Branch, b.WellFormed → b.Plain → ∀ fuel,
    4 * b.pieces.length + 1 ≤ fuel → Recovers Branch.unplaced (· ≠ []) (branch fuel) b.pieces b
  | .mk test body, wf, plain, fuel, hfuel => by
      have hlength : (Branch.mk test body).pieces.length =
          test.pieces.length + (braces (linePieces body)).length := by
        simp [Branch.pieces]
      have hbraces : (braces (linePieces body)).length = (linePieces body).length + 3 := by
        simp [braces]
      obtain ⟨fuel, rfl⟩ : ∃ n, fuel = n + 1 := ⟨fuel - 1, by omega⟩
      exact recovers_branch wf.1 plain.1 (by omega)
        (recovers_braces body wf.2 plain.2 fuel (by omega)) (atBody_braces wf.2 plain.2)

theorem recovers_alternatives : ∀ others : List Branch, branchesWellFormed others →
    branchesPlain others → ∀ {otherwise : Option (List Statement)},
      (∀ fuel, 4 * (otherwisePieces otherwise).length + 1 ≤ fuel →
        Recovers alternativesUnplaced EndsLine (alternatives fuel) (otherwisePieces otherwise)
          ([], otherwise)) → ∀ fuel,
      4 * (othersPieces others ++ otherwisePieces otherwise).length + 1 ≤ fuel →
        Recovers alternativesUnplaced EndsLine (alternatives fuel)
          (othersPieces others ++ otherwisePieces otherwise) (others, otherwise)
  | [], _, _, _, hlast, fuel, hfuel => hlast fuel hfuel
  | b :: rest, wf, plain, otherwise, hlast, fuel, hfuel => by
      have hpieces : othersPieces (b :: rest) ++ otherwisePieces otherwise =
          word "else" :: word "if" ::
            (b.pieces ++ (othersPieces rest ++ otherwisePieces otherwise)) := by
        simp [othersPieces]
      have hlength : (othersPieces (b :: rest) ++ otherwisePieces otherwise).length =
          b.pieces.length + (othersPieces rest ++ otherwisePieces otherwise).length + 2 := by
        rw [hpieces, List.length_cons, List.length_cons, List.length_append]
      obtain ⟨fuel, rfl⟩ : ∃ n, fuel = n + 1 := ⟨fuel - 1, by omega⟩
      rw [hpieces]
      exact recovers_else_if (recovers_branches b wf.1 plain.1 fuel (by omega))
        (recovers_alternatives rest wf.2 plain.2 hlast fuel (by omega))

theorem recovers_last : ∀ otherwise : Option (List Statement), otherwiseWellFormed otherwise →
    otherwisePlain otherwise → ∀ fuel, 4 * (otherwisePieces otherwise).length + 1 ≤ fuel →
      Recovers alternativesUnplaced EndsLine (alternatives fuel) (otherwisePieces otherwise)
        ([], otherwise)
  | none, _, _, fuel, hfuel => by
      obtain ⟨fuel, rfl⟩ : ∃ n, fuel = n + 1 := ⟨fuel - 1, by omega⟩
      exact recovers_no_alternatives fuel
  | some body, wf, plain, fuel, hfuel => by
      have hlength : (otherwisePieces (some body)).length =
          (braces (linePieces body)).length + 1 := rfl
      obtain ⟨fuel, rfl⟩ : ∃ n, fuel = n + 1 := ⟨fuel - 1, by omega⟩
      exact recovers_otherwise (recovers_braces body wf plain fuel (by omega))

theorem recovers_braces : ∀ body : List Statement, statementsWellFormed body →
    statementsPlain body → ∀ fuel, 4 * (braces (linePieces body)).length ≤ fuel →
      Recovers statementsUnplaced (· ≠ []) (Grammar.body fuel) (braces (linePieces body)) body
  | body, wf, plain, fuel, hfuel => by
      have hlength : (braces (linePieces body)).length = (linePieces body).length + 3 := by
        simp [braces]
      obtain ⟨fuel, rfl⟩ : ∃ n, fuel = n + 1 := ⟨fuel - 1, by omega⟩
      exact recovers_body wf (recovers_lines body wf plain fuel (by omega))

theorem recovers_lines : ∀ body : List Statement, statementsWellFormed body →
    statementsPlain body → ∀ fuel, 4 * (linePieces body).length + 1 ≤ fuel →
      Recovers statementsUnplaced (· ≠ []) (statements fuel)
        (linePieces body ++ [symbol .closeBrace]) body
  | [], _, _, fuel, hfuel => by
      obtain ⟨fuel, rfl⟩ : ∃ n, fuel = n + 1 := ⟨fuel - 1, by omega⟩
      exact recovers_no_lines fuel
  | s :: rest, wf, plain, fuel, hfuel => by
      have hlength : (linePieces (s :: rest)).length =
          s.pieces.length + (linePieces rest).length + 1 := by
        simp [linePieces]
        omega
      obtain ⟨fuel, rfl⟩ : ∃ n, fuel = n + 1 := ⟨fuel - 1, by omega⟩
      rw [linePieces, List.append_assoc]
      exact recovers_line wf.1 wf.2 (recovers_statement s wf.1 plain.1 fuel (by omega))
        (recovers_lines rest wf.2 plain.2 fuel (by omega))

end

/-! ## Scripts -/

theorem handler_eq (fuel : Nat) (pattern : String) (p q : Position × Bool) {ts : List Token}
    (hts : ts ≠ []) :
    handler fuel (⟨.word "on", p.1, p.2⟩ :: ⟨.text pattern false, q.1, q.2⟩ :: ts) =
      (Grammar.body fuel (if atWord "isolated" ts then advance ts else ts)).map
        fun (inner, ts') => (⟨pattern, atWord "isolated" ts, inner, p.1⟩, ts') := by
  have hadvance : advance (⟨.text pattern false, q.1, q.2⟩ :: ts) = ts := advance_cons hts
  have hon : advance (⟨.word "on", p.1, p.2⟩ :: ⟨.text pattern false, q.1, q.2⟩ :: ts) =
      ⟨.text pattern false, q.1, q.2⟩ :: ts := rfl
  rw [handler]
  simp only [hon, hadvance, kind, here]

/-- Handlers are read back. -/
theorem recovers_handler {h : Handler} (wf : statementsWellFormed h.body)
    (plain : statementsPlain h.body) (fuel : Nat) (hfuel : 4 * h.pieces.length ≤ fuel) :
    Recovers Handler.unplaced (· ≠ []) (handler fuel) h.pieces h := by
  intro place ts hts
  obtain ⟨pattern, isolated, body, p⟩ := h
  have hlength : (braces (linePieces body)).length ≤
      (Handler.pieces ⟨pattern, isolated, body, p⟩).length := by
    simp [Handler.pieces]
    omega
  have hbody := recovers_braces body wf plain fuel (by omega)
  -- The body begins one token later when the handler is isolated.
  cases isolated with
  | true =>
      obtain ⟨body', hread, hsame⟩ := hbody (fun n => place (n + 1 + 1 + 1)) ts hts
      have hisolated : ∀ us,
          atWord "isolated" (⟨.word "isolated", (place 2).1, (place 2).2⟩ :: us) = true :=
        fun _ => decide_eq_true (asciiLower_keyword "isolated" (by decide))
      refine ⟨⟨pattern, true, body', (place 0).1⟩, ?_, by
        simp only [Handler.unplaced, hsame]⟩
      show handler fuel (⟨.word "on", _, _⟩ :: ⟨.text pattern false, _, _⟩ ::
        ⟨.word "isolated", _, _⟩ ::
          (tokens (fun n => place (n + 1 + 1 + 1)) (braces (linePieces body)) ++ ts)) = _
      rw [handler_eq fuel pattern (place 0) (place 1) (List.cons_ne_nil _ _), hisolated, if_pos rfl,
        advance_cons (List.append_ne_nil_of_right_ne_nil _ hts), hread]
      rfl
  | false =>
      obtain ⟨body', hread, hsame⟩ := hbody (fun n => place (n + 1 + 1)) ts hts
      refine ⟨⟨pattern, false, body', (place 0).1⟩, ?_, by
        simp only [Handler.unplaced, hsame]⟩
      show handler fuel (⟨.word "on", _, _⟩ :: ⟨.text pattern false, _, _⟩ ::
        (tokens (fun n => place (n + 1 + 1)) (braces (linePieces body)) ++ ts)) = _
      rw [handler_eq fuel pattern (place 0) (place 1)
        (List.append_ne_nil_of_right_ne_nil _ hts)]
      show (Grammar.body fuel (tokens (fun n => place (n + 1 + 1)) (braces (linePieces body)) ++
        ts)).map _ = _
      rw [hread]
      rfl

def blockPieces : Item → List Piece
  | .inl s => s.pieces
  | .inr h => h.pieces

def blocksPieces (items : List Item) : List Piece :=
  items.flatMap fun item => blockPieces item ++ [.newline]

def blockUnplaced : Item → Item
  | .inl s => .inl s.unplaced
  | .inr h => .inr h.unplaced

/-- Whether a statement or a handler may have been read. -/
def BlockWellFormed : Item → Prop
  | .inl s => s.WellFormed
  | .inr h => statementsWellFormed h.body

def BlockPlain : Item → Prop
  | .inl s => s.Plain
  | .inr h => statementsPlain h.body

theorem atWord_on {p : Position} {spaced : Bool} {ts : List Token} :
    atWord "on" (⟨.word "on", p, spaced⟩ :: ts) = true :=
  decide_eq_true (asciiLower_keyword "on" (by decide))

theorem startsLine_on {p : Position} {spaced : Bool} {ts : List Token} :
    StartsLine (⟨.word "on", p, spaced⟩ :: ts) where
  not_separator := rfl
  not_else := by
    show decide (Decimal.asciiLower "on" = "else") = false
    rw [asciiLower_keyword "on" (by decide)]
    rfl

theorem startsLine_blocks {items : List Item} (wf : ∀ item ∈ items, BlockWellFormed item)
    (place : Nat → Position × Bool) (last : Position) :
    StartsLine (tokens place (blocksPieces items) ++ [⟨.endOfInput, last, true⟩]) := by
  cases items with
  | nil => exact ⟨rfl, rfl⟩
  | cons item items =>
      have hitem := wf item List.mem_cons_self
      rw [blocksPieces, List.flatMap_cons, List.append_assoc]
      cases item with
      | inl s => exact startsLine_of_mayStartStatement (mayStartStatement_pieces hitem place _ _)
      | inr h => exact startsLine_on

/-- A statement or a handler, as the top level reads it. -/
def block (fuel : Nat) (ts : List Token) : Parsed Item :=
  if atWord "on" ts then (handler fuel ts).map fun (h, ts) => (.inr h, ts)
  else (statement fuel ts).map fun (s, ts) => (.inl s, ts)

theorem topLevel_eq {fuel : Nat} {ts : List Token} (h : (kind ts).isEnd = false) :
    topLevel (fuel + 1) ts =
      match block fuel ts with
      | .error e => .error e
      | .ok (item, ts) =>
          if endsStatement ts then (topLevel fuel (skipSeparators ts)).map (item :: ·)
          else fail (.expected .statementEnd) ts := by
  rw [topLevel, h]
  rfl

/-- One statement or handler is read back. -/
theorem recovers_block {item : Item} (wf : BlockWellFormed item) (plain : BlockPlain item)
    (fuel : Nat) (hfuel : 4 * (blockPieces item).length + 2 ≤ fuel) :
    Recovers blockUnplaced EndsLine (block fuel) (blockPieces item) item := by
  intro place ts hts
  cases item with
  | inl s =>
      have hstart : mayStartStatement (kind (tokens place s.pieces ++ ts)) = true := by
        simpa using mayStartStatement_pieces wf place [] ts
      obtain ⟨-, -, hon⟩ := statement_goes_on hstart
      obtain ⟨s', hread, hsame⟩ := recovers_statement s wf plain fuel hfuel place ts hts
      refine ⟨.inl s', ?_, congrArg Sum.inl hsame⟩
      rw [blockPieces, block, hon, hread]
      rfl
  | inr h =>
      have hlength : (blockPieces (.inr h)).length = h.pieces.length := rfl
      obtain ⟨h', hread, hsame⟩ := recovers_handler wf plain fuel (by omega) place ts hts.ne_nil
      refine ⟨.inr h', ?_, congrArg Sum.inr hsame⟩
      have hon : atWord "on" (tokens place h.pieces ++ ts) = true := atWord_on
      rw [blockPieces, block, hon, hread]
      rfl

theorem not_isEnd_block {item : Item} (wf : BlockWellFormed item) (place : Nat → Position × Bool)
    (more : List Piece) (ts : List Token) :
    (kind (tokens place (blockPieces item ++ more) ++ ts)).isEnd = false := by
  cases item with
  | inl s => exact (statement_goes_on (mayStartStatement_pieces wf place more ts)).2.1
  | inr h => rfl

/-- Statements and handlers are read back up to the end of the input. -/
theorem recovers_blocks {items : List Item} (wf : ∀ item ∈ items, BlockWellFormed item)
    (plain : ∀ item ∈ items, BlockPlain item) :
    ∀ fuel, 4 * (blocksPieces items).length + 1 ≤ fuel → ∀ place last, ∃ items',
      topLevel fuel (tokens place (blocksPieces items) ++ [⟨.endOfInput, last, true⟩]) =
          .ok items' ∧
        items'.map blockUnplaced = items.map blockUnplaced := by
  induction items with
  | nil =>
      intro fuel hfuel place last
      obtain ⟨fuel, rfl⟩ : ∃ n, fuel = n + 1 := ⟨fuel - 1, by omega⟩
      exact ⟨[], rfl, rfl⟩
  | cons item items ih =>
      intro fuel hfuel place last
      -- Written one after another, so that what is left is again written blocks and the end.
      have hpieces : blocksPieces (item :: items) =
          blockPieces item ++ .newline :: blocksPieces items := by
        simp [blocksPieces]
      have hlength : (blocksPieces (item :: items)).length =
          (blockPieces item).length + (blocksPieces items).length + 1 := by
        rw [hpieces, List.length_append, List.length_cons]
        omega
      obtain ⟨fuel, rfl⟩ : ∃ n, fuel = n + 1 := ⟨fuel - 1, by omega⟩
      have hline := startsLine_blocks (fun x hx => wf x (List.mem_cons_of_mem _ hx))
        (fun n => place (n + ((blockPieces item).length + 1))) last
      obtain ⟨item', hread, hsame⟩ := recovers_block (wf item List.mem_cons_self)
        (plain item List.mem_cons_self) fuel (by omega) place _ ⟨_, _, _, rfl, by simp, hline⟩
      obtain ⟨items', hrest, hsames⟩ := ih (fun x hx => wf x (List.mem_cons_of_mem _ hx))
        (fun x hx => plain x (List.mem_cons_of_mem _ hx)) fuel (by omega)
        (fun n => place (n + ((blockPieces item).length + 1))) last
      refine ⟨item' :: items', ?_, by rw [List.map_cons, List.map_cons, hsame, hsames]⟩
      rw [hpieces]
      have hend := not_isEnd_block (wf item List.mem_cons_self) place
        (.newline :: blocksPieces items) [⟨.endOfInput, last, true⟩]
      rw [topLevel_eq hend, tokens_append_newline, hread]
      show (topLevel fuel (skipSeparators (tokens _ (blocksPieces items) ++ _))).map _ = _
      rw [hline.skipSeparators_eq, hrest]
      rfl

/-- The blocks of a script, in the order in which they are written. -/
def blocks (s : Script) : List Item := s.statements.map .inl ++ s.handlers.map .inr

theorem pieces_eq_blocks (s : Script) : s.pieces = blocksPieces (blocks s) := by
  have hlines : ∀ body : List Statement, linePieces body = blocksPieces (body.map .inl) := by
    intro body
    induction body with
    | nil => rfl
    | cons s rest ih =>
        rw [linePieces, ih]
        simp [blocksPieces, blockPieces]
  rw [Script.pieces, hlines, blocks, blocksPieces, blocksPieces, List.flatMap_append,
    List.flatMap_map, List.flatMap_map]
  rfl

theorem statementsWellFormed_iff {body : List Statement} :
    statementsWellFormed body ↔ ∀ s ∈ body, s.WellFormed := by
  induction body with
  | nil => simp [statementsWellFormed]
  | cons s rest ih => simp [statementsWellFormed, ih]

theorem statementsPlain_iff {body : List Statement} :
    statementsPlain body ↔ ∀ s ∈ body, s.Plain := by
  induction body with
  | nil => simp [statementsPlain]
  | cons s rest ih => simp [statementsPlain, ih]

theorem statementsUnplaced_eq_map (body : List Statement) :
    statementsUnplaced body = body.map Statement.unplaced := by
  induction body with
  | nil => rfl
  | cons s rest ih => rw [statementsUnplaced, ih, List.map_cons]

/-- The statements and the handlers among blocks, without positions. -/
theorem filterMap_unplaced (items : List Item) :
    (items.map blockUnplaced).filterMap Sum.getLeft? =
      statementsUnplaced (items.filterMap Sum.getLeft?) ∧
    (items.map blockUnplaced).filterMap Sum.getRight? =
      (items.filterMap Sum.getRight?).map Handler.unplaced := by
  rw [statementsUnplaced_eq_map]
  induction items with
  | nil => exact ⟨rfl, rfl⟩
  | cons item items ih =>
      cases item with
      | inl s => exact ⟨congrArg (s.unplaced :: ·) ih.1, ih.2⟩
      | inr h => exact ⟨ih.1, congrArg (h.unplaced :: ·) ih.2⟩

theorem filterMap_blocks (s : Script) :
    (blocks s).filterMap Sum.getLeft? = s.statements ∧
      (blocks s).filterMap Sum.getRight? = s.handlers := by
  constructor
  · rw [blocks, List.filterMap_append, List.filterMap_map, List.filterMap_map]
    simp [Function.comp_def]
  · rw [blocks, List.filterMap_append, List.filterMap_map, List.filterMap_map]
    simp [Function.comp_def]

/-- **Scripts are read back.** What the tokens of a plain script stand for are its blocks. -/
theorem recovers_script {s : Script} (wf : s.WellFormed) (plain : s.Plain)
    (place : Nat → Position × Bool) (last : Position) :
    ∃ statements handlers,
      Script.ofTokens (tokens place s.pieces ++ [⟨.endOfInput, last, true⟩]) =
        .ok (statements, handlers) ∧
      statementsUnplaced statements = statementsUnplaced s.statements ∧
      handlers.map Handler.unplaced = s.handlers.map Handler.unplaced := by
  have hwf : ∀ item ∈ blocks s, BlockWellFormed item := by
    intro item hitem
    rcases List.mem_append.mp hitem with h | h
    · obtain ⟨t, ht, rfl⟩ := List.mem_map.mp h
      exact statementsWellFormed_iff.mp wf.1 t ht
    · obtain ⟨t, ht, rfl⟩ := List.mem_map.mp h
      exact wf.2 t ht
  have hplain : ∀ item ∈ blocks s, BlockPlain item := by
    intro item hitem
    rcases List.mem_append.mp hitem with h | h
    · obtain ⟨t, ht, rfl⟩ := List.mem_map.mp h
      exact statementsPlain_iff.mp plain.1 t ht
    · obtain ⟨t, ht, rfl⟩ := List.mem_map.mp h
      exact plain.2 t ht
  rw [pieces_eq_blocks]
  have hlength : (tokens place (blocksPieces (blocks s)) ++
      [(⟨.endOfInput, last, true⟩ : Token)]).length = (blocksPieces (blocks s)).length + 1 := by
    rw [List.length_append, length_tokens, List.length_singleton]
  -- The grammar may go as deep as sixteen levels for every token, of which four are enough here.
  obtain ⟨items, hread, hsame⟩ := recovers_blocks hwf hplain
    (budget ((blocksPieces (blocks s)).length + 1)) (by rw [budget]; omega) place last
  obtain ⟨hleft, hright⟩ := filterMap_unplaced items
  obtain ⟨hstatements, hhandlers⟩ := filterMap_blocks s
  obtain ⟨hleft', hright'⟩ := filterMap_unplaced (blocks s)
  refine ⟨items.filterMap Sum.getLeft?, items.filterMap Sum.getRight?, ?_, ?_, ?_⟩
  · rw [Script.ofTokens, (startsLine_blocks hwf place last).skipSeparators_eq, hlength, hread]
    rfl
  · rw [← hleft, hsame, hleft', hstatements]
  · rw [← hright, hsame, hright', hhandlers]

end TabPilot.Grammar
