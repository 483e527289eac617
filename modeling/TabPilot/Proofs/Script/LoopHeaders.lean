import Mathlib
import TabPilot.Proofs.Script.Blocks
import TabPilot.Proofs.Script.Parsed
import TabPilot.Proofs.Script.Standalone

set_option autoImplicit false

/-! # Headers of loops with three clauses

The documented grammar of `loop INIT; COND; NEXT`, over tokens: clauses are assignments or commands,
and tests are chains of assignments and commands that end in a command or in an expression that may
be compared. What is read of an assignment, a command or an expression is what is read of it where
it stands alone. The reader takes INIT and COND for one test and splits it afterwards; the main
statement is that the parts are INIT, COND and NEXT, whatever semicolons they have inside.
-/

namespace TabPilot.Grammar

/-! ## The grammar -/

/-- The tokens are an assignment: where they stand alone, they are read as one to their end. -/
def IsAssignment (ts : List Token) (a : Assignment) : Prop :=
  ∃ last : Token, last.kind = .endOfInput ∧
    assignment? (budget (ts.length + 1)) (ts ++ [last]) = .ok (some (a, [last]))

/-- The tokens are a command, in the form that headers allow: without empty options. -/
def IsCommand (ts : List Token) (c : Command) : Prop :=
  startsCommand ts = true ∧ ∃ last : Token, last.kind = .endOfInput ∧
    command (budget (ts.length + 1)) true (ts ++ [last]) = .ok (c, [last])

/-- The tokens are an expression, of which nothing is left where they stand alone. -/
def IsExpression (ts : List Token) (e : Expr) : Prop :=
  ∃ last : Token, last.kind = .endOfInput ∧
    expression (budget (ts.length + 1)) 0 (ts ++ [last]) = .ok (e, [last])

/-- The tokens are the first or the last clause of a header. -/
inductive IsClause : List Token → Clause → Prop
  | assignment {ts : List Token} {a : Assignment} (h : IsAssignment ts a) :
      IsClause ts (.assignment a)
  | command {ts : List Token} {c : Command} (h : IsCommand ts c) :
      IsClause ts (.command c (here ts))

/-- The word that may stand in front of a test. -/
inductive IsNegation : List Token → Bool → Prop
  | absent : IsNegation [] false
  | present {t : Token} (h : atWord "not" [t] = true) : IsNegation [t] true

inductive IsComparator : List TokenKind → Comparator → Prop
  | single (op : Comparator) : IsComparator [op.token] op
  | notIn : IsComparator [.word "not", .word "in"] .notIn

/-- The tokens are a test: `[not] (ASSIGNMENT ; TEST | COMMAND [; TEST] | EXPR [CMP EXPR])`. -/
inductive IsTest : List Token → Condition → Prop
  | assigning {mark first rest : List Token} {sep : Token} {negated : Bool} {a : Assignment}
      {c : Condition} (hmark : IsNegation mark negated) (hfirst : IsAssignment first a)
      (hsep : sep.kind = .symbol .semicolon) (hrest : IsTest rest c) :
      IsTest (mark ++ (first ++ sep :: rest))
        (.assigning negated (here (mark ++ first)) a c)
  | commanding {mark first rest : List Token} {sep : Token} {negated : Bool} {a : Command}
      {c : Condition} (hmark : IsNegation mark negated) (hfirst : IsCommand first a)
      (hsep : sep.kind = .symbol .semicolon) (hrest : IsTest rest c) :
      IsTest (mark ++ (first ++ sep :: rest))
        (.commanding negated (here (mark ++ first)) a c)
  | command {mark first : List Token} {negated : Bool} {a : Command}
      (hmark : IsNegation mark negated) (hfirst : IsCommand first a) :
      IsTest (mark ++ first) (.command negated (here (mark ++ first)) a)
  | expression {mark lhs : List Token} {negated : Bool} {e : Expr}
      (hmark : IsNegation mark negated) (hlhs : IsExpression lhs e) :
      IsTest (mark ++ lhs) (.comparison negated (here (mark ++ lhs)) e none)
  | comparison {mark lhs ops rhs : List Token} {negated : Bool} {e e' : Expr} {op : Comparator}
      (hmark : IsNegation mark negated) (hlhs : IsExpression lhs e)
      (hop : IsComparator (ops.map Token.kind) op) (hrhs : IsExpression rhs e') :
      IsTest (mark ++ (lhs ++ (ops ++ rhs)))
        (.comparison negated (here (mark ++ lhs)) e (some (op, e')))

/-! ## Clauses and expressions in their places -/

variable {ts rest : List Token}

/-- What comes after a clause, or after the command or expression at the end of a test. -/
structure EndsClause (ts : List Token) : Prop where
  isEnd : kind ts = .symbol .semicolon ∨ kind ts = .symbol .openBrace
  no_options : startsOptions true ts = false

theorem AtBody.endsClause (h : AtBody ts) : EndsClause ts := ⟨.inr h.1, h.2⟩

theorem EndsCondition.endsClause {c : Condition} (h : EndsCondition c ts) : EndsClause ts := by
  rcases h with ⟨hk, hoptions⟩ | ⟨hk, -⟩
  · exact ⟨.inr hk, hoptions⟩
  · refine ⟨.inl hk, ?_⟩
    rw [startsOptions, at?, hk]
    rfl

theorem endsClause_semicolon {t : Token} (h : t.kind = .symbol .semicolon) :
    EndsClause (t :: ts) := by
  refine ⟨.inl h, ?_⟩
  rw [startsOptions, at?, kind, h]
  rfl

namespace EndsClause

variable (h : EndsClause rest)
include h

theorem ne_nil : rest ≠ [] := by
  rintro rfl
  rcases h.isEnd with hk | hk <;> cases hk

theorem quiet : isQuiet (kind rest) = true := by rcases h.isEnd with hk | hk <;> rw [hk] <;> rfl

theorem not_assignOp : assignOp? (kind rest) = none := by
  rcases h.isEnd with hk | hk <;> rw [hk] <;> rfl

theorem endsCommand : EndsCommand true rest :=
  ⟨.inr h.isEnd, h.no_options⟩

theorem no_comparator : comparator? rest = none := by
  rw [comparator?]
  rcases h.isEnd with hk | hk <;> rw [hk]

end EndsClause

theorem here_append (hne : ts ≠ []) : here (ts ++ rest) = here ts := by
  obtain ⟨t, us, rfl⟩ := List.exists_cons_of_ne_nil hne
  rfl

theorem kind_append (hne : ts ≠ []) : kind (ts ++ rest) = kind ts := by
  obtain ⟨t, us, rfl⟩ := List.exists_cons_of_ne_nil hne
  rfl

theorem IsAssignment.reads {a : Assignment} (h : IsAssignment ts a) (ends : EndsClause rest)
    {fuel : Nat} (hfuel : budget (ts.length + 1) ≤ fuel) :
    assignment? fuel (ts ++ rest) = .ok (some (a, rest)) := by
  obtain ⟨last, hlast, hread⟩ := h
  have alike : EndsAlike last rest := ⟨hlast, ends.ne_nil, ends.quiet⟩
  obtain ⟨us, hread', swaps⟩ := carries_assignment alike hfuel ⟨ts, rfl, rfl⟩ hread
  rwa [swaps.eq_rest] at hread'

theorem startsTarget_of_assignment? {fuel : Nat} {a : Assignment} {us : List Token}
    (h : assignment? fuel ts = .ok (some (a, us))) : startsTarget ts = true := by
  cases hstarts : startsTarget ts with
  | true => rfl
  | false =>
      rw [assignment?_eq_none hstarts] at h
      cases h

theorem IsCommand.ne_nil {c : Command} (h : IsCommand ts c) : ts ≠ [] := by
  rintro rfl
  cases h.1

theorem IsCommand.starts {c : Command} (h : IsCommand ts c) :
    startsCommand (ts ++ rest) = true := by
  rw [startsCommand, kind_append h.ne_nil]
  exact h.1

theorem IsCommand.reads {c : Command} (h : IsCommand ts c) (ends : EndsClause rest) {fuel : Nat}
    (hfuel : budget (ts.length + 1) ≤ fuel) : command fuel true (ts ++ rest) = .ok (c, rest) := by
  obtain ⟨-, last, hlast, hread⟩ := h
  have alike : EndsAlike last rest := ⟨hlast, ends.ne_nil, ends.quiet⟩
  obtain ⟨us, hread', swaps⟩ := (carries_command alike ends.endsCommand hfuel).apply
    ⟨ts, rfl, rfl⟩ hread
  rwa [swaps.eq_rest] at hread'

theorem IsExpression.reads {e : Expr} (h : IsExpression ts e) (hne : rest ≠ [])
    (quiet : isQuiet (kind rest) = true) {fuel : Nat} (hfuel : budget (ts.length + 1) ≤ fuel) :
    expression fuel 0 (ts ++ rest) = .ok (e, rest) := by
  obtain ⟨last, hlast, hread⟩ := h
  have alike : EndsAlike last rest := ⟨hlast, hne, quiet⟩
  obtain ⟨us, hread', swaps⟩ := ((carriesExpressions alike _).expression fuel hfuel 0).apply
    ⟨ts, rfl, rfl⟩ hread
  rwa [swaps.eq_rest] at hread'

theorem IsExpression.ne_nil {e : Expr} (h : IsExpression ts e) : ts ≠ [] := by
  rintro rfl
  obtain ⟨last, hlast, hread⟩ := h
  exact not_end_of_expression hread hlast

theorem IsAssignment.ne_nil {a : Assignment} (h : IsAssignment ts a) : ts ≠ [] := by
  rintro rfl
  obtain ⟨last, hlast, hread⟩ := h
  have hstarts := startsTarget_of_assignment? hread
  rw [startsTarget, List.nil_append, kind, hlast] at hstarts
  cases hstarts

theorem IsExpression.not_assignment {e : Expr} (h : IsExpression ts e) (hne : rest ≠ [])
    (quiet : isQuiet (kind rest) = true) (notAssign : assignOp? (kind rest) = none) {fuel : Nat}
    (hfuel : budget (ts.length + 1) ≤ fuel) : assignment? fuel (ts ++ rest) = .ok none := by
  obtain ⟨last, hlast, hread⟩ := h
  exact assignment?_of_expression ⟨hlast, hne, quiet⟩ notAssign hfuel ⟨ts, rfl, rfl⟩ hread

/-- A word in front of an expression is a literal. -/
theorem wordValue?_of_expression {fuel level : Nat} {e : Expr} {us : List Token} {w : String}
    (hread : expression fuel level ts = .ok (e, us)) (hk : kind ts = .word w) :
    ∃ v, wordValue? w = some v := by
  obtain _ | _ | _ | fuel := fuel
  · cases hread
  · cases hread
  · rw [expression, operand, at?, hk] at hread
    cases hread
  · cases hvalue : wordValue? w with
    | some v => exact ⟨v, rfl⟩
    | none =>
        rw [expression, operand, at?, hk, primary] at hread
        simp only [hk, hvalue] at hread
        cases hread

theorem mem_reserved_of_wordValue? {w : String} {v : Value} (h : wordValue? w = some v) :
    Decimal.asciiLower w ∈ reserved ∧ Decimal.asciiLower w ≠ "not" := by
  unfold wordValue? at h
  split at h
  · next hw => rw [hw]; decide
  · next hw => rw [hw]; decide
  · next hw => rw [hw]; decide
  · cases h

theorem IsExpression.not_starts {e : Expr} (h : IsExpression ts e) (rest : List Token) :
    startsCommand (ts ++ rest) = false ∧ atWord "not" (ts ++ rest) = false := by
  have hne := h.ne_nil
  obtain ⟨last, hlast, hread⟩ := h
  rw [startsCommand, atWord, kind_append hne]
  split
  · next w hk =>
      obtain ⟨v, hv⟩ := wordValue?_of_expression hread ((kind_append hne).trans hk)
      obtain ⟨hmem, hnot⟩ := mem_reserved_of_wordValue? hv
      have hreserved : isReserved w = true := List.contains_iff_mem.mpr hmem
      exact ⟨by rw [hreserved]; rfl, decide_eq_false hnot⟩
  · exact ⟨rfl, rfl⟩

/-! ## Tests in their places -/

/-- What a test does behind the word in front of it. -/
theorem condition_eq {mark : List Token} {negated : Bool} (hmark : IsNegation mark negated)
    (hne : ts ≠ []) (hnot : atWord "not" ts = false) (fuel : Nat) :
    condition (fuel + 1) (mark ++ ts) =
      match assignment? fuel ts with
      | .error e => .error e
      | .ok (some (first, us)) =>
          match expect .semicolon us with
          | .error e => .error e
          | .ok us =>
              (condition fuel us).map fun (rest, us) =>
                (.assigning negated (here (mark ++ ts)) first rest, us)
      | .ok none =>
          if startsCommand ts then
            match command fuel true ts with
            | .error e => .error e
            | .ok (first, us) =>
                if at? .semicolon us then
                  (condition fuel (advance us)).map fun (rest, us) =>
                    (.commanding negated (here (mark ++ ts)) first rest, us)
                else .ok (.command negated (here (mark ++ ts)) first, us)
          else comparison fuel negated (here (mark ++ ts)) ts := by
  cases hmark with
  | absent =>
      have hstep := condition.eq_2 ts fuel
      simp only [hnot, Bool.false_eq_true, if_false] at hstep
      exact hstep
  | @present t h =>
      have hat : atWord "not" (t :: ts) = true := h
      have hstep := condition.eq_2 (t :: ts) fuel
      simp only [hat, if_true, advance_cons hne] at hstep
      exact hstep

/-- The tokens of a comparison, one or two. -/
theorem IsComparator.tokens {ops : List Token} {op : Comparator}
    (h : IsComparator (ops.map Token.kind) op) :
    (∃ p spaced, ops = [⟨op.token, p, spaced⟩]) ∨
      op = .notIn ∧ ∃ p q spaced spaced',
        ops = [⟨.word "not", p, spaced⟩, ⟨.word "in", q, spaced'⟩] := by
  generalize hkinds : ops.map Token.kind = kinds at h
  cases h with
  | single =>
      obtain ⟨⟨k, p, spaced⟩, rfl, rfl⟩ := List.map_eq_singleton_iff.mp hkinds
      exact .inl ⟨p, spaced, rfl⟩
  | notIn =>
      obtain ⟨⟨k, p, spaced⟩, us, rfl, rfl, hus⟩ := List.map_eq_cons_iff.mp hkinds
      obtain ⟨⟨k, q, spaced'⟩, rfl, rfl⟩ := List.map_eq_singleton_iff.mp hus
      exact .inr ⟨rfl, p, q, spaced, spaced', rfl⟩

theorem comparator?_append {ops : List Token} {op : Comparator}
    (h : IsComparator (ops.map Token.kind) op) (hne : ts ≠ []) :
    comparator? (ops ++ ts) = some (op, ts) := by
  rcases h.tokens with ⟨p, spaced, rfl⟩ | ⟨rfl, p, q, spaced, spaced', rfl⟩
  · exact comparator?_token op hne
  · exact congrArg (fun us => some (Comparator.notIn, us)) (advance_cons hne)

theorem quiet_comparator (ts : List Token) {ops : List Token} {op : Comparator}
    (h : IsComparator (ops.map Token.kind) op) :
    isQuiet (kind (ops ++ ts)) = true ∧ assignOp? (kind (ops ++ ts)) = none := by
  rcases h.tokens with ⟨p, spaced, rfl⟩ | ⟨rfl, p, q, spaced, spaced', rfl⟩
  · cases op <;> exact ⟨rfl, rfl⟩
  · exact ⟨rfl, rfl⟩

section

variable {mark first test lhs ops rhs : List Token} {sep : Token} {negated : Bool} {fuel : Nat}

theorem condition_assigning {a : Assignment} {c : Condition} (hmark : IsNegation mark negated)
    (hfirst : IsAssignment first a) (hsep : sep.kind = .symbol .semicolon)
    (hfuel : budget (first.length + 1) ≤ fuel) (hne : test ++ rest ≠ [])
    (htest : condition fuel (test ++ rest) = .ok (c, rest)) :
    condition (fuel + 1) (mark ++ (first ++ sep :: test) ++ rest) =
      .ok (.assigning negated (here (mark ++ first)) a c, rest) := by
  have ends : EndsClause (sep :: (test ++ rest)) := endsClause_semicolon hsep
  have hread := hfirst.reads ends hfuel
  have hnot : atWord "not" (first ++ sep :: (test ++ rest)) = false :=
    not_atWord_of_startsTarget (by decide) (startsTarget_of_assignment? hread)
  have hsemicolon : sep.kind.isSymbol .semicolon = true := by rw [hsep]; rfl
  rw [List.append_assoc, List.append_assoc, List.cons_append, condition_eq hmark (by simp) hnot,
    hread]
  simp only []
  rw [expect_cons hsemicolon hne]
  simp only []
  rw [htest, ← List.append_assoc mark, here_append (by simp [hfirst.ne_nil])]
  rfl

/-- Where a command stands, a test reads the command and then looks for a semicolon. -/
theorem condition_command {a : Command} (hmark : IsNegation mark negated)
    (hfirst : IsCommand first a) (ends : EndsClause rest)
    (hfuel : budget (first.length + 1) ≤ fuel) :
    condition (fuel + 1) (mark ++ (first ++ rest)) =
      if at? .semicolon rest then
        (condition fuel (advance rest)).map fun (c, us) =>
          (.commanding negated (here (mark ++ first)) a c, us)
      else .ok (.command negated (here (mark ++ first)) a, rest) := by
  have hstarts : startsCommand (first ++ rest) = true := hfirst.starts
  rw [condition_eq hmark (by simp [ends.ne_nil]) (not_atWord_of_startsCommand (by decide) hstarts),
    assignment?_eq_none (not_startsTarget_of_startsCommand hstarts)]
  simp only [hstarts, if_true]
  rw [hfirst.reads ends hfuel, ← List.append_assoc, here_append (by simp [hfirst.ne_nil])]

/-- Where an expression stands, a test reads a comparison. -/
theorem condition_expression {e : Expr} (hmark : IsNegation mark negated)
    (hlhs : IsExpression lhs e) (hne : rest ≠ []) (quiet : isQuiet (kind rest) = true)
    (notAssign : assignOp? (kind rest) = none) (hfuel : budget (lhs.length + 1) ≤ fuel) :
    condition (fuel + 1) (mark ++ (lhs ++ rest)) =
      match comparator? rest with
      | none => .ok (.comparison negated (here (mark ++ lhs)) e none, rest)
      | some (op, us) =>
          (expression fuel 0 us).map fun (e', us) =>
            (.comparison negated (here (mark ++ lhs)) e (some (op, e')), us) := by
  obtain ⟨hstarts, hnot⟩ := hlhs.not_starts rest
  rw [condition_eq hmark (by simp [hne]) hnot, hlhs.not_assignment hne quiet notAssign hfuel]
  simp only [hstarts, Bool.false_eq_true, if_false]
  rewrite [comparison, hlhs.reads hne quiet hfuel, ← List.append_assoc,
    here_append (by simp [hlhs.ne_nil])]
  rfl

end

/-- **Tests are read in front of what may come after them**, with exactly their parts. -/
theorem IsTest.reads {c : Condition} (h : IsTest ts c) :
    ∀ rest fuel, EndsCondition c rest → budget (ts.length + 1) + 1 ≤ fuel →
      condition fuel (ts ++ rest) = .ok (c, rest) := by
  induction h with
  | @assigning mark first test sep negated a c hmark hfirst hsep _ ih =>
      intro rest fuel ends hfuel
      obtain ⟨fuel, rfl⟩ : ∃ n, fuel = n + 1 := ⟨fuel - 1, by omega⟩
      rw [List.length_append, List.length_append, List.length_cons] at hfuel
      exact condition_assigning hmark hfirst hsep (by unfold budget at *; omega)
        (by simp [ends.ne_nil]) (ih rest fuel ends (by unfold budget at *; omega))
  | @commanding mark first test sep negated a c hmark hfirst hsep _ ih =>
      intro rest fuel ends hfuel
      obtain ⟨fuel, rfl⟩ : ∃ n, fuel = n + 1 := ⟨fuel - 1, by omega⟩
      rw [List.length_append, List.length_append, List.length_cons] at hfuel
      have hat : at? .semicolon (sep :: (test ++ rest)) = true := by rw [at?, kind, hsep]; rfl
      rw [List.append_assoc, List.append_assoc, List.cons_append,
        condition_command hmark hfirst (endsClause_semicolon hsep) (by unfold budget at *; omega),
        if_pos hat, advance_cons (by simp [ends.ne_nil]),
        ih rest fuel ends (by unfold budget at *; omega)]
      rfl
  | @command mark first negated a hmark hfirst =>
      intro rest fuel ends hfuel
      obtain ⟨fuel, rfl⟩ : ∃ n, fuel = n + 1 := ⟨fuel - 1, by omega⟩
      rw [List.length_append] at hfuel
      -- A command that ends a test may only stand in front of a body.
      have hbody : kind rest = .symbol .openBrace := by
        rcases ends with ⟨hk, -⟩ | ⟨-, hends⟩
        · exact hk
        · exact hends.elim
      have hat : at? .semicolon rest = false := by rw [at?, hbody]; rfl
      rw [List.append_assoc, condition_command hmark hfirst ends.endsClause
        (by unfold budget at *; omega), if_neg (ne_true_of_eq_false hat)]
  | @expression mark lhs negated e hmark hlhs =>
      intro rest fuel ends hfuel
      obtain ⟨fuel, rfl⟩ : ∃ n, fuel = n + 1 := ⟨fuel - 1, by omega⟩
      rw [List.length_append] at hfuel
      have ends' := ends.endsClause
      rw [List.append_assoc, condition_expression hmark hlhs ends'.ne_nil ends'.quiet
        ends'.not_assignOp (by unfold budget at *; omega), ends'.no_comparator]
  | @comparison mark lhs ops rhs negated e e' op hmark hlhs hop hrhs =>
      intro rest fuel ends hfuel
      obtain ⟨fuel, rfl⟩ : ∃ n, fuel = n + 1 := ⟨fuel - 1, by omega⟩
      rw [List.length_append, List.length_append, List.length_append] at hfuel
      have ends' := ends.endsClause
      obtain ⟨quiet, notAssign⟩ := quiet_comparator (rhs ++ rest) hop
      rw [List.append_assoc, List.append_assoc, List.append_assoc,
        condition_expression hmark hlhs (by simp [ends'.ne_nil]) quiet notAssign
          (by unfold budget at *; omega),
        comparator?_append hop (by simp [ends'.ne_nil])]
      simp only []
      rw [hrhs.reads ends'.ne_nil ends'.quiet (by unfold budget at *; omega)]
      rfl

/-! ## Headers -/

/-- An assignment is not taken for the header of a loop through elements. -/
theorem not_isItemsHeader_of_assignment? {fuel : Nat} {a : Assignment} {us : List Token}
    (hread : assignment? fuel ts = .ok (some (a, us))) : isItemsHeader ts = false := by
  cases hitems : isItemsHeader ts with
  | false => rfl
  | true =>
      rw [assignment?, startsTarget_of_assignment? hread] at hread
      simp only [Bool.not_true, Bool.false_eq_true, if_false] at hread
      split at hread
      · cases hread
      · next goals after htargets =>
          -- The word `in` would stand where the assignment operator is.
          obtain ⟨-, w, hk⟩ := targets_of_isItemsHeader fuel hitems htargets
          rw [hk] at hread
          cases hread

/-- The first clause of a header looks like a condition, unless it is a command called `count`. -/
theorem IsClause.looksLikeCondition {c : Clause} (h : IsClause ts c)
    (notCount : atWord "count" ts = false) (ends : EndsClause rest) :
    LooksLikeCondition (ts ++ rest) := by
  cases h with
  | assignment h =>
      have hread := h.reads ends (Nat.le_refl _)
      have hstarts := startsTarget_of_assignment? hread
      exact ⟨not_at?_of_startsTarget hstarts, not_atWord_of_startsTarget (by decide) hstarts,
        not_isItemsHeader_of_assignment? hread⟩
  | command h =>
      have hstarts : startsCommand (ts ++ rest) = true := h.starts
      refine ⟨not_at?_of_startsCommand hstarts, ?_, not_isItemsHeader_of_startsCommand hstarts⟩
      rwa [atWord, kind_append h.ne_nil]

/-- The last clause of a header is read in front of the body. -/
theorem IsClause.reads {c : Clause} (h : IsClause ts c) (ends : EndsClause rest) {fuel : Nat}
    (hfuel : budget (ts.length + 1) ≤ fuel) : nextClause fuel (ts ++ rest) = .ok (c, rest) := by
  cases h with
  | assignment h => rw [nextClause, h.reads ends hfuel]
  | command h =>
      have hstarts : startsCommand (ts ++ rest) = true := h.starts
      rw [nextClause, assignment?_eq_none (not_startsTarget_of_startsCommand hstarts)]
      simp only [hstarts, if_true]
      rw [h.reads ends hfuel, here_append h.ne_nil]
      rfl

/-- The first clause and the test are one test, which is taken apart into the two. -/
theorem IsClause.before_test {i : Clause} {c : Condition} {init test : List Token} {sep : Token}
    (hinit : IsClause init i) (hsep : sep.kind = .symbol .semicolon) (htest : IsTest test c) :
    ∃ whole, IsTest (init ++ sep :: test) whole ∧ splitInit whole = .ok (i, c) ∧
      (whole.EndsInComparison ↔ c.EndsInComparison) := by
  cases hinit with
  | assignment h => exact ⟨_, .assigning .absent h hsep htest, rfl, Iff.rfl⟩
  | command h => exact ⟨_, .commanding .absent h hsep htest, rfl, Iff.rfl⟩

/-- **The header of a loop with three clauses is read as these three**, if the test ends in an
expression and the first clause is not a command called `count`. -/
theorem loopMode_bounded {init test next : List Token} {first second : Token} {i n : Clause}
    {c : Condition} (hinit : IsClause init i) (notCount : atWord "count" init = false)
    (htest : IsTest test c) (ends : c.EndsInComparison) (hnext : IsClause next n)
    (hfirst : first.kind = .symbol .semicolon) (hsecond : second.kind = .symbol .semicolon)
    (atBody : AtBody rest) {fuel : Nat}
    (hfuel : budget (init.length + test.length + next.length + 3) ≤ fuel) :
    loopMode fuel (init ++ first :: (test ++ second :: (next ++ rest))) =
      .ok (.bounded i c n, rest) := by
  obtain ⟨whole, hwhole, hsplit, hends⟩ := hinit.before_test hfirst htest
  have hread := hwhole.reads (second :: (next ++ rest)) fuel (.inr ⟨hsecond, hends.mpr ends⟩)
    (by rw [List.length_append, List.length_cons]; unfold budget at *; omega)
  have hat : at? .semicolon (second :: (next ++ rest)) = true := by rw [at?, kind, hsecond]; rfl
  rw [List.append_assoc, List.cons_append] at hread
  rw [loopMode_condition (hinit.looksLikeCondition notCount (endsClause_semicolon hfirst)), hread]
  simp only [hat, if_true, hsplit]
  rw [advance_cons (by simp [atBody.ne_nil]), hnext.reads atBody.endsClause
    (by unfold budget at *; omega)]
  rfl

/-! ## Loops -/

/-- The tokens of `loop INIT; COND; NEXT { }`, of which the first one stands at a place. -/
inductive IsLoop (init test next : List Token) : Position → List Token → Prop
  | intro {loop first second opening closing last : Token} (hloop : atWord "loop" [loop] = true)
      (hfirst : first.kind = .symbol .semicolon) (hsecond : second.kind = .symbol .semicolon)
      (hopening : opening.kind = .symbol .openBrace)
      (hclosing : closing.kind = .symbol .closeBrace) (hlast : last.kind = .endOfInput) :
      IsLoop init test next loop.position
        (loop :: (init ++ first :: (test ++ second :: (next ++ [opening, closing, last]))))

/-- Empty braces are a body, and not the options of a command. -/
theorem atBody_empty (ts : List Token) {opening closing : Token}
    (hopening : opening.kind = .symbol .openBrace)
    (hclosing : closing.kind = .symbol .closeBrace) : AtBody (opening :: closing :: ts) := by
  have hinner : skipNewlines (advance (opening :: closing :: ts)) = closing :: ts :=
    skipNewlines_eq_self (by rw [advance, kind, hclosing]; rfl)
  have hmember : memberName? (kind (closing :: ts)) = none := by rw [kind, hclosing]; rfl
  refine ⟨hopening, ?_⟩
  simp only [startsOptions, hinner, hmember]
  exact Bool.and_false _

theorem body_empty {opening closing : Token} (hopening : opening.kind = .symbol .openBrace)
    (hclosing : closing.kind = .symbol .closeBrace) (hne : ts ≠ []) (fuel : Nat) :
    body (fuel + 2) (opening :: closing :: ts) = .ok ([], ts) := by
  have hskip : skipNewlines (opening :: closing :: ts) = opening :: closing :: ts :=
    skipNewlines_eq_self (by rw [kind, hopening]; rfl)
  have hseparators : skipSeparators (closing :: ts) = closing :: ts := by
    rw [skipSeparators, hclosing]
    rfl
  have hat : at? .closeBrace (closing :: ts) = true := by rw [at?, kind, hclosing]; rfl
  rw [body, hskip, expect_cons (by rw [hopening]; rfl) (by simp)]
  simp only [hseparators]
  rw [statements, if_pos hat, advance_cons hne]

/-- A word in another letter case is still the word. -/
theorem exists_word_of_atWord {w : String} {t : Token} (h : atWord w [t] = true) :
    ∃ v, t.kind = .word v ∧ Decimal.asciiLower v = w := by
  rw [atWord] at h
  split at h
  · next v hv => exact ⟨v, hv, of_decide_eq_true h⟩
  · cases h

/-- A statement that starts with the word `loop` is a loop. -/
theorem statement_loop {t : Token} {fuel : Nat} {mode : LoopMode} {inner : List Statement}
    {us : List Token} (h : atWord "loop" [t] = true) (hne : ts ≠ [])
    (hmode : loopMode fuel ts = .ok (mode, us)) (hbody : body fuel us = .ok (inner, rest)) :
    statement (fuel + 1) (t :: ts) = .ok (.loop mode inner t.position, rest) := by
  obtain ⟨w, hk, hw⟩ := exists_word_of_atWord h
  obtain ⟨k, p, spaced⟩ := t
  obtain rfl : k = .word w := hk
  simp only [statement, kind, hw, advance_cons hne, hmode, hbody]
  rfl

theorem skipSeparators_loop {t : Token} (h : atWord "loop" [t] = true) :
    skipSeparators (t :: ts) = t :: ts := by
  obtain ⟨w, hk, -⟩ := exists_word_of_atWord h
  rw [skipSeparators, hk]
  rfl

/-- Where a script is one loop, the top level reads the loop. -/
theorem topLevel_loop {t last : Token} (h : atWord "loop" [t] = true)
    (hlast : last.kind = .endOfInput) {s : Statement} {fuel : Nat}
    (hread : statement (fuel + 1) (t :: ts) = .ok (s, [last])) :
    topLevel (fuel + 2) (t :: ts) = .ok [.inl s] := by
  obtain ⟨w, hk, hw⟩ := exists_word_of_atWord h
  have hon : atWord "on" (t :: ts) = false := by
    rw [atWord, kind, hk]
    simp only [hw]
    decide
  have hends : endsStatement [last] = true := by rw [endsStatement, kind, hlast]
  have hskip : skipSeparators [last] = [last] := by rw [skipSeparators, hlast]; rfl
  have hrest : topLevel (fuel + 1) [last] = .ok [] := by
    have hend : (kind [last]).isEnd = true := by rw [kind, hlast]; rfl
    rw [topLevel, if_pos hend]
  have notEnd : (kind (t :: ts)).isEnd = false := by rw [kind, hk]; rfl
  rw [topLevel_eq notEnd, block, hon]
  simp only [Bool.false_eq_true, if_false, hread]
  show (if endsStatement [last] then _ else _) = _
  rw [if_pos hends, hskip, hrest]
  rfl

end TabPilot.Grammar

namespace TabPilot.Script

open Grammar

/-- A script of one statement. -/
theorem parse_of_topLevel {source : String} {ts : List Token} {s : Statement}
    (hscan : Token.scan source.toList = .ok ts)
    (htop : topLevel (budget ts.length) (skipSeparators ts) = .ok [.inl s]) :
    parse source = .ok ⟨[s], [], source, none⟩ := by
  rw [parse, read, hscan]
  simp only [ofTokens, htop]
  rfl

/-- A script is `loop INIT; COND; NEXT { }` and nothing else: the word stands at `start`, the tokens
of INIT are `init`, and the three parts are these. -/
def IsBoundedLoop (source : String) (init : List Token) (start : Position) (i : Clause)
    (c : Condition) (n : Clause) : Prop :=
  ∃ ts test next, Token.scan source.toList = .ok ts ∧ IsLoop init test next start ts ∧
    IsClause init i ∧ IsTest test c ∧ IsClause next n

/-- **Loops with three clauses parse to exactly these three**, if the test ends in an expression and
the first clause is not a command called `count`. -/
theorem parse_bounded_loop {source : String} {init : List Token} {start : Position} {i n : Clause}
    {c : Condition} (h : IsBoundedLoop source init start i c n)
    (notCount : atWord "count" init = false) (ends : c.EndsInComparison) :
    parse source = .ok ⟨[.loop (.bounded i c n) [] start], [], source, none⟩ := by
  obtain ⟨_, test, next, hscan, hloop, hinit, htest, hnext⟩ := h
  cases hloop with
  | @intro loop first second opening closing last hword hfirst hsecond hopening hclosing hlast =>
      -- What the top level, the statement and the body take off the budget is not needed.
      obtain ⟨fuel, hbudget, hfuel⟩ : ∃ fuel,
          budget (init.length + test.length + next.length + 6) = fuel + 4 ∧
            budget (init.length + test.length + next.length + 3) ≤ fuel + 2 :=
        ⟨budget (init.length + test.length + next.length + 6) - 4, by unfold budget; omega⟩
      have hmode := loopMode_bounded hinit notCount htest ends hnext hfirst hsecond
        (atBody_empty [last] hopening hclosing) hfuel
      have hbody := body_empty hopening hclosing (List.cons_ne_nil last []) fuel
      have htop := topLevel_loop hword hlast (statement_loop hword (by simp) hmode hbody)
      refine parse_of_topLevel hscan ?_
      have hlength : (loop :: (init ++ first :: (test ++ second ::
          (next ++ [opening, closing, last])))).length =
            init.length + test.length + next.length + 6 := by
        simp only [List.length_cons, List.length_append, List.length_nil]
        omega
      rw [skipSeparators_loop hword, hlength, hbudget, htop]

/-- A token of the first line, behind a blank. -/
def tokenAt (column : Nat) (k : TokenKind) : Token := ⟨k, ⟨1, column⟩, true⟩

/-- A token of the first line, directly behind another one. -/
def tokenAfter (column : Nat) (k : TokenKind) : Token := ⟨k, ⟨1, column⟩, false⟩

/-- The tokens of a loop in one line, with the columns of its semicolons, its braces and its end. -/
def loopTokens (init test next : List Token) (first second opening closing last : Nat) :
    List Token :=
  tokenAt 1 (.word "loop") :: (init ++ tokenAfter first (.symbol .semicolon) ::
    (test ++ tokenAfter second (.symbol .semicolon) ::
      (next ++ [tokenAt opening (.symbol .openBrace), tokenAt closing (.symbol .closeBrace),
        tokenAt last .endOfInput])))

theorem isLoop_loopTokens (init test next : List Token)
    (first second opening closing last : Nat) :
    IsLoop init test next ⟨1, 1⟩ (loopTokens init test next first second opening closing last) := by
  have hloop : atWord "loop" [tokenAt 1 (.word "loop")] = true := by cbv
  exact .intro hloop rfl rfl rfl rfl rfl

/-- The end of input that a phrase stands in front of when it stands alone. -/
theorem kind_end : (tokenAt 1 .endOfInput).kind = .endOfInput := rfl

/-- The tokens of `$i = 0`. -/
def startingTokens : List Token :=
  [tokenAt 6 (.variable "i"), tokenAt 9 (.symbol .assign), tokenAt 11 (.int 0)]

/-- The assignment `$i = 0`. -/
def starting : Assignment := ⟨[.variable ⟨"i", []⟩], .set, [.literal (.int 0)], ⟨1, 6⟩⟩

theorem isAssignment_starting : IsAssignment startingTokens starting := ⟨_, kind_end, by cbv⟩

/-- The tokens of `$i += 1` from a column on. -/
def countingTokens (column : Nat) : List Token :=
  [tokenAt column (.variable "i"), tokenAt (column + 3) (.symbol .addAssign),
    tokenAt (column + 6) (.int 1)]

/-- The assignment `$i += 1` at a column. -/
def counting (column : Nat) : Assignment :=
  ⟨[.variable ⟨"i", []⟩], .add, [.literal (.int 1)], ⟨1, column⟩⟩

theorem isAssignment_counting (column : Nat) :
    IsAssignment (countingTokens column) (counting column) := ⟨_, kind_end, by rfl⟩

/-- A loop whose test has a semicolon of its own. -/
def askingSource : String := "loop $i = 0; get 'k' -> $k; not $i >= $k; $i += 1 \x7b \x7d"

def askingTokens : List Token :=
  [tokenAt 14 (.word "get"), tokenAt 18 (.text "k" false), tokenAt 22 (.symbol .arrow),
    tokenAt 25 (.variable "k"), tokenAfter 27 (.symbol .semicolon), tokenAt 29 (.word "not"),
    tokenAt 33 (.variable "i"), tokenAt 36 (.symbol .atLeast), tokenAt 39 (.variable "k")]

def asking : Condition :=
  .commanding false ⟨1, 14⟩ ⟨"get", some (.text "k" false), none, .variable ⟨"k", []⟩, ⟨1, 14⟩⟩
    (.comparison true ⟨1, 29⟩ (.variable "i" []) (some (.ge, .variable "k" [])))

theorem isTest_asking : IsTest askingTokens asking := by
  have hget : IsCommand [tokenAt 14 (.word "get"), tokenAt 18 (.text "k" false),
      tokenAt 22 (.symbol .arrow), tokenAt 25 (.variable "k")]
      ⟨"get", some (.text "k" false), none, .variable ⟨"k", []⟩, ⟨1, 14⟩⟩ :=
    ⟨by cbv, _, kind_end, by cbv⟩
  have hi : IsExpression [tokenAt 33 (.variable "i")] (.variable "i" []) := ⟨_, kind_end, by cbv⟩
  have hk : IsExpression [tokenAt 39 (.variable "k")] (.variable "k" []) := ⟨_, kind_end, by cbv⟩
  have hnot : IsNegation [tokenAt 29 (.word "not")] true := .present (by cbv)
  have hcompared : IsTest ([tokenAt 29 (.word "not")] ++ ([tokenAt 33 (.variable "i")] ++
      ([tokenAt 36 (.symbol .atLeast)] ++ [tokenAt 39 (.variable "k")])))
      (.comparison true ⟨1, 29⟩ (.variable "i" []) (some (.ge, .variable "k" []))) :=
    .comparison hnot hi (.single .ge) hk
  have htest : IsTest ([] ++ (_ ++ tokenAfter 27 (.symbol .semicolon) :: _)) asking :=
    .commanding .absent hget rfl hcompared
  exact htest

theorem isBoundedLoop_asking : IsBoundedLoop askingSource startingTokens ⟨1, 1⟩
    (.assignment starting) asking (.assignment (counting 43)) := by
  have hscan : Token.scan askingSource.toList =
      .ok (loopTokens startingTokens askingTokens (countingTokens 43) 12 41 51 53 54) := by cbv
  exact ⟨_, _, _, hscan, isLoop_loopTokens .., .assignment isAssignment_starting, isTest_asking,
    .assignment (isAssignment_counting 43)⟩

/-- The loop of `askingSource` is read with its three clauses. -/
theorem parse_bounded_loop_asking :
    IsBoundedLoop askingSource startingTokens ⟨1, 1⟩ (.assignment starting) asking
        (.assignment (counting 43)) ∧
      atWord "count" startingTokens = false ∧ asking.EndsInComparison ∧
      parse askingSource = .ok ⟨[.loop (.bounded (.assignment starting) asking
        (.assignment (counting 43))) [] ⟨1, 1⟩], [], askingSource, none⟩ := by
  have hcount : atWord "count" startingTokens = false := by cbv
  exact ⟨isBoundedLoop_asking, hcount, trivial,
    parse_bounded_loop isBoundedLoop_asking hcount trivial⟩

def commandAt (name : String) (argument : Expr) (column : Nat) : Command :=
  ⟨name, some argument, none, .default, ⟨1, column⟩⟩

/-- A loop whose first clause is a command called `count`. -/
def countSource : String := "loop count 3; $x; put 1 \x7b \x7d"

theorem isBoundedLoop_count : IsBoundedLoop countSource
    [tokenAt 6 (.word "count"), tokenAt 12 (.int 3)] ⟨1, 1⟩
    (.command (commandAt "count" (.literal (.int 3)) 6) ⟨1, 6⟩)
    (.comparison false ⟨1, 15⟩ (.variable "x" []) none)
    (.command (commandAt "put" (.literal (.int 1)) 19) ⟨1, 19⟩) := by
  have hcount : IsCommand [tokenAt 6 (.word "count"), tokenAt 12 (.int 3)]
      (commandAt "count" (.literal (.int 3)) 6) := ⟨by cbv, _, kind_end, by cbv⟩
  have hx : IsExpression [tokenAt 15 (.variable "x")] (.variable "x" []) := ⟨_, kind_end, by cbv⟩
  have htest : IsTest [tokenAt 15 (.variable "x")]
      (.comparison false ⟨1, 15⟩ (.variable "x" []) none) := .expression .absent hx
  have hput : IsCommand [tokenAt 19 (.word "put"), tokenAt 23 (.int 1)]
      (commandAt "put" (.literal (.int 1)) 19) := ⟨by cbv, _, kind_end, by cbv⟩
  have hscan : Token.scan countSource.toList =
      .ok (loopTokens [tokenAt 6 (.word "count"), tokenAt 12 (.int 3)] [tokenAt 15 (.variable "x")]
        [tokenAt 19 (.word "put"), tokenAt 23 (.int 1)] 13 17 25 27 28) := by cbv
  exact ⟨_, _, _, hscan, isLoop_loopTokens .., .command hcount, htest, .command hput⟩

def bareSource : String := "loop $i = 0; get 'x'; $i += 1 \x7b \x7d"

theorem isBoundedLoop_bare : IsBoundedLoop bareSource startingTokens ⟨1, 1⟩ (.assignment starting)
    (.command false ⟨1, 14⟩ (commandAt "get" (.text "x" false) 14))
    (.assignment (counting 23)) := by
  have hget : IsCommand [tokenAt 14 (.word "get"), tokenAt 18 (.text "x" false)]
      (commandAt "get" (.text "x" false) 14) := ⟨by cbv, _, kind_end, by cbv⟩
  have htest : IsTest [tokenAt 14 (.word "get"), tokenAt 18 (.text "x" false)]
      (.command false ⟨1, 14⟩ (commandAt "get" (.text "x" false) 14)) := .command .absent hget
  have hscan : Token.scan bareSource.toList =
      .ok (loopTokens startingTokens [tokenAt 14 (.word "get"), tokenAt 18 (.text "x" false)]
        (countingTokens 23) 12 21 31 33 34) := by cbv
  exact ⟨_, _, _, hscan, isLoop_loopTokens .., .assignment isAssignment_starting, htest,
    .assignment (isAssignment_counting 23)⟩

/-- A first clause called `count` starts a counting loop, and a command at the end of a test takes
the last clause for a test of its own: neither is read as a loop of three clauses. -/
theorem bounded_loop_misread :
    (IsBoundedLoop countSource [tokenAt 6 (.word "count"), tokenAt 12 (.int 3)] ⟨1, 1⟩
        (.command (commandAt "count" (.literal (.int 3)) 6) ⟨1, 6⟩)
        (.comparison false ⟨1, 15⟩ (.variable "x" []) none)
        (.command (commandAt "put" (.literal (.int 1)) 19) ⟨1, 19⟩) ∧
      ∃ fault, parse countSource = .error fault) ∧
    (IsBoundedLoop bareSource startingTokens ⟨1, 1⟩ (.assignment starting)
        (.command false ⟨1, 14⟩ (commandAt "get" (.text "x" false) 14))
        (.assignment (counting 23)) ∧
      ∃ fault, parse bareSource = .error fault) := by
  have hcount : read countSource = .error ⟨.expected (.symbol .openBrace), ⟨1, 13⟩⟩ := by cbv
  have hbare : read bareSource = .error ⟨.expected (.symbol .semicolon), ⟨1, 31⟩⟩ := by cbv
  refine ⟨⟨isBoundedLoop_count, ?_⟩, isBoundedLoop_bare, ?_⟩
  · rw [parse, hcount]
    exact ⟨_, rfl⟩
  · rw [parse, hbare]
    exact ⟨_, rfl⟩

end TabPilot.Script
