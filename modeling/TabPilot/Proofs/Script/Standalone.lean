import TabPilot.Proofs.Outcome
import TabPilot.Proofs.Script.Headers

set_option autoImplicit false

/-! # Phrases that stand alone

What the reader makes of an expression, an assignment or a command does not depend on what comes
after it, as long as that does not go on with it: if it is read to the end of the input where it
stands alone, then the same is read where something else comes next, and how deep the reader may
go does not matter once it was deep enough. `Swaps` relates what is left of the tokens in the two
situations, and `Carries` says that one function of the grammar reads in the second situation what
another one reads in the first.
-/

namespace TabPilot.Grammar

/-! ## In front of the end, and in front of something else -/

/-- Whether a token ends an expression in brackets or not just as the end of input does: it does not
go on with an expression or a list, ends no line and closes nothing. -/
def isQuiet (k : TokenKind) : Bool :=
  endsList k && !k.isNewline && !k.isSymbol .closeBracket && !k.isSymbol .closeBrace

/-- The end of input, and other tokens in front of which an expression ends as well. -/
structure EndsAlike (last : Token) (rest : List Token) : Prop where
  isEnd : last.kind = .endOfInput
  nonempty : rest ≠ []
  quiet : isQuiet (kind rest) = true

/-- The same tokens are left, in front of the end of input and in front of others. -/
def Swaps (last : Token) (rest ts ts' : List Token) : Prop :=
  ∃ us, ts = us ++ [last] ∧ ts' = us ++ rest

variable {last : Token} {rest ts ts' : List Token}

/-- What the first function reads, the second one reads where other tokens come next. -/
def Carries {α : Type} (last : Token) (rest : List Token) (read read' : List Token → Parsed α) :
    Prop :=
  ∀ ts ts' a us, Swaps last rest ts ts' → read ts = .ok (a, us) →
    ∃ us', read' ts' = .ok (a, us') ∧ Swaps last rest us us'

namespace EndsAlike

variable (alike : EndsAlike last rest)
include alike

theorem endsList : endsList (kind rest) = true := by
  have h := alike.quiet
  simp only [isQuiet, Bool.and_eq_true] at h
  exact h.1.1.1

theorem stops : stops (kind rest) = true := stops_of_endsList alike.endsList

theorem not_newline : (kind rest).isNewline = false := by
  have h := alike.quiet
  simp only [isQuiet, Bool.and_eq_true, Bool.not_eq_true'] at h
  exact h.1.1.2

theorem not_minus : at? .minus rest = false := by
  have h := leftOperator?_of_stops alike.stops
  cases hat : at? .minus rest with
  | false => rfl
  | true =>
      rw [eq_symbol_of_isSymbol hat] at h
      cases h

theorem not_comma : at? .comma rest = false := by
  have h := alike.endsList
  simp only [Grammar.endsList, Bool.and_eq_true, Bool.not_eq_true'] at h
  exact h.2

theorem not_closeBracket : at? .closeBracket rest = false := by
  have h := alike.quiet
  simp only [isQuiet, Bool.and_eq_true, Bool.not_eq_true'] at h
  exact h.1.2

theorem not_closeBrace : at? .closeBrace rest = false := by
  have h := alike.quiet
  simp only [isQuiet, Bool.and_eq_true, Bool.not_eq_true'] at h
  exact h.2

end EndsAlike

namespace Swaps

theorem refl : Swaps last rest [last] rest := ⟨[], rfl, rfl⟩

/-- Nothing is left but what comes next, or the same token is next. -/
theorem nil_or_cons (h : Swaps last rest ts ts') :
    ts = [last] ∧ ts' = rest ∨
      ∃ t us us', ts = t :: us ∧ ts' = t :: us' ∧ Swaps last rest us us' := by
  obtain ⟨us, rfl, rfl⟩ := h
  cases us with
  | nil => exact .inl ⟨rfl, rfl⟩
  | cons t us => exact .inr ⟨t, _, _, rfl, rfl, us, rfl, rfl⟩

theorem eq_rest (h : Swaps last rest [last] ts') : ts' = rest := by
  obtain ⟨us, hus, rfl⟩ := h
  have hlength := congrArg List.length hus
  rw [List.length_append] at hlength
  obtain rfl : us = [] := List.length_eq_zero_iff.mp (Nat.add_right_cancel hlength.symm)
  rfl

variable (alike : EndsAlike last rest) (h : Swaps last rest ts ts')
include alike h

theorem nonempty : ts ≠ [] ∧ ts' ≠ [] := by
  obtain ⟨us, rfl, rfl⟩ := h
  exact ⟨by simp, by simp [alike.nonempty]⟩

theorem kind_eq {k : TokenKind} (hk : kind ts = k) (notEnd : k ≠ .endOfInput) : kind ts' = k := by
  rcases h.nil_or_cons with ⟨rfl, rfl⟩ | ⟨t, us, us', rfl, rfl, -⟩
  · exact absurd (hk.symm.trans alike.isEnd) notEnd
  · exact hk

theorem here_eq (notEnd : kind ts ≠ .endOfInput) : here ts' = here ts := by
  rcases h.nil_or_cons with ⟨rfl, rfl⟩ | ⟨t, us, us', rfl, rfl, -⟩
  · exact absurd alike.isEnd notEnd
  · rfl

/-- Whatever does not tell what comes next from the end of input is the same for both. -/
theorem apply_kind {α : Type} (f : TokenKind → α) (same : f (kind rest) = f .endOfInput) :
    f (kind ts') = f (kind ts) := by
  rcases h.nil_or_cons with ⟨rfl, rfl⟩ | ⟨t, us, us', rfl, rfl, -⟩
  · rw [same, kind, alike.isEnd]
  · rfl

theorem at?_eq {s : Symbol} (notNext : at? s rest = false) : at? s ts' = at? s ts :=
  h.apply_kind alike (TokenKind.isSymbol s) notNext

theorem advance (notEnd : kind ts ≠ .endOfInput) :
    Swaps last rest (advance ts) (advance ts') := by
  rcases h.nil_or_cons with ⟨rfl, rfl⟩ | ⟨t, us, us', rfl, rfl, hrest⟩
  · exact absurd alike.isEnd notEnd
  · obtain ⟨hne, hne'⟩ := nonempty alike hrest
    rwa [advance_cons hne, advance_cons hne']

/-- A token that does not end the input is the same in both situations, and can be taken off. -/
theorem take {k : TokenKind} (hk : kind ts = k) (notEnd : k.isEnd = false) :
    kind ts' = k ∧ Swaps last rest (Grammar.advance ts) (Grammar.advance ts') := by
  have hne : k ≠ .endOfInput := by
    rintro rfl
    cases notEnd
  exact ⟨h.kind_eq alike hk hne, h.advance alike (by rwa [hk])⟩

theorem advance_of_at {s : Symbol} (hat : at? s ts = true) :
    Swaps last rest (Grammar.advance ts) (Grammar.advance ts') := by
  refine h.advance alike fun hend => ?_
  rw [at?, hend] at hat
  cases hat

theorem skipNewlines : Swaps last rest (skipNewlines ts) (skipNewlines ts') := by
  obtain ⟨us, rfl, rfl⟩ := h
  induction us with
  | nil =>
      have hlast : (kind [last]).isNewline = false := by rw [kind, alike.isEnd]; rfl
      rw [List.nil_append, List.nil_append, skipNewlines_eq_self hlast,
        skipNewlines_eq_self alike.not_newline]
      exact .refl
  | cons t us ih =>
      simp only [List.cons_append, Grammar.skipNewlines]
      split
      · exact ih
      · exact ⟨t :: us, rfl, rfl⟩

theorem expect {s : Symbol} {us : List Token} (hread : expect s ts = .ok us) :
    ∃ us', Grammar.expect s ts' = .ok us' ∧ Swaps last rest us us' := by
  rw [Grammar.expect] at hread
  split at hread
  · next hat =>
      obtain rfl := Except.ok.inj hread
      have hat' : at? s ts' = true := by
        rw [at?, (h.take alike (eq_symbol_of_isSymbol hat) rfl).1]
        exact decide_eq_true rfl
      exact ⟨_, if_pos hat', h.advance_of_at alike hat⟩
  · cases hread

end Swaps

/-- What is read first is read first, and then the rest. -/
theorem Carries.apply {α : Type} {read read' : List Token → Parsed α}
    (h : Carries last rest read read') {a : α} {us : List Token} (swaps : Swaps last rest ts ts')
    (hread : read ts = .ok (a, us)) : ∃ us', read' ts' = .ok (a, us') ∧ Swaps last rest us us' :=
  h ts ts' a us swaps hread

/-- What was read may be changed. -/
theorem Carries.map {α β : Type} {read read' : List Token → Parsed α}
    (h : Carries last rest read read') (f : α → β) :
    Carries last rest (fun ts => (read ts).map fun (a, us) => (f a, us))
      fun ts => (read' ts).map fun (a, us) => (f a, us) := by
  intro ts ts' b us swaps hmapped
  obtain ⟨⟨a, vs⟩, hread, heq⟩ := exists_of_map_eq_ok hmapped
  obtain ⟨rfl, rfl⟩ := Prod.mk.inj heq
  obtain ⟨vs', hread', swaps'⟩ := h.apply swaps hread
  exact ⟨vs', by simp only [hread']; rfl, swaps'⟩

/-! ## Expressions -/

/-- What the functions carry that read expressions, when they may go as deep as `fuel` in front of
the end of input, and at least as deep in front of something else. -/
structure CarriesExpressions (last : Token) (rest : List Token) (fuel : Nat) : Prop where
  expression : ∀ fuel', fuel ≤ fuel' → ∀ level,
    Carries last rest (expression fuel level) (expression fuel' level)
  operators : ∀ fuel', fuel ≤ fuel' → ∀ level lhs,
    Carries last rest (operators fuel level lhs) (operators fuel' level lhs)
  operand : ∀ fuel', fuel ≤ fuel' → Carries last rest (operand fuel) (operand fuel')
  primary : ∀ fuel', fuel ≤ fuel' → Carries last rest (primary fuel) (primary fuel')
  items : ∀ fuel', fuel ≤ fuel' → Carries last rest (items fuel) (items fuel')
  entries : ∀ fuel', fuel ≤ fuel' → Carries last rest (entries fuel) (entries fuel')
  accessors : ∀ fuel', fuel ≤ fuel' → Carries last rest (accessors fuel) (accessors fuel')

/-- Where no accessor starts, none is read. -/
theorem accessors_nil {fuel : Nat} {ts : List Token} (hne : ts ≠ [])
    (h : endsAccessors (kind ts) = true) : accessors (fuel + 1) ts = .ok ([], ts) :=
  (reads_accessors_nil (Nat.succ_pos fuel)).apply (fun _ => (⟨1, 1⟩, false)) hne h

/-- What a token names that stands after a dot. -/
def step? : TokenKind → Option Accessor
  | .word w => some (.field w)
  | .int i => some (.field (toString i))
  | .variable name => some (.index (.variable name []))
  | _ => none

/-- The accessors after a dot. -/
theorem accessors_dot (fuel : Nat) (p : Position) (ts : List Token) :
    accessors (fuel + 1) (⟨.symbol .dot, p, false⟩ :: ts) =
      match step? (kind (advance (⟨.symbol .dot, p, false⟩ :: ts))) with
      | none => fail (.expected .fieldName) (advance (⟨.symbol .dot, p, false⟩ :: ts))
      | some step =>
          match accessors fuel (advance (advance (⟨.symbol .dot, p, false⟩ :: ts))) with
          | .ok (steps, us) => .ok (step :: steps, us)
          | .error e => .error e := by
  rewrite [accessors]
  rfl

/-- The accessors after an opening bracket. -/
theorem accessors_index (fuel : Nat) (p : Position) (ts : List Token) :
    accessors (fuel + 1) (⟨.symbol .openBracket, p, false⟩ :: ts) =
      match expression fuel 0 (advance (⟨.symbol .openBracket, p, false⟩ :: ts)) with
      | .error e => .error e
      | .ok (index, us) =>
          match expect .closeBracket us with
          | .error e => .error e
          | .ok us =>
              match accessors fuel us with
              | .ok (steps, us) => .ok (.index index :: steps, us)
              | .error e => .error e := by
  rewrite [accessors]
  rfl

/-- No accessors before any other token. -/
theorem accessors_other {fuel : Nat} {k : TokenKind} {spaced : Bool}
    (notDot : ¬(k = .symbol .dot ∧ spaced = false))
    (notIndex : ¬(k = .symbol .openBracket ∧ spaced = false)) (p : Position) (ts : List Token) :
    accessors (fuel + 1) (⟨k, p, spaced⟩ :: ts) = .ok ([], ⟨k, p, spaced⟩ :: ts) := by
  unfold accessors
  split
  · next heq =>
      obtain ⟨hk, -, hspaced⟩ := Token.mk.inj (List.cons.inj heq).1
      exact absurd ⟨hk, hspaced⟩ notDot
  · next heq =>
      obtain ⟨hk, -, hspaced⟩ := Token.mk.inj (List.cons.inj heq).1
      exact absurd ⟨hk, hspaced⟩ notIndex
  · rfl

section

variable {fuel fuel' : Nat} (ih : CarriesExpressions last rest fuel)
  (alike : EndsAlike last rest) (le : fuel ≤ fuel')
include ih alike le

omit alike in
theorem carries_expression (level : Nat) :
    Carries last rest (expression (fuel + 1) level) (expression (fuel' + 1) level) := by
  intro ts ts' e us swaps hread
  rw [expression] at hread ⊢
  split at hread
  · next lhs vs hlhs =>
      obtain ⟨vs', hlhs', swaps⟩ := (ih.operand fuel' le).apply swaps hlhs
      rw [hlhs']
      exact (ih.operators fuel' le level lhs).apply swaps hread
  · cases hread

theorem carries_operators (level : Nat) (lhs : Expr) :
    Carries last rest (operators (fuel + 1) level lhs) (operators (fuel' + 1) level lhs) := by
  intro ts ts' e us swaps hread
  have hsame : leftOperator? (kind ts') = leftOperator? (kind ts) :=
    swaps.apply_kind alike leftOperator? (leftOperator?_of_stops alike.stops)
  rw [operators] at hread ⊢
  rw [hsame]
  split at hread
  · next op tightness hop =>
    split at hread
    · next hlevel =>
      have notEnd : kind ts ≠ .endOfInput := fun hend => by rw [hend] at hop; cases hop
      split at hread
      · next rhs vs hrhs =>
          obtain ⟨vs', hrhs', swaps⟩ := (ih.expression fuel' le (tightness + 1)).apply
            ((swaps.advance alike notEnd).skipNewlines alike) hrhs
          simp only [if_pos hlevel, hrhs']
          exact (ih.operators fuel' le level _).apply swaps hread
      · cases hread
    · next hlevel =>
        cases hread
        exact ⟨ts', if_neg hlevel, swaps⟩
  · cases hread
    exact ⟨ts', rfl, swaps⟩

theorem carries_operand : Carries last rest (operand (fuel + 1)) (operand (fuel' + 1)) := by
  intro ts ts' e us swaps hread
  have hminus : at? .minus ts' = at? .minus ts := swaps.at?_eq alike alike.not_minus
  rw [operand] at hread ⊢
  rw [hminus]
  split at hread
  · next hat =>
      split at hread
      · next inner vs hinner =>
          obtain ⟨vs', hinner', swaps⟩ := (ih.operand fuel' le).apply
            (swaps.advance_of_at alike hat) hinner
          cases hread
          exact ⟨vs', by simp only [if_pos hat, hinner'], swaps⟩
      · cases hread
  · next hat =>
      split at hread
      · next base vs hbase =>
          obtain ⟨vs', hbase', swaps⟩ := (ih.primary fuel' le).apply swaps hbase
          have hpower : at? .power vs' = at? .power vs :=
            swaps.at?_eq alike (not_power_of_stops alike.stops)
          simp only [if_neg hat, hbase', hpower]
          split at hread
          · next hat =>
              split at hread
              · next exponent ws hexponent =>
                  obtain ⟨ws', hexponent', swaps⟩ := (ih.operand fuel' le).apply
                    (swaps.advance_of_at alike hat) hexponent
                  cases hread
                  exact ⟨ws', by simp only [if_pos hat, hexponent'], swaps⟩
              · cases hread
          · next hat =>
              cases hread
              exact ⟨vs', if_neg hat, swaps⟩
      · cases hread

omit ih le in
/-- What closes a bracket is taken off in both situations. -/
theorem carries_closing {α : Type} {s : Symbol} {a b : α} {us : List Token}
    (swaps : Swaps last rest ts ts')
    (hread : (Grammar.expect s (skipNewlines ts)).map (fun vs => (a, vs)) = .ok (b, us)) :
    ∃ us', (Grammar.expect s (skipNewlines ts')).map (fun vs => (a, vs)) = .ok (b, us') ∧
      Swaps last rest us us' := by
  obtain ⟨vs, hexpect, heq⟩ := exists_of_map_eq_ok hread
  obtain ⟨vs', hexpect', swaps⟩ := (swaps.skipNewlines alike).expect alike hexpect
  cases heq
  exact ⟨vs', by rw [hexpect']; rfl, swaps⟩

theorem carries_primary : Carries last rest (primary (fuel + 1)) (primary (fuel' + 1)) := by
  intro ts ts' e us swaps hread
  rw [primary] at hread ⊢
  -- The cases of `primary` in their order: literals, then what has parts.
  split at hread
  · next hk =>
      obtain ⟨hk', swaps⟩ := swaps.take alike hk rfl
      cases hread
      exact ⟨_, by rw [hk'], swaps⟩
  · next hk =>
      obtain ⟨hk', swaps⟩ := swaps.take alike hk rfl
      cases hread
      exact ⟨_, by rw [hk'], swaps⟩
  · next hk =>
      obtain ⟨hk', swaps⟩ := swaps.take alike hk rfl
      cases hread
      exact ⟨_, by rw [hk'], swaps⟩
  · next hk =>
      obtain ⟨hk', swaps⟩ := swaps.take alike hk rfl
      cases hread
      exact ⟨_, by rw [hk'], swaps⟩
  · next name hk =>
      obtain ⟨hk', swaps⟩ := swaps.take alike hk rfl
      rw [hk']
      split at hread
      · next steps vs hsteps =>
          obtain ⟨vs', hsteps', swaps⟩ := (ih.accessors fuel' le).apply swaps hsteps
          cases hread
          exact ⟨vs', by simp only [hsteps'], swaps⟩
      · cases hread
  · next hk =>
      obtain ⟨hk', swaps⟩ := swaps.take alike hk rfl
      rw [hk']
      split at hread
      · next inner vs hinner =>
          obtain ⟨vs', hinner', swaps⟩ :=
            (ih.items fuel' le).apply (swaps.skipNewlines alike) hinner
          simp only [hinner']
          exact carries_closing alike swaps hread
      · cases hread
  · next hk =>
      obtain ⟨hk', swaps⟩ := swaps.take alike hk rfl
      rw [hk']
      split at hread
      · next inner vs hinner =>
          obtain ⟨vs', hinner', swaps⟩ :=
            (ih.entries fuel' le).apply (swaps.skipNewlines alike) hinner
          simp only [hinner']
          exact carries_closing alike swaps hread
      · cases hread
  · next hk =>
      obtain ⟨hk', swaps⟩ := swaps.take alike hk rfl
      rw [hk']
      split at hread
      · next inner vs hinner =>
          obtain ⟨vs', hinner', swaps⟩ :=
            (ih.expression fuel' le 0).apply (swaps.skipNewlines alike) hinner
          simp only [hinner']
          exact carries_closing alike swaps hread
      · cases hread
  · next w hk =>
      obtain ⟨hk', swaps⟩ := swaps.take alike hk rfl
      rw [hk']
      split at hread
      · next v hv =>
          cases hread
          exact ⟨_, by simp only [hv], swaps⟩
      · cases hread
  · cases hread

theorem carries_items : Carries last rest (items (fuel + 1)) (items (fuel' + 1)) := by
  intro ts ts' es us swaps hread
  rw [items] at hread ⊢
  rw [swaps.at?_eq alike alike.not_closeBracket]
  split at hread
  · next hat =>
      cases hread
      exact ⟨ts', if_pos hat, swaps⟩
  · next hat =>
      rw [if_neg hat]
      split at hread
      · cases hread
      · next first vs hfirst =>
          obtain ⟨vs', hfirst', swaps⟩ := (ih.expression fuel' le 0).apply swaps hfirst
          have swaps := swaps.skipNewlines alike
          simp only [hfirst', swaps.at?_eq alike alike.not_comma]
          simp only [] at hread
          split at hread
          · next hcomma =>
              rw [if_pos hcomma]
              split at hread
              · next more ws hmore =>
                  obtain ⟨ws', hmore', swaps⟩ := (ih.items fuel' le).apply
                    ((swaps.advance_of_at alike hcomma).skipNewlines alike) hmore
                  cases hread
                  exact ⟨ws', by rw [hmore'], swaps⟩
              · cases hread
          · next hcomma =>
              cases hread
              exact ⟨_, if_neg hcomma, swaps⟩

theorem carries_entries : Carries last rest (entries (fuel + 1)) (entries (fuel' + 1)) := by
  intro ts ts' es us swaps hread
  rw [entries] at hread ⊢
  rw [swaps.at?_eq alike alike.not_closeBrace]
  -- An entry is a name, a colon and a value; more of them follow a comma.
  split at hread
  · next hat =>
      cases hread
      exact ⟨ts', if_pos hat, swaps⟩
  · next hat =>
      rw [if_neg hat]
      split at hread
      · cases hread
      · next name hname =>
          have notEnd : kind ts ≠ .endOfInput := fun hend => by rw [hend] at hname; cases hname
          rw [swaps.kind_eq alike rfl notEnd]
          simp only [hname]
          split at hread
          · cases hread
          · next vs hcolon =>
              obtain ⟨vs', hcolon', swaps⟩ := (swaps.advance alike notEnd).expect alike hcolon
              simp only [hcolon']
              split at hread
              · cases hread
              · next first ws hfirst =>
                  obtain ⟨ws', hfirst', swaps⟩ := (ih.expression fuel' le 0).apply
                    (swaps.skipNewlines alike) hfirst
                  have swaps := swaps.skipNewlines alike
                  simp only [hfirst', swaps.at?_eq alike alike.not_comma]
                  simp only [] at hread
                  split at hread
                  · next hcomma =>
                      rw [if_pos hcomma]
                      split at hread
                      · next more xs hmore =>
                          obtain ⟨xs', hmore', swaps⟩ := (ih.entries fuel' le).apply
                            ((swaps.advance_of_at alike hcomma).skipNewlines alike) hmore
                          cases hread
                          exact ⟨xs', by rw [hmore'], swaps⟩
                      · cases hread
                  · next hcomma =>
                      cases hread
                      exact ⟨_, if_neg hcomma, swaps⟩

theorem carries_accessors : Carries last rest (accessors (fuel + 1)) (accessors (fuel' + 1)) := by
  intro ts ts' steps us swaps hread
  -- Where the tokens end no accessor is read, before the one end as before the other.
  rcases swaps.nil_or_cons with ⟨rfl, rfl⟩ | ⟨⟨k, p, spaced⟩, vs, vs', rfl, rfl, -⟩
  · have hlast : endsAccessors (kind [last]) = true := by rw [kind, alike.isEnd]; rfl
    rw [accessors_nil (by simp) hlast] at hread
    cases hread
    exact ⟨ts', accessors_nil alike.nonempty (endsAccessors_of_stops alike.stops), swaps⟩
  by_cases hdot : k = .symbol .dot ∧ spaced = false
  · obtain ⟨rfl, rfl⟩ := hdot
    have swaps := (swaps.take alike rfl rfl).2
    rw [accessors_dot] at hread ⊢
    generalize Grammar.advance (⟨.symbol .dot, p, false⟩ :: vs) = ws at hread swaps
    generalize Grammar.advance (⟨.symbol .dot, p, false⟩ :: vs') = ws' at swaps ⊢
    split at hread
    · cases hread
    · next step hstep =>
        have notEnd : kind ws ≠ .endOfInput := fun hend => by rw [hend] at hstep; cases hstep
        rw [swaps.kind_eq alike rfl notEnd, hstep]
        split at hread
        · next more xs hmore =>
            obtain ⟨xs', hmore', swaps⟩ := (ih.accessors fuel' le).apply
              (swaps.advance alike notEnd) hmore
            cases hread
            exact ⟨xs', by simp only [hmore'], swaps⟩
        · cases hread
  by_cases hindex : k = .symbol .openBracket ∧ spaced = false
  · obtain ⟨rfl, rfl⟩ := hindex
    have swaps := (swaps.take alike rfl rfl).2
    rw [accessors_index] at hread ⊢
    split at hread
    · cases hread
    · next index xs hexpression =>
        obtain ⟨xs', hexpression', swaps⟩ := (ih.expression fuel' le 0).apply swaps hexpression
        simp only [hexpression']
        split at hread
        · cases hread
        · next ys hexpect =>
            obtain ⟨ys', hexpect', swaps⟩ := swaps.expect alike hexpect
            simp only [hexpect']
            split at hread
            · next more zs hmore =>
                obtain ⟨zs', hmore', swaps⟩ := (ih.accessors fuel' le).apply swaps hmore
                cases hread
                exact ⟨zs', by rw [hmore'], swaps⟩
            · cases hread
  · rw [accessors_other hdot hindex] at hread ⊢
    cases hread
    exact ⟨_, rfl, swaps⟩

end

/-- Nothing is read when the reader may not go any deeper. -/
theorem carriesExpressions_zero (last : Token) (rest : List Token) :
    CarriesExpressions last rest 0 where
  expression _ _ _ _ _ _ _ _ hread := by cases hread
  operators _ _ _ _ _ _ _ _ _ hread := by cases hread
  operand _ _ _ _ _ _ _ hread := by cases hread
  primary _ _ _ _ _ _ _ hread := by cases hread
  items _ _ _ _ _ _ _ hread := by cases hread
  entries _ _ _ _ _ _ _ hread := by cases hread
  accessors _ _ _ _ _ _ _ hread := by cases hread

/-- **Expressions are read in front of other tokens as they are in front of the end of input.** -/
theorem carriesExpressions (alike : EndsAlike last rest) :
    ∀ fuel, CarriesExpressions last rest fuel
  | 0 => carriesExpressions_zero last rest
  | fuel + 1 => by
      have ih := carriesExpressions alike fuel
      constructor
      all_goals
        intro fuel' le
        obtain ⟨fuel', rfl⟩ : ∃ n, fuel' = n + 1 := ⟨fuel' - 1, by omega⟩
        replace le := Nat.le_of_succ_le_succ le
      · exact carries_expression ih le
      · exact carries_operators ih alike le
      · exact carries_operand ih alike le
      · exact carries_primary ih alike le
      · exact carries_items ih alike le
      · exact carries_entries ih alike le
      · exact carries_accessors ih alike le

/-! ## Assignments -/

theorem carries_reference (alike : EndsAlike last rest) {fuel fuel' : Nat} (le : fuel ≤ fuel') :
    Carries last rest (reference fuel) (reference fuel') := by
  intro ts ts' v us swaps hread
  rw [reference] at hread ⊢
  split at hread
  · next name hk =>
      obtain ⟨hk', swaps⟩ := swaps.take alike hk rfl
      rw [hk']
      exact (((carriesExpressions alike fuel).accessors fuel' le).map _).apply swaps hread
  · cases hread

theorem carries_target (alike : EndsAlike last rest) {fuel fuel' : Nat} (le : fuel ≤ fuel') :
    Carries last rest (target fuel) (target fuel') := by
  intro ts ts' goal us swaps hread
  have notEnd : kind ts ≠ .endOfInput := by
    intro hend
    rw [target, reference, atWord, hend] at hread
    cases hread
  have hword : atWord "_" ts' = atWord "_" ts := by
    rw [atWord, atWord, swaps.kind_eq alike rfl notEnd]
  rw [target] at hread ⊢
  rw [hword]
  split at hread
  · next hskip =>
      cases hread
      exact ⟨_, if_pos hskip, swaps.advance alike notEnd⟩
  · next hskip =>
      rw [if_neg hskip]
      exact ((carries_reference alike le).map _).apply swaps hread

/-- A loop over commas carries what its elements carry. -/
theorem CommaLoop.carries {α : Type} {loop : Nat → List Token → Parsed (List α)}
    {element : Nat → List Token → Parsed α} {skip : List Token → List Token}
    (hloop : CommaLoop loop element skip) (alike : EndsAlike last rest)
    (helement : ∀ fuel fuel', fuel ≤ fuel' → Carries last rest (element fuel) (element fuel'))
    (hskip : ∀ ts ts', Swaps last rest ts ts' → Swaps last rest (skip ts) (skip ts')) :
    ∀ fuel fuel', fuel ≤ fuel' → Carries last rest (loop fuel) (loop fuel')
  | 0, _, _ => fun ts _ _ _ _ hread => absurd hread (hloop.zero ts _)
  | fuel + 1, fuel', le => by
      obtain ⟨fuel', rfl⟩ : ∃ n, fuel' = n + 1 := ⟨fuel' - 1, by omega⟩
      replace le := Nat.le_of_succ_le_succ le
      intro ts ts' as us swaps hread
      rw [hloop.succ] at hread ⊢
      split at hread
      · cases hread
      · next first vs hfirst =>
          obtain ⟨vs', hfirst', swaps⟩ := (helement fuel fuel' le).apply swaps hfirst
          simp only [hfirst', swaps.at?_eq alike alike.not_comma]
          split at hread
          · next hcomma =>
              simp only [if_pos hcomma]
              exact ((hloop.carries alike helement hskip fuel fuel' le).map _).apply
                (hskip _ _ (swaps.advance_of_at alike hcomma)) hread
          · next hcomma =>
              cases hread
              exact ⟨vs', if_neg hcomma, swaps⟩

theorem carries_targets (alike : EndsAlike last rest) {fuel fuel' : Nat} (le : fuel ≤ fuel') :
    Carries last rest (targets fuel) (targets fuel') :=
  commaLoop_targets.carries alike (fun _ _ => carries_target alike) (fun _ _ h => h) fuel fuel' le

theorem carries_sources (alike : EndsAlike last rest) {fuel fuel' : Nat} (le : fuel ≤ fuel') :
    Carries last rest (sources fuel) (sources fuel') :=
  commaLoop_sources.carries alike
    (fun fuel fuel' le => (carriesExpressions alike fuel).expression fuel' le 0)
    (fun _ _ h => h.skipNewlines alike) fuel fuel' le

/-- An assignment is read in front of other tokens as it is in front of the end of input. -/
theorem carries_assignment (alike : EndsAlike last rest) {fuel fuel' : Nat} (le : fuel ≤ fuel')
    {a : Assignment} {us : List Token} (swaps : Swaps last rest ts ts')
    (hread : assignment? fuel ts = .ok (some (a, us))) :
    ∃ us', assignment? fuel' ts' = .ok (some (a, us')) ∧ Swaps last rest us us' := by
  rw [assignment?] at hread ⊢
  split at hread
  · cases hread
  · next hstarts =>
      have notEnd : kind ts ≠ .endOfInput := by
        intro hend
        rw [startsTarget, hend] at hstarts
        exact hstarts rfl
      have hstarts' : ¬(!startsTarget ts') = true := by
        rwa [startsTarget, swaps.kind_eq alike rfl notEnd]
      rw [if_neg hstarts']
      split at hread
      · cases hread
      · next goals after htargets =>
          obtain ⟨after', htargets', swapsAfter⟩ := (carries_targets alike le).apply swaps htargets
          simp only [htargets']
          split at hread
          · cases hread
          · next op hop =>
              have notEndAfter : kind after ≠ .endOfInput := fun hend => by
                rw [hend] at hop
                cases hop
              obtain ⟨⟨values, vs⟩, hsources, heq⟩ := exists_of_map_eq_ok hread
              obtain ⟨vs', hsources', swapsRest⟩ := (carries_sources alike le).apply
                (swapsAfter.advance alike notEndAfter) hsources
              cases heq
              refine ⟨vs', ?_, swapsRest⟩
              rw [swapsAfter.kind_eq alike rfl notEndAfter, hop]
              simp only [hsources', swaps.here_eq alike notEnd]
              rfl

/-! ## Expressions are not assignments -/

/-- Whether an expression goes on with a token after the operand in front of it. -/
def goesOn (k : TokenKind) : Bool := k.isSymbol .power || (leftOperator? k).isSome

theorem not_assignment_of_goesOn {k : TokenKind} (h : goesOn k = true) :
    assignOp? k = none ∧ k.isSymbol .comma = false := by
  cases k with
  | symbol s => cases s <;> first | exact ⟨rfl, rfl⟩ | cases h
  | _ => cases h

/-- A variable in front of an operand has accessors, and then the operand goes on or ends. -/
theorem accessors_of_operand {fuel : Nat} {e : Expr} {us : List Token}
    (hread : operand fuel ts = .ok (e, us)) (hstarts : startsTarget ts = true) :
    ∃ name steps vs, kind ts = .variable name ∧
      accessors (fuel - 2) (advance ts) = .ok (steps, vs) ∧
      (goesOn (kind vs) = true ∨ vs = us) := by
  obtain _ | _ | fuel := fuel
  · cases hread
  · rw [operand, if_neg (ne_true_of_eq_false (not_at?_of_startsTarget hstarts))] at hread
    cases hread
  rw [operand, if_neg (ne_true_of_eq_false (not_at?_of_startsTarget hstarts)), primary] at hread
  rw [startsTarget] at hstarts
  split at hstarts
  · next name hk =>
      simp only [hk] at hread
      cases haccessors : accessors fuel (advance ts) with
      | error e => simp only [haccessors] at hread; cases hread
      | ok read =>
          obtain ⟨steps, vs⟩ := read
          refine ⟨name, steps, vs, hk, haccessors, ?_⟩
          simp only [haccessors] at hread
          split at hread
          · next hpower =>
              have hpower : (kind vs).isSymbol .power = true := hpower
              exact .inl (by rw [goesOn, hpower, Bool.true_or])
          · cases hread
            exact .inr rfl
  · next w hk =>
      obtain rfl : w = "_" := of_decide_eq_true hstarts
      have hvalue : wordValue? "_" = none := by decide +kernel
      simp only [hk, hvalue] at hread
      cases hread
  · cases hstarts

/-- A variable in front of an expression has accessors, and then the expression goes on or ends. -/
theorem accessors_of_expression {fuel level : Nat} {e : Expr} {us : List Token}
    (hread : expression fuel level ts = .ok (e, us)) (hstarts : startsTarget ts = true) :
    ∃ name steps vs, kind ts = .variable name ∧
      accessors (fuel - 3) (advance ts) = .ok (steps, vs) ∧
      (goesOn (kind vs) = true ∨ vs = us) := by
  obtain _ | fuel := fuel
  · cases hread
  rw [expression] at hread
  split at hread
  · next lhs ws hlhs =>
      obtain ⟨name, steps, vs, hk, haccessors, hvs⟩ := accessors_of_operand hlhs hstarts
      refine ⟨name, steps, vs, hk, haccessors, ?_⟩
      rcases hvs with hvs | rfl
      · exact .inl hvs
      obtain _ | fuel := fuel
      · cases hread
      rw [operators] at hread
      cases hop : leftOperator? (kind vs) with
      | some op => exact .inl (by rw [goesOn, hop]; exact Bool.or_true _)
      | none =>
          simp only [hop] at hread
          cases hread
          exact .inr rfl
  · cases hread

theorem not_end_of_expression {fuel level : Nat} {e : Expr} {us : List Token}
    (hread : expression fuel level ts = .ok (e, us)) : kind ts ≠ .endOfInput := by
  intro hend
  obtain _ | _ | _ | fuel := fuel
  · cases hread
  · cases hread
  · rw [expression, operand, at?, hend] at hread
    cases hread
  · rw [expression, operand, at?, hend, primary, hend] at hread
    cases hread

/-- A variable in front of something else is read as one target. -/
theorem targets_variable {fuel : Nat} {name : String} {steps : List Accessor} {us : List Token}
    (hk : kind ts = .variable name) (hsteps : accessors fuel (advance ts) = .ok (steps, us))
    (hcomma : at? .comma us = false) :
    targets (fuel + 1) ts = .ok ([.variable ⟨name, steps⟩], us) := by
  have hword : atWord "_" ts = false := by rw [atWord, hk]
  have htarget : target fuel ts = .ok (.variable ⟨name, steps⟩, us) := by
    rw [target, if_neg (ne_true_of_eq_false hword), reference, hk]
    simp only [hsteps]
    rfl
  rw [commaLoop_targets.succ, htarget]
  exact if_neg (ne_true_of_eq_false hcomma)

/-- An expression is not taken for an assignment, unless an assignment operator comes after it. -/
theorem assignment?_of_expression (alike : EndsAlike last rest)
    (notAssign : assignOp? (kind rest) = none) {fuel fuel' : Nat} (le : fuel ≤ fuel') {e : Expr}
    (swaps : Swaps last rest ts ts') (hread : expression fuel 0 ts = .ok (e, [last])) :
    assignment? fuel' ts' = .ok none := by
  cases hstarts : startsTarget ts' with
  | false => exact assignment?_eq_none hstarts
  | true =>
      obtain _ | fuel := fuel
      · cases hread
      obtain ⟨fuel', rfl⟩ : ∃ n, fuel' = n + 1 := ⟨fuel' - 1, by omega⟩
      have notEnd := not_end_of_expression hread
      have hkind := swaps.kind_eq alike rfl notEnd
      obtain ⟨name, steps, vs, hk, hsteps, hvs⟩ := accessors_of_expression hread
        (by rwa [startsTarget, hkind] at hstarts)
      obtain ⟨vs', hsteps', swapsAfter⟩ := ((carriesExpressions alike _).accessors fuel'
        (by omega)).apply (swaps.advance alike notEnd) hsteps
      have hvs' : assignOp? (kind vs') = none ∧ at? .comma vs' = false := by
        rcases hvs with hvs | rfl
        · rw [at?, swapsAfter.kind_eq alike rfl fun hend => by rw [hend] at hvs; cases hvs]
          exact not_assignment_of_goesOn hvs
        · rw [swapsAfter.eq_rest]
          exact ⟨notAssign, alike.not_comma⟩
      rw [assignment?, hstarts, targets_variable (hkind.trans hk) hsteps' hvs'.2]
      simp only [Bool.not_true, Bool.false_eq_true, if_false, hvs'.1]

/-! ## Commands -/

section

variable (alike : EndsAlike last rest) (ends : EndsCommand true rest) {fuel fuel' : Nat}
  (le : fuel ≤ fuel')
include alike ends le

omit le in
theorem carries_qualified : ∀ fuel fuel', fuel ≤ fuel' → ∀ name,
    Carries last rest (qualified fuel name) (qualified fuel' name)
  | 0, _, _, _ => fun _ _ _ _ _ hread => by cases hread
  | fuel + 1, fuel', le, name => by
      obtain ⟨fuel', rfl⟩ : ∃ n, fuel' = n + 1 := ⟨fuel' - 1, by omega⟩
      replace le := Nat.le_of_succ_le_succ le
      intro ts ts' whole us swaps hread
      have hcolon : at? .doubleColon rest = false := by
        rw [at?, ← Bool.not_eq_true']
        exact not_doubleColon_of_followsArgument ends.follows
      rw [qualified] at hread ⊢
      rw [swaps.at?_eq alike hcolon]
      split at hread
      · next hat =>
          have swaps := swaps.advance_of_at alike hat
          simp only [if_pos hat]
          dsimp only at hread
          split at hread
          · next part hk =>
              obtain ⟨hk', swaps⟩ := swaps.take alike hk rfl
              simp only [hk']
              exact (carries_qualified fuel fuel' le _).apply swaps hread
          · cases hread
      · next hat =>
          cases hread
          exact ⟨ts', if_neg hat, swaps⟩

theorem carries_argument : Carries last rest (argument fuel) (argument fuel') := by
  intro ts ts' id us swaps hread
  have hsame : startsOperand ts' = startsOperand ts := by
    rcases swaps.nil_or_cons with ⟨rfl, rfl⟩ | ⟨t, vs, vs', rfl, rfl, -⟩
    · rw [startsOperand_of_followsArgument ends.follows, startsOperand, kind, alike.isEnd]
    · rfl
  rw [argument] at hread ⊢
  rw [hsame]
  split at hread
  · next hstarts =>
      rw [if_pos hstarts]
      exact (((carriesExpressions alike fuel).expression fuel' le 0).map some).apply swaps hread
  · next hstarts =>
      cases hread
      exact ⟨ts', if_neg hstarts, swaps⟩

omit alike le in
theorem memberName?_eq_none : memberName? (kind rest) = none := by
  rcases ends.1 with h | h | h <;> rw [h] <;> rfl

omit alike le in
theorem not_colon : at? .colon rest = false := by
  rw [at?]
  rcases ends.1 with h | h | h <;> rw [h] <;> rfl

omit le in
/-- Whether a member and a colon come next is the same in both situations. -/
theorem startsMember_eq (swaps : Swaps last rest ts ts') :
    ((memberName? (kind ts')).isSome && at? .colon (advance ts')) =
      ((memberName? (kind ts)).isSome && at? .colon (advance ts)) := by
  by_cases notEnd : kind ts = .endOfInput
  · rcases swaps.nil_or_cons with ⟨rfl, rfl⟩ | ⟨t, vs, vs', rfl, rfl, -⟩
    · rw [memberName?_eq_none ends, notEnd]
      rfl
    · have hkind : kind (t :: vs') = .endOfInput := notEnd
      rw [hkind, notEnd]
      rfl
  · rw [swaps.kind_eq alike rfl notEnd, (swaps.advance alike notEnd).at?_eq alike (not_colon ends)]

omit le in
/-- Braces are taken for options in both situations, or in neither. -/
theorem startsOptions_eq (swaps : Swaps last rest ts ts') :
    startsOptions true ts' = startsOptions true ts := by
  rcases swaps.nil_or_cons with ⟨rfl, rfl⟩ | ⟨t, vs, vs', rfl, rfl, -⟩
  · rw [ends.2, startsOptions, at?, kind, alike.isEnd]
    rfl
  · have hbrace : at? .openBrace (t :: vs') = at? .openBrace (t :: vs) := rfl
    rw [startsOptions, startsOptions, hbrace]
    cases hat : at? .openBrace (t :: vs) with
    | false => rfl
    | true => exact startsMember_eq alike ends ((swaps.advance_of_at alike hat).skipNewlines alike)

theorem carries_options : Carries last rest (options fuel true) (options fuel' true) := by
  intro ts ts' os us swaps hread
  rw [options] at hread ⊢
  rw [startsOptions_eq alike ends swaps]
  split at hread
  · next hstarts =>
      have hat : at? .openBrace ts = true := by
        rw [startsOptions, Bool.and_eq_true] at hstarts
        exact hstarts.1
      rw [if_pos hstarts]
      split at hread
      · cases hread
      · next members vs hentries =>
          obtain ⟨vs', hentries', swaps⟩ := ((carriesExpressions alike fuel).entries fuel' le).apply
            ((swaps.advance_of_at alike hat).skipNewlines alike) hentries
          simp only [hentries']
          exact carries_closing alike swaps hread
  · next hstarts =>
      cases hread
      exact ⟨ts', if_neg hstarts, swaps⟩

theorem carries_destination : Carries last rest (destination fuel) (destination fuel') := by
  intro ts ts' goal us swaps hread
  rw [destination] at hread ⊢
  rw [swaps.at?_eq alike ends.not_arrow]
  split at hread
  · next hat =>
      cases hread
      exact ⟨ts', if_pos hat, swaps⟩
  · next hat =>
      have swaps := swaps.advance_of_at alike (s := .arrow) (by simpa using hat)
      simp only [if_neg hat]
      generalize Grammar.advance ts = vs at hread swaps
      generalize Grammar.advance ts' = vs' at swaps ⊢
      dsimp only at hread
      split at hread
      · next name hk =>
          simp only [(swaps.take alike hk rfl).1]
          exact ((carries_reference alike le).map _).apply swaps hread
      · next content interpolated hk =>
          obtain ⟨hk', swaps⟩ := swaps.take alike hk rfl
          cases hread
          exact ⟨_, by simp only [hk'], swaps⟩
      · next w hk =>
          obtain ⟨hk', swaps⟩ := swaps.take alike hk rfl
          simp only [hk']
          split at hread
          · next hnull =>
              cases hread
              exact ⟨_, if_pos hnull, swaps⟩
          · cases hread
      · cases hread

/-- **Commands in headers are read in front of other tokens as they are in front of the end of
input**, if no options may start there. -/
theorem carries_command : Carries last rest (command fuel true) (command fuel' true) := by
  intro ts ts' c us swaps hread
  rw [command] at hread ⊢
  split at hread
  · next w hk =>
      -- The parts of a command one after the other, each read in front of what is left.
      obtain ⟨hk', swapsWord⟩ := swaps.take alike hk rfl
      have notEnd : kind ts ≠ .endOfInput := fun hend => by
        rw [hend] at hk
        cases hk
      simp only [hk']
      split at hread
      · cases hread
      · next name afterName hname =>
          obtain ⟨afterName', hname', swapsName⟩ :=
            (carries_qualified alike ends fuel fuel' le w).apply swapsWord hname
          simp only [hname']
          split at hread
          · cases hread
          · next id afterId hid =>
              obtain ⟨afterId', hid', swapsId⟩ :=
                (carries_argument alike ends le).apply swapsName hid
              simp only [hid']
              split at hread
              · cases hread
              · next os afterOptions hos =>
                  obtain ⟨afterOptions', hos', swapsOptions⟩ :=
                    (carries_options alike ends le).apply swapsId hos
                  obtain ⟨⟨goal, vs⟩, hgoal, heq⟩ := exists_of_map_eq_ok hread
                  obtain ⟨vs', hgoal', swapsRest⟩ :=
                    (carries_destination alike ends le).apply swapsOptions hgoal
                  cases heq
                  refine ⟨vs', ?_, swapsRest⟩
                  simp only [hos', hgoal', swaps.here_eq alike notEnd]
                  rfl
  · cases hread

end

end TabPilot.Grammar
