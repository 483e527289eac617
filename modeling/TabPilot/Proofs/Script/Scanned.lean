import TabPilot.Proofs.Decimal.Negation
import TabPilot.Proofs.Outcome
import TabPilot.Proofs.Script.Lexing

set_option autoImplicit false

/-! # What is scanned is well formed

Every token that a text is scanned into is well formed: words start with a letter or an
underscore, numbers have no sign and fit in 64 bits, patterns have known flags. From well-formed
tokens only well-formed expressions are read; `Grammar.readsWell` goes through the functions that
call each other, by induction on how deep they may go.
-/

namespace TabPilot

/-! ## Tokens -/

/-- Whether a token may have been scanned. -/
def TokenKind.WellFormed : TokenKind → Prop
  | .word w => IsWord w
  | .variable name => IsVariableName name
  | .int i => 0 ≤ i ∧ i < Word.signedLimit
  | .pattern _ flags => ∀ c ∈ flags.toList, Lexeme.isFlag c = true
  | .newline | .endOfInput | .symbol _ | .float _ | .text _ _ => True

namespace Lexeme

theorem all_of_mem_takeWhile {p : Char → Bool} {cs : List Char} :
    ∀ c ∈ cs.takeWhile p, p c = true := List.all_eq_true.mp List.all_takeWhile

/-- Digits are read as the number they write. -/
theorem eq_of_signed64? {cs : List Char} {i : Int} (hdigits : ∀ c ∈ cs, c.isDigit = true)
    (h : Decimal.signed64? (String.ofList cs) = some i) :
    i = Decimal.natOfDigits cs ∧ i < Word.signedLimit := by
  unfold Decimal.signed64? at h
  rw [String.toList_ofList, takeSign_of_isDigit hdigits] at h
  simp only [Bool.false_eq_true, if_false] at h
  split at h
  · cases h
  · unfold Word.inSigned? at h
    split at h
    · next hrange =>
        obtain rfl := Option.some.inj h
        simp only [Bool.and_eq_true, decide_eq_true_eq] at hrange
        exact ⟨rfl, hrange.2⟩
    · cases h

/-- A number without a sign is not negative. -/
theorem signed64?_nonneg {cs : List Char} {i : Int} (hdigits : ∀ c ∈ cs, c.isDigit = true)
    (h : Decimal.signed64? (String.ofList cs) = some i) : 0 ≤ i ∧ i < Word.signedLimit := by
  obtain ⟨rfl, hlimit⟩ := eq_of_signed64? hdigits h
  exact ⟨Int.natCast_nonneg _, hlimit⟩

theorem wellFormed_number {afterDot : Bool} {cs : List Char} {l : Lexeme}
    (h : number afterDot cs = .ok l) : l.kind.WellFormed := by
  unfold number at h
  dsimp only at h
  -- Only whether the fraction and the exponent are empty matters for what the number is.
  generalize (if afterDot = true then [] else fraction _) = part at h
  generalize (if afterDot = true then [] else exponent _) = power at h
  split at h
  · next hwhole =>
      simp only [Bool.and_eq_true, List.isEmpty_iff] at hwhole
      obtain ⟨hpart, hpower⟩ := hwhole
      split at h
      · next i hread =>
          obtain rfl := Except.ok.inj h
          rw [hpower, hpart, List.append_nil, List.append_nil] at hread
          exact signed64?_nonneg all_of_mem_takeWhile hread
      · cases h
  · split at h
    · obtain rfl := Except.ok.inj h
      trivial
    · cases h

theorem wellFormed_pattern {cs : List Char} {l : Lexeme} (h : pattern cs = .ok l) :
    l.kind.WellFormed := by
  unfold pattern at h
  split at h
  · cases h
  · dsimp only at h
    split at h
    · cases h
    · next hfind =>
        obtain rfl := Except.ok.inj h
        intro c hc
        rw [String.toList_ofList] at hc
        simpa using List.find?_eq_none.mp hfind c hc

theorem wellFormed_heredoc {cs : List Char} {l : Lexeme} (h : heredoc cs = .ok l) :
    l.kind.WellFormed := by
  unfold heredoc at h
  dsimp only at h
  split at h
  · obtain rfl := Except.ok.inj h
    trivial
  · cases h

theorem isWord_word {c : Char} {rest : List Char} (h : startsWord c = true) :
    IsWord (String.ofList (word (c :: rest))) := by
  have hword : word (c :: rest) = c :: word rest :=
    List.takeWhile_cons_of_pos (isWordChar_of_startsWord h)
  refine ⟨c, word rest, ?_, h, all_of_mem_takeWhile⟩
  rw [String.toList_ofList, hword]

/-- **Tokens.** Every token that is read is well formed. -/
theorem wellFormed_leading {previous : Option TokenKind} {c : Char} {rest : List Char} {l : Lexeme}
    (h : leading previous c rest = .ok l) : l.kind.WellFormed := by
  unfold leading at h
  dsimp only at h
  split at h
  · split at h
    · cases h
    · next hempty =>
        obtain rfl := Except.ok.inj h
        refine ⟨?_, ?_⟩
        · simpa using hempty
        · rw [String.toList_ofList]
          exact all_of_mem_takeWhile
  · split at h
    · split at h
      · obtain rfl := Except.ok.inj h
        trivial
      · cases h
    · split at h
      · exact wellFormed_number h
      · split at h
        · next hstart =>
            split at h
            · cases htext : heredoc ((c :: rest).drop (word (c :: rest)).length) with
              | error e => rw [htext] at h; cases h
              | ok text =>
                  have htextWf := wellFormed_heredoc htext
                  rw [htext] at h
                  obtain rfl := Except.ok.inj h
                  exact htextWf
            · obtain rfl := Except.ok.inj h
              exact isWord_word hstart
        · split at h
          · exact wellFormed_pattern h
          · split at h
            · obtain rfl := Except.ok.inj h
              trivial
            · cases h

end Lexeme

/-- Whether all tokens may have been scanned. -/
def Token.AllWellFormed (ts : List Token) : Prop := ∀ t ∈ ts, t.kind.WellFormed

namespace Token

theorem AllWellFormed.cons {t : Token} {ts : List Token} (ht : t.kind.WellFormed)
    (hts : AllWellFormed ts) : AllWellFormed (t :: ts) := by
  intro u hu
  rcases List.mem_cons.mp hu with rfl | hu
  · exact ht
  · exact hts u hu

theorem allWellFormed_scanFrom {done : List Token} {spaced : Bool} {p : Position}
    {cs : List Char} {ts : List Token} (hdone : AllWellFormed done)
    (h : scanFrom done spaced p cs = .ok ts) : AllWellFormed ts := by
  induction done, spaced, p, cs using scanFrom.induct with
  -- The end of the input.
  | case1 done spaced p =>
      rw [scanFrom] at h
      obtain rfl := Except.ok.inj h
      have hall : AllWellFormed (⟨.endOfInput, p, true⟩ :: done) := .cons trivial hdone
      exact fun t ht => hall t (List.mem_reverse.mp ht)
  -- Blanks and comments.
  | case2 done spaced p c rest skipped hskipped ih =>
      rw [scanFrom] at h
      simp only [skipped] at hskipped
      simp only [hskipped, ne_eq, not_false_eq_true, if_true] at h
      exact ih hdone h
  -- A line end.
  | case3 done spaced p rest skipped hskipped ih =>
      rw [scanFrom] at h
      simp only [skipped] at hskipped
      simp only [hskipped, if_false, if_true] at h
      exact ih (.cons trivial hdone) h
  -- A token, or an error in its place.
  | case4 done spaced p c rest skipped hskipped hline l hread ih =>
      rw [scanFrom] at h
      simp only [skipped] at hskipped
      simp only [hskipped, hline, hread, if_false] at h
      exact ih (.cons (Lexeme.wellFormed_leading hread) hdone) h
  | case5 done spaced p c rest skipped hskipped hline e hread =>
      rw [scanFrom] at h
      simp only [skipped] at hskipped
      simp only [hskipped, hline, hread, if_false] at h
      cases h

/-- **Scanning.** The tokens of a text are well formed. -/
theorem allWellFormed_scan {cs : List Char} {ts : List Token} (h : scan cs = .ok ts) :
    AllWellFormed ts := allWellFormed_scanFrom (List.forall_mem_nil _) h

/-! ## What is left of the tokens -/

open Grammar

theorem AllWellFormed.kind {ts : List Token} (h : AllWellFormed ts) :
    (Grammar.kind ts).WellFormed := by
  cases ts with
  | nil => trivial
  | cons t ts => exact h t List.mem_cons_self

theorem AllWellFormed.advance {ts : List Token} (h : AllWellFormed ts) :
    AllWellFormed (advance ts) := by
  cases ts with
  | nil => exact h
  | cons t ts =>
      cases ts with
      | nil => exact h
      | cons u ts => exact fun x hx => h x (List.mem_cons_of_mem _ hx)

theorem AllWellFormed.skipNewlines {ts : List Token} (h : AllWellFormed ts) :
    AllWellFormed (skipNewlines ts) := by
  induction ts with
  | nil => exact h
  | cons t ts ih =>
      rw [Grammar.skipNewlines]
      split
      · exact ih fun x hx => h x (List.mem_cons_of_mem _ hx)
      · exact h

theorem AllWellFormed.skipSeparators {ts : List Token} (h : AllWellFormed ts) :
    AllWellFormed (skipSeparators ts) := by
  induction ts with
  | nil => exact h
  | cons t ts ih =>
      rw [Grammar.skipSeparators]
      split
      · exact ih fun x hx => h x (List.mem_cons_of_mem _ hx)
      · exact h

theorem AllWellFormed.expect {s : Symbol} {ts rest : List Token} (h : AllWellFormed ts)
    (hread : expect s ts = .ok rest) : AllWellFormed rest := by
  unfold Grammar.expect at hread
  split at hread
  · obtain rfl := Except.ok.inj hread
    exact h.advance
  · cases hread

end Token

namespace Grammar

open Token

/-- What a function of the grammar reads from well-formed tokens has a property, and the tokens
that are left are well formed. -/
def Gives {α : Type} (P : α → Prop) (read : List Token → Parsed α) : Prop :=
  ∀ ts a rest, AllWellFormed ts → read ts = .ok (a, rest) → P a ∧ AllWellFormed rest

/-- What the functions give that read expressions, when they may go as deep as `fuel`. -/
structure ReadsWell (fuel : Nat) : Prop where
  expression : ∀ level, Gives Expr.WellFormed (expression fuel level)
  operators : ∀ level lhs, lhs.WellFormed → Gives Expr.WellFormed (operators fuel level lhs)
  operand : Gives Expr.WellFormed (operand fuel)
  primary : Gives Expr.WellFormed (primary fuel)
  items : Gives itemsWellFormed (items fuel)
  entries : Gives entriesWellFormed (entries fuel)
  accessors : Gives accessorsWellFormed (accessors fuel)

theorem wellFormed_negated {e : Expr} (h : e.WellFormed) : (negated e).WellFormed := by
  unfold negated
  split
  · next i =>
      obtain ⟨hlow, hhigh⟩ := h
      exact ⟨by omega, by omega⟩
  · next f =>
      have hproper : Binary64.exactInt? f = none := h
      show Binary64.exactInt? (-f) = none
      rw [Binary64.exactInt?_neg, hproper]
      rfl
  · next hint _ => exact ⟨h, hint⟩

theorem isLiteral_ofFloat (f : Float) : (Value.ofFloat f).IsLiteral := by
  unfold Value.ofFloat
  split
  · next i hi =>
      unfold Binary64.exactInt? at hi
      split at hi
      · next p _ =>
          split at hi
          · next hwhole =>
              obtain rfl := Option.some.inj hi
              simp only [Bool.and_eq_true, decide_eq_true_eq] at hwhole
              -- A whole number in binary64 is taken as an integer below 2 ^ 53 only.
              have hbound : twoTo 53 = 9007199254740992 := rfl
              have hlimit : Word.signedLimit = 9223372036854775808 := rfl
              have hmagnitude := hwhole.2
              unfold Binary64.Parts.truncate
              rw [Value.IsLiteral]
              split <;> omega
          · cases hi
      · cases hi
  · next hnone =>
      split
      · exact hnone
      · trivial

variable {fuel : Nat} (ih : ReadsWell fuel)
include ih

theorem gives_expression (level : Nat) : Gives Expr.WellFormed (expression (fuel + 1) level) := by
  intro ts e rest hts h
  rw [expression] at h
  split at h
  · next lhs ts' hread =>
      obtain ⟨hlhs, hts'⟩ := ih.operand _ _ _ hts hread
      exact ih.operators level lhs hlhs _ _ _ hts' h
  · cases h

theorem gives_operators (level : Nat) (lhs : Expr) (hlhs : lhs.WellFormed) :
    Gives Expr.WellFormed (operators (fuel + 1) level lhs) := by
  intro ts e rest hts h
  rw [operators] at h
  split at h
  · next op tightness _ =>
    split at h
    · split at h
      · next rhs ts' hread =>
          obtain ⟨hrhs, hts'⟩ := ih.expression _ _ _ _ hts.advance.skipNewlines hread
          have hnode : (Expr.binary op lhs rhs).WellFormed := ⟨hlhs, hrhs⟩
          exact ih.operators level _ hnode _ _ _ hts' h
      · cases h
    · cases h
      exact ⟨hlhs, hts⟩
  · cases h
    exact ⟨hlhs, hts⟩

theorem gives_operand : Gives Expr.WellFormed (operand (fuel + 1)) := by
  intro ts e rest hts h
  rw [operand] at h
  split at h
  · split at h
    · next e' ts' hread =>
        obtain ⟨he', hts'⟩ := ih.operand _ _ _ hts.advance hread
        cases h
        exact ⟨wellFormed_negated he', hts'⟩
    · cases h
  · split at h
    · next base ts' hread =>
        obtain ⟨hbase, hts'⟩ := ih.primary _ _ _ hts hread
        split at h
        · split at h
          · next e' ts'' hpower =>
              obtain ⟨he', hts''⟩ := ih.operand _ _ _ hts'.advance hpower
              cases h
              exact ⟨⟨hbase, he'⟩, hts''⟩
          · cases h
        · cases h
          exact ⟨hbase, hts'⟩
    · cases h

theorem gives_primary : Gives Expr.WellFormed (primary (fuel + 1)) := by
  intro ts e rest hts h
  have hkind := hts.kind
  rw [primary] at h
  split at h
  · next i hk =>
      cases h
      rw [hk] at hkind
      have hlimit : Word.signedLimit = 9223372036854775808 := rfl
      obtain ⟨hlow, hhigh⟩ := hkind
      exact ⟨⟨by omega, hhigh⟩, hts.advance⟩
  · cases h
    exact ⟨isLiteral_ofFloat _, hts.advance⟩
  · cases h
    exact ⟨trivial, hts.advance⟩
  -- The cases are those of the token: what a literal may be comes from the token itself.
  · next source flags hk =>
      cases h
      rw [hk] at hkind
      exact ⟨hkind, hts.advance⟩
  · next name hk =>
      rw [hk] at hkind
      split at h
      · next steps ts' hread =>
          obtain ⟨hsteps, hts'⟩ := ih.accessors _ _ _ hts.advance hread
          cases h
          exact ⟨⟨hkind, hsteps⟩, hts'⟩
      · cases h
  · split at h
    · next es ts' hread =>
        obtain ⟨hes, hts'⟩ := ih.items _ _ _ hts.advance.skipNewlines hread
        obtain ⟨us, hclose, heq⟩ := exists_of_map_eq_ok h
        cases heq
        exact ⟨hes, hts'.skipNewlines.expect hclose⟩
    · cases h
  · split at h
    · next es ts' hread =>
        obtain ⟨hes, hts'⟩ := ih.entries _ _ _ hts.advance.skipNewlines hread
        obtain ⟨us, hclose, heq⟩ := exists_of_map_eq_ok h
        cases heq
        exact ⟨hes, hts'.skipNewlines.expect hclose⟩
    · cases h
  · split at h
    · next e' ts' hread =>
        obtain ⟨he', hts'⟩ := ih.expression _ _ _ _ hts.advance.skipNewlines hread
        obtain ⟨us, hclose, heq⟩ := exists_of_map_eq_ok h
        cases heq
        exact ⟨he', hts'.skipNewlines.expect hclose⟩
    · cases h
  · split at h
    · next w v hv =>
        cases h
        refine ⟨?_, hts.advance⟩
        unfold wordValue? at hv
        split at hv <;> first | (cases hv; trivial) | cases hv
    · cases h
  · cases h

theorem gives_items : Gives itemsWellFormed (items (fuel + 1)) := by
  intro ts es rest hts h
  rw [items] at h
  split at h
  · cases h
    exact ⟨trivial, hts⟩
  · split at h
    · cases h
    · next first ts' hread =>
        obtain ⟨hfirst, hts'⟩ := ih.expression _ _ _ _ hts hread
        dsimp only at h
        split at h
        · split at h
          · next more us hmore =>
              obtain ⟨hmore', hus⟩ := ih.items _ _ _ hts'.skipNewlines.advance.skipNewlines hmore
              cases h
              exact ⟨⟨hfirst, hmore'⟩, hus⟩
          · cases h
        · cases h
          exact ⟨⟨hfirst, trivial⟩, hts'.skipNewlines⟩

theorem gives_entries : Gives entriesWellFormed (entries (fuel + 1)) := by
  intro ts es rest hts h
  rw [entries] at h
  split at h
  · cases h
    exact ⟨trivial, hts⟩
  · split at h
    · cases h
    · split at h
      · cases h
      · next us hcolon =>
          have hus := hts.advance.expect hcolon
          split at h
          · cases h
          · next first ts' hread =>
              obtain ⟨hfirst, hts'⟩ := ih.expression _ _ _ _ hus.skipNewlines hread
              dsimp only at h
              split at h
              · split at h
                · next more vs hmore =>
                    obtain ⟨hmore', hvs⟩ :=
                      ih.entries _ _ _ hts'.skipNewlines.advance.skipNewlines hmore
                    cases h
                    exact ⟨⟨hfirst, hmore'⟩, hvs⟩
                · cases h
              · cases h
                exact ⟨⟨hfirst, trivial⟩, hts'.skipNewlines⟩

theorem gives_accessors : Gives accessorsWellFormed (accessors (fuel + 1)) := by
  intro ts steps rest hts h
  unfold accessors at h
  split at h
  · dsimp only at h
    split at h
    · cases h
    · next step hstep =>
        have hkind := hts.advance.kind
        -- Behind the dot stands a word or a number, or a variable that is an index and not a field.
        have hcons : ∀ more, accessorsWellFormed more → accessorsWellFormed (step :: more) := by
          intro more hmore
          split at hstep
          · next w hk =>
              cases hstep
              rw [hk] at hkind
              exact ⟨.inl hkind, hmore⟩
          · next i hk =>
              cases hstep
              rw [hk] at hkind
              obtain ⟨n, rfl⟩ := Int.eq_ofNat_of_zero_le hkind.1
              exact ⟨.inr ⟨n, hkind.2, rfl⟩, hmore⟩
          · next name hk =>
              cases hstep
              rw [hk] at hkind
              exact ⟨⟨hkind, trivial⟩, hmore⟩
          · cases hstep
        split at h
        · next more us hmore =>
            obtain ⟨hmore', hus⟩ := ih.accessors _ _ _ hts.advance.advance hmore
            cases h
            exact ⟨hcons more hmore', hus⟩
        · cases h
  · split at h
    · cases h
    · next index ts' hread =>
        obtain ⟨hindex, hts'⟩ := ih.expression _ _ _ _ hts.advance hread
        split at h
        · cases h
        · next us hclose =>
            have hus := hts'.expect hclose
            split at h
            · next more vs hmore =>
                obtain ⟨hmore', hvs⟩ := ih.accessors _ _ _ hus hmore
                cases h
                exact ⟨⟨hindex, hmore'⟩, hvs⟩
            · cases h
  · cases h
    exact ⟨trivial, hts⟩

omit ih

/-- **Reading expressions.** From well-formed tokens only well-formed expressions are read. -/
theorem readsWell : ∀ fuel, ReadsWell fuel
  | 0 => {
      expression := fun _ _ _ _ _ h => by cases h
      operators := fun _ _ _ _ _ _ _ h => by cases h
      operand := fun _ _ _ _ h => by cases h
      primary := fun _ _ _ _ h => by cases h
      items := fun _ _ _ _ h => by cases h
      entries := fun _ _ _ _ h => by cases h
      accessors := fun _ _ _ _ h => by cases h }
  | fuel + 1 =>
      have ih := readsWell fuel
      { expression := gives_expression ih
        operators := gives_operators ih
        operand := gives_operand ih
        primary := gives_primary ih
        items := gives_items ih
        entries := gives_entries ih
        accessors := gives_accessors ih }

theorem gives_reference (fuel : Nat) : Gives Variable.WellFormed (reference fuel) := by
  intro ts v rest hts h
  have hkind := hts.kind
  unfold reference at h
  split at h
  · next name hk =>
      rw [hk] at hkind
      obtain ⟨⟨steps, us⟩, hread, heq⟩ := exists_of_map_eq_ok h
      obtain ⟨hsteps, hus⟩ := (readsWell fuel).accessors _ _ _ hts.advance hread
      cases heq
      exact ⟨⟨hkind, hsteps⟩, hus⟩
  · cases h

end Grammar

end TabPilot
