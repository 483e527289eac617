import TabPilot.Proofs.Script.Phrases
import TabPilot.Script.Grammar.Expression

set_option autoImplicit false

/-! # Reading expressions back

`Grammar.Reads` says that a function of the grammar gives something for the tokens of some pieces
and leaves what comes after them, provided that it is a token of a certain kind. Expressions are
read back in front of every token that does not go on with them; the main statement is
`Expr.readable`. Four levels of depth for every piece are enough.
-/

namespace TabPilot.Grammar

open Piece

/-! ## Tokens one by one -/

theorem advance_cons {t : Token} {ts : List Token} (h : ts ≠ []) : advance (t :: ts) = ts := by
  obtain ⟨u, us, rfl⟩ := List.exists_cons_of_ne_nil h
  rfl

theorem advance_append (t u : Token) (ts rest : List Token) :
    advance (t :: (ts ++ u :: rest)) = ts ++ u :: rest := advance_cons (by simp)

theorem eq_symbol_of_isSymbol {s : Symbol} {k : TokenKind} (h : k.isSymbol s = true) :
    k = .symbol s := by
  cases k with
  | symbol t => exact congrArg TokenKind.symbol (of_decide_eq_true h).symm
  | _ => cases h

theorem at?_symbol {s : Symbol} {p : Position} {spaced : Bool} {ts : List Token} :
    at? s (⟨.symbol s, p, spaced⟩ :: ts) = true := decide_eq_true rfl

theorem skipNewlines_eq_self {ts : List Token} (h : (kind ts).isNewline = false) :
    skipNewlines ts = ts := by
  cases ts with
  | nil => rfl
  | cons t ts =>
      have ht : t.kind.isNewline = false := h
      simp [skipNewlines, ht]

theorem expect_cons {s : Symbol} {t : Token} {ts : List Token} (h : t.kind.isSymbol s = true)
    (hts : ts ≠ []) : expect s (t :: ts) = .ok ts := by
  have hat : at? s (t :: ts) = true := h
  rw [expect, if_pos hat, advance_cons hts]

/-! ## Reading pieces back -/

/-- A function of the grammar reads something back from pieces, if one of certain tokens comes
next. -/
def Reads {α : Type} (next : TokenKind → Bool) (read : List Token → Parsed α) (ps : List Piece)
    (a : α) : Prop :=
  ∀ place t rest, next t.kind = true → read (tokens place ps ++ t :: rest) = .ok (a, t :: rest)

theorem Reads.mono {α : Type} {next next' : TokenKind → Bool} {read : List Token → Parsed α}
    {ps : List Piece} {a : α} (h : Reads next read ps a)
    (sub : ∀ k, next' k = true → next k = true) : Reads next' read ps a :=
  fun place t rest ht => h place t rest (sub _ ht)

/-- Whether a token does not go on with an expression that stands before it. -/
def stops (k : TokenKind) : Bool :=
  (leftOperator? k).isNone && !k.isSymbol .power && !k.isSymbol .dot && !k.isSymbol .openBracket

theorem leftOperator?_of_stops {k : TokenKind} (h : stops k = true) : leftOperator? k = none := by
  simp only [stops, Bool.and_eq_true, Option.isNone_iff_eq_none] at h
  exact h.1.1.1

theorem not_power_of_stops {k : TokenKind} (h : stops k = true) : k.isSymbol .power = false := by
  simp only [stops, Bool.and_eq_true, Bool.not_eq_true'] at h
  exact h.1.1.2

/-- Whether a piece may be the first one of an expression. -/
def opensExpression (y : Piece) : Bool :=
  !y.kind.isNewline && !y.kind.isSymbol .closeBracket

/-- Pieces that are read back as an expression. -/
structure Readable (ps : List Piece) (e : Expr) : Prop where
  opens : ∃ y ys, ps = y :: ys ∧ opensExpression y = true
  reads : ∀ fuel, 4 * ps.length ≤ fuel → Reads stops (expression fuel 0) ps e

theorem Readable.not_newline {ps : List Piece} {e : Expr} (h : Readable ps e)
    (place : Nat → Position × Bool) (rest : List Token) :
    (kind (tokens place ps ++ rest)).isNewline = false := by
  obtain ⟨y, ys, rfl, hy⟩ := h.opens
  simp only [opensExpression, Bool.and_eq_true, Bool.not_eq_true'] at hy
  exact hy.1

theorem Readable.not_closeBracket {ps : List Piece} {e : Expr} (h : Readable ps e)
    (place : Nat → Position × Bool) (rest : List Token) :
    at? .closeBracket (tokens place ps ++ rest) = false := by
  obtain ⟨y, ys, rfl, hy⟩ := h.opens
  simp only [opensExpression, Bool.and_eq_true, Bool.not_eq_true'] at hy
  exact hy.2

/-! ## Operands -/

/-- An operand is an operand with a power when no power follows it. -/
theorem reads_operand {fuel : Nat} {next : TokenKind → Bool} {y : Piece} {ys : List Piece}
    {e : Expr} (hy : y.kind.isSymbol .minus = false)
    (hnext : ∀ k, next k = true → k.isSymbol .power = false)
    (h : Reads next (primary fuel) (y :: ys) e) : Reads next (operand (fuel + 1)) (y :: ys) e := by
  intro place t rest ht
  have hminus : at? .minus (tokens place (y :: ys) ++ t :: rest) = false := hy
  have hpower : at? .power (t :: rest) = false := hnext _ ht
  simp only [operand, hminus, h place t rest ht, hpower, Bool.false_eq_true, if_false]

/-- An operand is an expression when nothing goes on with it. -/
theorem reads_expression {fuel level : Nat} {ps : List Piece} {e : Expr} (hfuel : 1 ≤ fuel)
    (h : Reads stops (operand fuel) ps e) : Reads stops (expression (fuel + 1) level) ps e := by
  obtain ⟨fuel, rfl⟩ : ∃ n, fuel = n + 1 := ⟨fuel - 1, by omega⟩
  intro place t rest ht
  have hnone : leftOperator? (kind (t :: rest)) = none := leftOperator?_of_stops ht
  simp only [expression, h place t rest ht, operators, hnone]

/-- Expressions of one operand. -/
theorem reads_expression_of_primary {fuel level : Nat} {y : Piece} {ys : List Piece} {e : Expr}
    (hy : y.kind.isSymbol .minus = false) (hfuel : 2 ≤ fuel)
    (h : Reads stops (primary (fuel - 2)) (y :: ys) e) :
    Reads stops (expression fuel level) (y :: ys) e := by
  obtain ⟨fuel, rfl⟩ : ∃ n, fuel = n + 2 := ⟨fuel - 2, by omega⟩
  exact reads_expression (by omega)
    (reads_operand hy (fun _ hk => not_power_of_stops hk) h)

theorem tokens_parens (place : Nat → Position × Bool) (ps : List Piece) (rest : List Token) :
    tokens place (parens ps) ++ rest =
      ⟨.symbol .openParen, (place 0).1, (place 0).2⟩ :: (tokens (fun n => place (n + 1)) ps ++
        ⟨.symbol .closeParen, (place (ps.length + 1)).1, (place (ps.length + 1)).2⟩ :: rest) := by
  simp [parens, tokens, tokens_append, Piece.kind]

/-- An expression in parentheses is read back, whatever comes next. -/
theorem reads_parens {fuel : Nat} {ps : List Piece} {e : Expr} (h : Readable ps e)
    (hfuel : 4 * ps.length + 1 ≤ fuel) :
    Reads (fun _ => true) (primary fuel) (parens ps) e := by
  obtain ⟨fuel, rfl⟩ : ∃ n, fuel = n + 1 := ⟨fuel - 1, by omega⟩
  intro place t rest _
  rw [tokens_parens]
  simp only [primary, kind, advance_append, skipNewlines_eq_self (h.not_newline _ _)]
  rw [h.reads fuel (by omega) _ _ _ rfl]
  rfl

theorem readable_parens {ps : List Piece} {e : Expr} (h : Readable ps e) :
    Readable (parens ps) e where
  opens := ⟨_, _, rfl, rfl⟩
  reads fuel hfuel := by
    have hlength : (parens ps).length = ps.length + 2 := by simp [parens]
    exact reads_expression_of_primary rfl (by omega)
      ((reads_parens h (by omega)).mono fun _ _ => rfl)

/-! ## Lists and objects -/

theorem tokens_append_token (place : Nat → Position × Bool) (ps qs : List Piece) (k : TokenKind)
    (rest : List Token) :
    tokens place (ps ++ .token k :: qs) ++ rest =
      tokens place ps ++ ⟨k, (place ps.length).1, (place ps.length).2⟩ ::
        (tokens (fun n => place (n + (ps.length + 1))) qs ++ rest) := by
  simp [tokens, tokens_append, Piece.kind, Nat.add_right_comm, Nat.add_assoc]

/-- How a loop of the grammar reads one element of a list with commas between its elements: the
element may be the last one, or more may follow it. -/
structure ReadsElement {α : Type} (next : TokenKind → Bool)
    (loop : Nat → List Token → Parsed (List α)) (ps : List Piece) (a : α) : Prop where
  opens : ∀ place ts, (kind (tokens place ps ++ ts)).isNewline = false
  last : ∀ fuel place t rest, 4 * ps.length ≤ fuel → next t.kind = true →
    loop (fuel + 1) (tokens place ps ++ t :: rest) = .ok ([a], t :: rest)
  more : ∀ fuel place p spaced ts as us, 4 * ps.length ≤ fuel → ts ≠ [] →
    (kind ts).isNewline = false → loop fuel ts = .ok (as, us) →
      loop (fuel + 1) (tokens place ps ++ ⟨.symbol .comma, p, spaced⟩ :: ts) = .ok (a :: as, us)

section

variable {α : Type} {next : TokenKind → Bool} {loop : Nat → List Token → Parsed (List α)}
  {write : α → List Piece}

/-- A list with commas between its elements starts like its first element. -/
theorem not_newline_commas {a : α} {as : List α} (h : ReadsElement next loop (write a) a)
    (place : Nat → Position × Bool) (ts : List Token) :
    (kind (tokens place (commas ((a :: as).map write)) ++ ts)).isNewline = false := by
  cases as with
  | nil => exact h.opens place ts
  | cons b as =>
      show (kind (tokens place (write a ++ symbol .comma :: _) ++ ts)).isNewline = false
      rw [tokens_append, List.append_assoc]
      exact h.opens place _

/-- Elements with commas between them are read back as their list. -/
theorem reads_commas {as : List α} (h : ∀ a ∈ as, ReadsElement next loop (write a) a)
    (hne : as ≠ []) : ∀ fuel, 4 * (commas (as.map write)).length + 1 ≤ fuel →
      Reads next (loop fuel) (commas (as.map write)) as := by
  induction as with
  | nil => exact absurd rfl hne
  | cons a as ih =>
      intro fuel hfuel place t rest ht
      obtain ⟨fuel, rfl⟩ : ∃ n, fuel = n + 1 := ⟨fuel - 1, by omega⟩
      have ha : ReadsElement next loop (write a) a := h a List.mem_cons_self
      have ih := ih fun x hx => h x (List.mem_cons_of_mem _ hx)
      -- The loop ends at the last element and goes on after the comma behind every other.
      cases as with
      | nil =>
          have hlength : (commas ([a].map write)).length = (write a).length := rfl
          exact ha.last fuel place t rest (by omega) ht
      | cons b as =>
          have hb : ReadsElement next loop (write b) b := h b (by simp)
          have hlength : (commas ((a :: b :: as).map write)).length =
              (write a).length + 1 + (commas ((b :: as).map write)).length := by
            simp [commas, joined]
            omega
          show loop (fuel + 1) (tokens place (write a ++ symbol .comma ::
            commas ((b :: as).map write)) ++ t :: rest) = _
          rw [tokens_append_token]
          exact ha.more fuel place _ _ _ _ _ (by omega) (by simp) (not_newline_commas hb _ _)
            (ih (by simp) fuel (by omega) _ t rest ht)

end

theorem reads_item {ps : List Piece} {e : Expr} (h : Readable ps e) :
    ReadsElement (·.isSymbol .closeBracket) items ps e where
  opens := h.not_newline
  last fuel place t rest hfuel ht := by
    obtain ⟨k, p, spaced⟩ := t
    obtain rfl : k = .symbol .closeBracket := eq_symbol_of_isSymbol ht
    rw [items, h.not_closeBracket, h.reads fuel hfuel _ _ _ rfl]
    rfl
  more fuel place p spaced ts as us hfuel hne hts hloop := by
    rw [items, h.not_closeBracket, h.reads fuel hfuel _ _ _ rfl]
    simp only [Bool.false_eq_true, if_false]
    rw [skipNewlines_eq_self rfl, if_pos at?_symbol, advance_cons hne, skipNewlines_eq_self hts,
      hloop]

/-- Expressions with commas between them are read back as the elements of a list. -/
theorem reads_items {write : Expr → List Piece} {es : List Expr}
    (h : ∀ e ∈ es, Readable (write e) e) {fuel : Nat}
    (hfuel : 4 * (commas (es.map write)).length + 1 ≤ fuel) :
    Reads (·.isSymbol .closeBracket) (items fuel) (commas (es.map write)) es := by
  by_cases hne : es = []
  · subst hne
    obtain ⟨fuel, rfl⟩ : ∃ n, fuel = n + 1 := ⟨fuel - 1, by omega⟩
    intro place t rest ht
    have hclose : at? .closeBracket (t :: rest) = true := ht
    show items (fuel + 1) (t :: rest) = _
    rw [items, if_pos hclose]
  · exact reads_commas (fun e he => reads_item (h e he)) hne fuel hfuel

def memberPieces (write : Expr → List Piece) (member : String × Expr) : List Piece :=
  .token (.text member.1 false) :: symbol .colon :: write member.2

/-- The first member of an object, with what stands before and after it. -/
theorem entries_member {fuel : Nat} {name : String} {e : Expr} {ts : List Token} {u : Token}
    {rest : List Token} (p q : Position × Bool) (hts : (kind ts).isNewline = false)
    (hne : ts ≠ []) (h : expression fuel 0 ts = .ok (e, u :: rest))
    (hu : u.kind.isNewline = false) :
    entries (fuel + 1) (⟨.text name false, p.1, p.2⟩ :: ⟨.symbol .colon, q.1, q.2⟩ :: ts) =
      if at? .comma (u :: rest) then
        (entries fuel (skipNewlines (advance (u :: rest)))).map fun (more, ts) =>
          ((name, e) :: more, ts)
      else .ok ([(name, e)], u :: rest) := by
  have hclose : at? .closeBrace (⟨.text name false, p.1, p.2⟩ :: ⟨.symbol .colon, q.1, q.2⟩ :: ts) =
      false := rfl
  have hcolon : expect .colon (⟨.symbol .colon, q.1, q.2⟩ :: ts) = .ok ts := expect_cons rfl hne
  have hafter : skipNewlines (u :: rest) = u :: rest := skipNewlines_eq_self hu
  have hadvance : advance (⟨.text name false, p.1, p.2⟩ :: ⟨.symbol .colon, q.1, q.2⟩ :: ts) =
      ⟨.symbol .colon, q.1, q.2⟩ :: ts := rfl
  simp only [entries, hclose, kind, memberName?, hadvance, hcolon, skipNewlines_eq_self hts, h,
    hafter, Bool.false_eq_true, if_false]
  cases entries fuel (skipNewlines (advance (u :: rest))) <;> rfl

theorem reads_entry {write : Expr → List Piece} {m : String × Expr}
    (h : Readable (write m.2) m.2) :
    ReadsElement (·.isSymbol .closeBrace) entries (memberPieces write m) m where
  opens _ _ := rfl
  last fuel place t rest hfuel ht := by
    have hlength : (memberPieces write m).length = (write m.2).length + 2 := rfl
    obtain ⟨k, p, spaced⟩ := t
    obtain rfl : k = .symbol .closeBrace := eq_symbol_of_isSymbol ht
    -- The name and the colon are tokens of their own, in front of the member's value.
    show entries (fuel + 1) (⟨.text m.1 false, _, _⟩ :: ⟨.symbol .colon, _, _⟩ ::
      (tokens _ (write m.2) ++ _)) = _
    rw [entries_member (place 0) (place 1) (h.not_newline _ _) (by simp)
      (h.reads fuel (by omega) _ _ _ rfl) rfl]
    rfl
  more fuel place p spaced ts as us hfuel hne hts hloop := by
    have hlength : (memberPieces write m).length = (write m.2).length + 2 := rfl
    show entries (fuel + 1) (⟨.text m.1 false, _, _⟩ :: ⟨.symbol .colon, _, _⟩ ::
      (tokens _ (write m.2) ++ _)) = _
    rw [entries_member (place 0) (place 1) (h.not_newline _ _) (by simp)
      (h.reads fuel (by omega) _ _ _ rfl) rfl, if_pos at?_symbol, advance_cons hne,
      skipNewlines_eq_self hts, hloop]
    rfl

theorem skipNewlines_members {write : Expr → List Piece} {es : List (String × Expr)}
    (place : Nat → Position × Bool) (p : Position) (spaced : Bool) (rest : List Token) :
    skipNewlines (tokens place (commas (es.map (memberPieces write))) ++
        ⟨.symbol .closeBrace, p, spaced⟩ :: rest) =
      tokens place (commas (es.map (memberPieces write))) ++
        ⟨.symbol .closeBrace, p, spaced⟩ :: rest := by
  refine skipNewlines_eq_self ?_
  cases es with
  | nil => rfl
  | cons m es => cases es <;> rfl

/-- Members with commas between them are read back as the members of an object. -/
theorem reads_entries {write : Expr → List Piece} {es : List (String × Expr)}
    (h : ∀ m ∈ es, Readable (write m.2) m.2) {fuel : Nat}
    (hfuel : 4 * (commas (es.map (memberPieces write))).length + 1 ≤ fuel) :
    Reads (·.isSymbol .closeBrace) (entries fuel) (commas (es.map (memberPieces write))) es := by
  by_cases hne : es = []
  · subst hne
    obtain ⟨fuel, rfl⟩ : ∃ n, fuel = n + 1 := ⟨fuel - 1, by omega⟩
    intro place t rest ht
    have hclose : at? .closeBrace (t :: rest) = true := ht
    show entries (fuel + 1) (t :: rest) = _
    rw [entries, if_pos hclose]
  · exact reads_commas (fun m hm => reads_entry (h m hm)) hne fuel hfuel

/-! ## Accessors -/

/-- Whether a token does not start an accessor. -/
def endsAccessors (k : TokenKind) : Bool := !k.isSymbol .dot && !k.isSymbol .openBracket

theorem endsAccessors_of_stops {k : TokenKind} (h : stops k = true) : endsAccessors k = true := by
  simp only [stops, Bool.and_eq_true] at h
  simp only [endsAccessors, Bool.and_eq_true]
  exact ⟨h.1.2, h.2⟩

theorem reads_accessors_nil {fuel : Nat} (hfuel : 1 ≤ fuel) :
    Reads endsAccessors (accessors fuel) [] [] := by
  obtain ⟨fuel, rfl⟩ : ∃ n, fuel = n + 1 := ⟨fuel - 1, by omega⟩
  rintro place ⟨k, p, spaced⟩ rest ht
  show accessors (fuel + 1) (⟨k, p, spaced⟩ :: rest) = _
  unfold accessors
  split
  · next heq =>
      obtain ⟨rfl, -⟩ := Token.mk.inj (List.cons.inj heq).1
      cases ht
  · next heq =>
      obtain ⟨rfl, -⟩ := Token.mk.inj (List.cons.inj heq).1
      cases ht
  · rfl

/-- Behind a dot and a name the reader of accessors goes on. -/
theorem accessors_name {fuel : Nat} {name : String} {k : TokenKind}
    (hk : k = .word name ∨ ∃ i : Int, k = .int i ∧ toString i = name) (p q : Position × Bool)
    {ts : List Token} (hne : ts ≠ []) :
    accessors (fuel + 1) (⟨.symbol .dot, p.1, false⟩ :: ⟨k, q.1, q.2⟩ :: ts) =
      (accessors fuel ts).map fun (steps, ts) => (.field name :: steps, ts) := by
  have hdot : advance (⟨.symbol .dot, p.1, false⟩ :: ⟨k, q.1, q.2⟩ :: ts) =
      ⟨k, q.1, q.2⟩ :: ts := rfl
  have hname : advance (⟨k, q.1, q.2⟩ :: ts) = ts := advance_cons hne
  rcases hk with rfl | ⟨i, rfl, rfl⟩
  · simp only [accessors, hdot, hname, kind]
    cases accessors fuel ts <;> rfl
  · simp only [accessors, hdot, hname, kind]
    cases accessors fuel ts <;> rfl

theorem reads_accessors_field {fuel : Nat} {name : String} {ps : List Piece}
    {steps : List Accessor} (hname : IsFieldName name)
    (h : Reads endsAccessors (accessors fuel) ps steps) :
    Reads endsAccessors (accessors (fuel + 1)) (.dot :: fieldPiece name :: ps)
      (.field name :: steps) := by
  intro place t rest ht
  have hne : tokens (fun n => place (n + 1 + 1)) ps ++ t :: rest ≠ [] := by simp
  rcases hname with hword | ⟨n, hn, rfl⟩
  · rw [fieldPiece_word hword]
    refine (accessors_name (.inl rfl) (place 0) (place 1) hne).trans ?_
    rw [h _ t rest ht]
    rfl
  · rw [fieldPiece_toString hn]
    refine (accessors_name (.inr ⟨n, rfl, rfl⟩) (place 0) (place 1) hne).trans ?_
    rw [h _ t rest ht]
    rfl

theorem reads_accessors_index {fuel : Nat} {e : Expr} {es ps : List Piece} {steps : List Accessor}
    (he : Reads stops (expression fuel 0) es e)
    (h : Reads endsAccessors (accessors fuel) ps steps) :
    Reads endsAccessors (accessors (fuel + 1)) (.index :: (es ++ symbol .closeBracket :: ps))
      (.index e :: steps) := by
  intro place t rest ht
  show accessors (fuel + 1) (⟨.symbol .openBracket, (place 0).1, false⟩ ::
    (tokens _ (es ++ symbol .closeBracket :: ps) ++ t :: rest)) = _
  rw [tokens_append_token, accessors]
  simp only [advance_append]
  rw [he _ _ _ rfl]
  simp only [expect_cons (s := .closeBracket) (t := ⟨.symbol .closeBracket, _, _⟩) rfl
    (by simp : tokens _ ps ++ t :: rest ≠ [])]
  rw [h _ t rest ht]

/-! ## Signs and operators -/

theorem reads_signed {fuel : Nat} {next : TokenKind → Bool} {ps : List Piece} {e : Expr}
    (h : Reads next (operand fuel) ps e) :
    Reads next (operand (fuel + 1)) (.sign :: ps) (negated e) := by
  intro place t rest ht
  have hminus : at? .minus (tokens place (.sign :: ps) ++ t :: rest) = true := rfl
  have hadvance : advance (tokens place (.sign :: ps) ++ t :: rest) =
      tokens (fun n => place (n + 1)) ps ++ t :: rest := advance_append _ _ _ _
  simp only [operand, hminus, hadvance, h _ t rest ht, if_true]

theorem negated_eq {e : Expr} (noInt : ∀ i, e ≠ .literal (.int i))
    (noFloat : ∀ f, e ≠ .literal (.float f)) : negated e = .negate e := by
  unfold negated
  split
  · exact absurd rfl (noInt _)
  · exact absurd rfl (noFloat _)
  · rfl

theorem BinaryOp.leftOperator?_token (op : BinaryOp) :
    op = .power ∨ ∃ tightness, leftOperator? (.symbol op.token) = some (op, tightness) := by
  cases op <;> first | exact .inl rfl | exact .inr ⟨_, rfl⟩

/-- An operand in parentheses is read back in front of every token but that of a power. -/
theorem reads_operand_parens {fuel : Nat} {ps : List Piece} {e : Expr} (h : Readable ps e)
    (hfuel : 4 * ps.length + 2 ≤ fuel) :
    Reads (fun k => !k.isSymbol .power) (operand fuel) (parens ps) e := by
  obtain ⟨fuel, rfl⟩ : ∃ n, fuel = n + 1 := ⟨fuel - 1, by omega⟩
  exact reads_operand rfl (fun _ hk => by simpa using hk)
    ((reads_parens h (by omega)).mono fun _ _ => rfl)

theorem reads_power {fuel : Nat} {ps qs : List Piece} {lhs rhs : Expr} (hlhs : Readable ps lhs)
    (hrhs : Readable qs rhs) (hfuel : 4 * (ps.length + qs.length) + 3 ≤ fuel) :
    Reads stops (operand fuel) (parens ps ++ symbol .power :: parens qs)
      (.binary .power lhs rhs) := by
  obtain ⟨fuel, rfl⟩ : ∃ n, fuel = n + 1 := ⟨fuel - 1, by omega⟩
  intro place t rest ht
  have hminus : ∀ ts, at? .minus (tokens place (parens ps) ++ ts) = false := fun _ => rfl
  have hpower : (!t.kind.isSymbol .power) = true := by
    rw [not_power_of_stops ht]
    rfl
  rw [tokens_append_token]
  simp only [operand, hminus, Bool.false_eq_true, if_false]
  rw [reads_parens hlhs (by omega) _ _ _ rfl]
  simp only [at?_symbol, if_true, advance_append]
  rw [reads_operand_parens hrhs (by omega) _ _ _ hpower]

theorem reads_leftOperator {fuel tightness : Nat} {op : BinaryOp} {ps qs : List Piece}
    {lhs rhs : Expr} (hop : leftOperator? (.symbol op.token) = some (op, tightness))
    (hlhs : Readable ps lhs) (hrhs : Readable qs rhs)
    (hfuel : 4 * (ps.length + qs.length) + 12 ≤ fuel) :
    Reads stops (expression fuel 0) (parens ps ++ symbol op.token :: parens qs)
      (.binary op lhs rhs) := by
  obtain ⟨fuel, rfl⟩ : ∃ n, fuel = n + 3 := ⟨fuel - 3, by omega⟩
  intro place t rest ht
  have hpower : (!(TokenKind.symbol op.token).isSymbol .power) = true := by
    cases op <;> first | rfl | cases hop
  have hskip : ∀ place ts, skipNewlines (tokens place (parens qs) ++ ts) =
      tokens place (parens qs) ++ ts := fun place ts => skipNewlines_eq_self rfl
  -- The right side is read one level tighter; parentheses make the level irrelevant.
  have hrhs : Reads stops (expression (fuel + 1) (tightness + 1)) (parens qs) rhs := by
    refine reads_expression_of_primary rfl (by omega) ?_
    exact (reads_parens hrhs (by omega)).mono fun _ _ => rfl
  have hstop : leftOperator? t.kind = none := leftOperator?_of_stops ht
  rw [tokens_append_token, expression, reads_operand_parens hlhs (by omega) _ _ _ hpower]
  simp only [operators, kind, hop, Nat.zero_le, if_true, advance_append, hskip]
  rw [hrhs _ t rest ht]
  simp only [hstop]

theorem readable_binary {op : BinaryOp} {ps qs : List Piece} {lhs rhs : Expr}
    (hlhs : Readable ps lhs) (hrhs : Readable qs rhs) :
    Readable (parens ps ++ symbol op.token :: parens qs) (.binary op lhs rhs) where
  opens := ⟨_, _, rfl, rfl⟩
  reads fuel hfuel := by
    have hlength : (parens ps ++ symbol op.token :: parens qs).length =
        ps.length + qs.length + 5 := by
      simp [parens]
      omega
    -- A power is part of an operand; every other operator is met by the loop over operators.
    rcases BinaryOp.leftOperator?_token op with rfl | ⟨tightness, hop⟩
    · obtain ⟨fuel, rfl⟩ : ∃ n, fuel = n + 1 := ⟨fuel - 1, by omega⟩
      exact reads_expression (by omega) (reads_power hlhs hrhs (by omega))
    · exact reads_leftOperator hop hlhs hrhs (by omega)

/-! ## Operands of one kind each -/

/-- What is read back as an operand without a sign is readable. -/
theorem readable_of_primary {y : Piece} {ys : List Piece} {e : Expr}
    (hopens : opensExpression y = true) (hminus : y.kind.isSymbol .minus = false)
    (h : ∀ fuel, 4 * ys.length + 2 ≤ fuel → Reads stops (primary fuel) (y :: ys) e) :
    Readable (y :: ys) e where
  opens := ⟨y, ys, rfl, hopens⟩
  reads fuel hfuel := by
    have hlength : (y :: ys).length = ys.length + 1 := rfl
    exact reads_expression_of_primary hminus (by omega) (h _ (by omega))

/-- A token that stands for an operand by itself. -/
theorem readable_token {k : TokenKind} {e : Expr} (hopens : opensExpression (.token k) = true)
    (hminus : k.isSymbol .minus = false)
    (h : ∀ fuel t u rest, t.kind = k →
      primary (fuel + 1) (t :: u :: rest) = .ok (e, u :: rest)) :
    Readable [.token k] e := by
  refine readable_of_primary hopens hminus fun fuel hfuel place t rest _ => ?_
  obtain ⟨fuel, rfl⟩ : ∃ n, fuel = n + 1 := ⟨fuel - 1, by omega⟩
  exact h fuel _ t rest rfl

/-- The words of literals. -/
theorem wordValue?_literals : wordValue? "null" = some .null ∧
    wordValue? "true" = some (.bool true) ∧ wordValue? "false" = some (.bool false) := by
  have hnull : Decimal.asciiLower "null" = "null" := by decide +kernel
  have htrue : Decimal.asciiLower "true" = "true" := by decide +kernel
  have hfalse : Decimal.asciiLower "false" = "false" := by decide +kernel
  refine ⟨?_, ?_, ?_⟩
  · rw [wordValue?, hnull]
    rfl
  · rw [wordValue?, htrue]
    rfl
  · rw [wordValue?, hfalse]
    rfl

theorem readable_word {w : String} {v : Value} (h : wordValue? w = some v) :
    Readable [word w] (.literal v) := by
  refine readable_token rfl rfl ?_
  rintro fuel ⟨k, p, spaced⟩ u rest rfl
  simp only [primary, kind, h]
  rfl

theorem readable_int (i : Int) : Readable [.token (.int i)] (.literal (.int i)) := by
  refine readable_token rfl rfl ?_
  rintro fuel ⟨k, p, spaced⟩ u rest rfl
  rfl

/-- A sign and a number are read back as the number below zero. -/
theorem readable_negative (i : Int) :
    Readable [.sign, .token (.int (-i))] (.literal (.int i)) where
  opens := ⟨_, _, rfl, rfl⟩
  reads fuel hfuel := by
    have hlength : [Piece.sign, .token (.int (-i))].length = 2 := rfl
    obtain ⟨fuel, rfl⟩ : ∃ n, fuel = n + 4 := ⟨fuel - 4, by omega⟩
    -- The number stands for itself as an operand, and the sign in front of it is folded into it.
    have hprimary : Reads stops (primary (fuel + 1)) [.token (.int (-i))] (.literal (.int (-i))) :=
      fun _ _ _ _ => rfl
    have hoperand := reads_signed (reads_operand rfl (fun _ hk => not_power_of_stops hk) hprimary)
    have hnegated : negated (.literal (.int (-i))) = .literal (.int i) := by simp [negated]
    rw [hnegated] at hoperand
    exact reads_expression (by omega) hoperand

theorem Value.readable_literalPieces {v : Value} (h : v.IsLiteral) (noFloat : ∀ f, v ≠ .float f) :
    Readable v.literalPieces (.literal v) := by
  obtain ⟨hnull, htrue, hfalse⟩ := wordValue?_literals
  cases v with
  | null => exact readable_word hnull
  | bool b =>
      cases b
      · exact readable_word hfalse
      · exact readable_word htrue
  | int i =>
      by_cases hi : i < 0
      · rw [Value.literalPieces, if_pos hi]
        exact readable_negative i
      · rw [Value.literalPieces, if_neg hi]
        exact readable_int i
  | float f => exact absurd rfl (noFloat f)
  | string | array | object => exact h.elim

/-- A list is read back, whatever comes next. -/
theorem primary_array {write : Expr → List Piece} {es : List Expr}
    (h : ∀ e ∈ es, Readable (write e) e) {fuel : Nat}
    (hfuel : 4 * (commas (es.map write)).length + 2 ≤ fuel) :
    Reads (fun _ => true) (primary fuel)
      (symbol .openBracket :: (commas (es.map write) ++ [symbol .closeBracket])) (.array es) := by
  obtain ⟨fuel, rfl⟩ : ∃ n, fuel = n + 1 := ⟨fuel - 1, by omega⟩
  intro place t rest _
  have hskip : ∀ place p spaced ts, skipNewlines (tokens place (commas (es.map write)) ++
      ⟨.symbol .closeBracket, p, spaced⟩ :: ts) =
        tokens place (commas (es.map write)) ++ ⟨.symbol .closeBracket, p, spaced⟩ :: ts := by
    intro place p spaced ts
    refine skipNewlines_eq_self ?_
    cases es with
    | nil => rfl
    | cons e es => exact not_newline_commas (reads_item (h e List.mem_cons_self)) _ _
  show primary (fuel + 1) (⟨.symbol .openBracket, _, _⟩ ::
    (tokens _ (commas (es.map write) ++ [symbol .closeBracket]) ++ t :: rest)) = _
  rw [tokens_append_token]
  simp only [primary, kind, advance_append, hskip]
  rw [reads_items h (by omega) _ _ _ rfl]
  rfl

theorem readable_array {es : List Expr} (h : ∀ e ∈ es, Readable e.pieces e) :
    Readable (symbol .openBracket :: (commas (es.map Expr.pieces) ++ [symbol .closeBracket]))
      (.array es) := by
  refine readable_of_primary rfl rfl fun fuel hfuel => ?_
  have hlength : (commas (es.map Expr.pieces) ++ [symbol .closeBracket]).length =
      (commas (es.map Expr.pieces)).length + 1 := by simp
  exact (primary_array h (by omega)).mono fun _ _ => rfl

/-- An object is read back, whatever comes next. -/
theorem primary_object {write : Expr → List Piece} {es : List (String × Expr)}
    (h : ∀ m ∈ es, Readable (write m.2) m.2) {fuel : Nat}
    (hfuel : 4 * (commas (es.map (memberPieces write))).length + 2 ≤ fuel) :
    Reads (fun _ => true) (primary fuel)
      (symbol .openBrace :: (commas (es.map (memberPieces write)) ++ [symbol .closeBrace]))
      (.object es) := by
  obtain ⟨fuel, rfl⟩ : ∃ n, fuel = n + 1 := ⟨fuel - 1, by omega⟩
  intro place t rest _
  show primary (fuel + 1) (⟨.symbol .openBrace, _, _⟩ ::
    (tokens _ (commas (es.map (memberPieces write)) ++ [symbol .closeBrace]) ++ t :: rest)) = _
  rw [tokens_append_token]
  simp only [primary, kind, advance_append, skipNewlines_members]
  rw [reads_entries h (by omega) _ _ _ rfl]
  rfl

theorem readable_object {es : List (String × Expr)} (h : ∀ m ∈ es, Readable m.2.pieces m.2) :
    Readable (symbol .openBrace :: (commas (es.map (memberPieces Expr.pieces)) ++
      [symbol .closeBrace])) (.object es) := by
  refine readable_of_primary rfl rfl fun fuel hfuel => ?_
  have hlength : (commas (es.map (memberPieces Expr.pieces)) ++ [symbol .closeBrace]).length =
      (commas (es.map (memberPieces Expr.pieces))).length + 1 := by simp
  exact (primary_object h (by omega)).mono fun _ _ => rfl

/-- A variable is read back in front of everything but another accessor. -/
theorem primary_variable {fuel : Nat} {name : String} {ps : List Piece} {steps : List Accessor}
    (h : Reads endsAccessors (accessors fuel) ps steps) :
    Reads endsAccessors (primary (fuel + 1)) (.token (.variable name) :: ps)
      (.variable name steps) := by
  intro place t rest ht
  show primary (fuel + 1) (⟨.variable name, _, _⟩ :: (tokens _ ps ++ t :: rest)) = _
  simp only [primary, kind, advance_append]
  rw [h _ t rest ht]

theorem readable_variable {name : String} {steps : List Accessor}
    (h : ∀ fuel, 4 * (accessorPieces steps).length + 1 ≤ fuel →
      Reads endsAccessors (accessors fuel) (accessorPieces steps) steps) :
    Readable (.token (.variable name) :: accessorPieces steps) (.variable name steps) := by
  refine readable_of_primary rfl rfl fun fuel hfuel => ?_
  obtain ⟨fuel, rfl⟩ : ∃ n, fuel = n + 1 := ⟨fuel - 1, by omega⟩
  exact (primary_variable (h fuel (by omega))).mono fun _ => endsAccessors_of_stops

theorem readable_negate {e : Expr} {ps : List Piece} (h : Readable ps e)
    (hnegated : negated e = .negate e) : Readable (.sign :: parens ps) (.negate e) where
  opens := ⟨_, _, rfl, rfl⟩
  reads fuel hfuel := by
    have hlength : (Piece.sign :: parens ps).length = ps.length + 3 := by simp [parens]
    obtain ⟨fuel, rfl⟩ : ∃ n, fuel = n + 2 := ⟨fuel - 2, by omega⟩
    have hoperand : Reads stops (operand fuel) (parens ps) e := by
      refine (reads_operand_parens h (by omega)).mono fun k hk => ?_
      rw [not_power_of_stops hk]
      rfl
    have hsigned := reads_signed hoperand
    rw [hnegated] at hsigned
    exact reads_expression (by omega) hsigned

end TabPilot.Grammar

namespace TabPilot

open Grammar Piece

theorem itemPieces_eq_map (es : List Expr) : itemPieces es = es.map Expr.pieces := by
  induction es with
  | nil => rfl
  | cons e es ih => rw [itemPieces, ih, List.map_cons]

theorem entryPieces_eq_map (es : List (String × Expr)) :
    entryPieces es = es.map (memberPieces Expr.pieces) := by
  induction es with
  | nil => rfl
  | cons m es ih =>
      obtain ⟨name, e⟩ := m
      rw [entryPieces, ih, List.map_cons, memberPieces]

mutual

/-- **Expressions are read back.** What is written for a plain expression is read as it. -/
theorem Expr.readable : ∀ e : Expr, e.WellFormed → e.Plain → Readable e.pieces e
  | .literal v, wf, plain =>
      Value.readable_literalPieces wf (by rintro f rfl; exact plain)
  | .text content interpolated, _, _ => by
      refine readable_token rfl rfl ?_
      rintro fuel ⟨k, p, spaced⟩ u rest rfl
      rfl
  | .array items, wf, plain => by
      rw [Expr.pieces, itemPieces_eq_map]
      exact readable_array (readable_items items wf plain)
  | .object entries, wf, plain => by
      rw [Expr.pieces, entryPieces_eq_map]
      exact readable_object (readable_entries entries wf plain)
  | .variable _ accessors, wf, plain =>
      readable_variable fun fuel hfuel => reads_accessorPieces accessors wf.2 plain fuel hfuel
  | .pattern _, _, plain => plain.elim
  | .negate e, wf, plain =>
      readable_negate (e.readable wf.1 plain) (negated_eq wf.2 (by rintro f rfl; exact plain))
  | .binary _ lhs rhs, wf, plain =>
      readable_binary (lhs.readable wf.1 plain.1) (rhs.readable wf.2 plain.2)

theorem readable_items : ∀ items : List Expr, itemsWellFormed items → itemsPlain items →
    ∀ e ∈ items, Readable e.pieces e
  | [], _, _ => nofun
  | x :: rest, wf, plain => by
      intro e he
      have hx : Readable x.pieces x := x.readable wf.1 plain.1
      rcases List.mem_cons.mp he with rfl | he
      · exact hx
      · exact readable_items rest wf.2 plain.2 e he

theorem readable_entries : ∀ entries : List (String × Expr), entriesWellFormed entries →
    entriesPlain entries → ∀ m ∈ entries, Readable m.2.pieces m.2
  | [], _, _ => nofun
  | (_, x) :: rest, wf, plain => by
      intro m hm
      have hx : Readable x.pieces x := x.readable wf.1 plain.1
      rcases List.mem_cons.mp hm with rfl | hm
      · exact hx
      · exact readable_entries rest wf.2 plain.2 m hm

theorem reads_accessorPieces : ∀ steps : List Accessor, accessorsWellFormed steps →
    accessorsPlain steps → ∀ fuel, 4 * (accessorPieces steps).length + 1 ≤ fuel →
      Reads endsAccessors (accessors fuel) (accessorPieces steps) steps
  | [], _, _, _, hfuel => reads_accessors_nil (by omega)
  | .field name :: rest, wf, plain, fuel, hfuel => by
      have hlength : (accessorPieces (.field name :: rest)).length =
          (accessorPieces rest).length + 2 := rfl
      obtain ⟨fuel, rfl⟩ : ∃ n, fuel = n + 1 := ⟨fuel - 1, by omega⟩
      exact reads_accessors_field wf.1 (reads_accessorPieces rest wf.2 plain.2 fuel (by omega))
  | .index e :: rest, wf, plain, fuel, hfuel => by
      have hlength : (accessorPieces (.index e :: rest)).length =
          e.pieces.length + (accessorPieces rest).length + 2 := by
        simp [accessorPieces]
        omega
      obtain ⟨fuel, rfl⟩ : ∃ n, fuel = n + 1 := ⟨fuel - 1, by omega⟩
      exact reads_accessors_index ((e.readable wf.1 plain.1).reads fuel (by omega))
        (reads_accessorPieces rest wf.2 plain.2 fuel (by omega))

end

/-- Variables are read back. -/
theorem Variable.reads {v : Variable} (wf : v.WellFormed) (plain : v.Plain) (fuel : Nat)
    (hfuel : 4 * v.pieces.length ≤ fuel) : Reads stops (reference fuel) v.pieces v := by
  have hlength : v.pieces.length = (accessorPieces v.accessors).length + 1 := rfl
  intro place t rest ht
  show (Grammar.accessors fuel (advance (_ :: (_ ++ _)))).map _ = _
  rw [advance_append, reads_accessorPieces v.accessors wf.2 plain fuel (by omega) _ t rest
    (endsAccessors_of_stops ht)]
  rfl

end TabPilot
