import Mathlib
import TabPilot.Proofs.Script.Blocks
import TabPilot.Proofs.Script.Spelled

set_option autoImplicit false

/-! # Precedence

An expression that is written with parentheses only where they are needed is read back as it. The
grammar reads an operand and then the operators that follow it, so that the left operand of an
operator is not read by a call of its own: what is said of it, by `Chains`, is that reading it
comes down to going on with the operators behind it. The main statement is
`Expr.parse_spelling`.
-/

namespace TabPilot.Grammar

open Piece

/-! ## What may come next -/

/-- Whether a token goes neither on with accessors nor to a power. -/
def endsPower (k : TokenKind) : Bool := !k.isSymbol .power && endsAccessors k

/-- Whether a token does not go on with an expression of a level: an operator comes next only if
it binds less tightly. -/
def endsLevel (level : Nat) (k : TokenKind) : Bool :=
  (leftOperator? k).all (fun o => decide (o.2 < level)) && endsPower k

theorem endsPower_of_endsLevel {level : Nat} {k : TokenKind} (h : endsLevel level k = true) :
    endsPower k = true := by
  simp only [endsLevel, Bool.and_eq_true] at h
  exact h.2

theorem endsLevel_mono {level level' : Nat} {k : TokenKind} (h : endsLevel level k = true)
    (hle : level ≤ level') : endsLevel level' k = true := by
  simp only [endsLevel, Bool.and_eq_true, Option.all_eq_true, decide_eq_true_eq] at h ⊢
  exact ⟨fun o ho => Nat.lt_of_lt_of_le (h.1 o ho) hle, h.2⟩

theorem endsLevel_of_stops {k : TokenKind} (h : stops k = true) : endsLevel 0 k = true := by
  simp only [endsLevel, endsPower, leftOperator?_of_stops h, not_power_of_stops h,
    endsAccessors_of_stops h]
  rfl

theorem operators_of_endsLevel {fuel level : Nat} {e : Expr} {t : Token} {rest : List Token}
    (h : endsLevel level t.kind = true) :
    operators (fuel + 1) level e (t :: rest) = .ok (e, t :: rest) := by
  simp only [endsLevel, Bool.and_eq_true, Option.all_eq_true, decide_eq_true_eq] at h
  rw [operators, kind]
  cases hop : leftOperator? t.kind with
  | none => rfl
  | some o =>
      have hlt : ¬ level ≤ o.2 := Nat.not_le.mpr (h.1 o hop)
      simp only [if_neg hlt]

/-! ## Three ways of being read -/

/-- Pieces that are read back by the reader of operands without sign and power. -/
structure IsPrimary (ps : List Piece) (e : Expr) : Prop where
  opens : ∃ y ys, ps = y :: ys ∧ opensExpression y = true ∧ y.kind.isSymbol .minus = false
  reads : ∀ fuel, 4 * ps.length ≤ fuel + 2 → Reads endsAccessors (primary fuel) ps e

/-- Pieces that are read back by the reader of operands. -/
structure IsOperand (ps : List Piece) (e : Expr) : Prop where
  opens : ∃ y ys, ps = y :: ys ∧ opensExpression y = true
  reads : ∀ fuel, 4 * ps.length ≤ fuel + 1 → Reads endsPower (operand fuel) ps e

/-- Pieces that come down to the expression in front of the operators that follow, for each of the
levels up to one. -/
structure Chains (level : Nat) (ps : List Piece) (e : Expr) : Prop where
  opens : ∃ y ys, ps = y :: ys ∧ opensExpression y = true
  reads : ∀ m ≤ level, ∀ fuel, 4 * ps.length ≤ fuel → ∀ place t rest,
    endsLevel (level + 1) t.kind = true → ∃ fuel', fuel < fuel' + 4 * ps.length ∧
      expression fuel m (tokens place ps ++ t :: rest) = operators fuel' m e (t :: rest)

variable {ps qs : List Piece} {e lhs rhs : Expr} {level : Nat}

theorem IsPrimary.isOperand (h : IsPrimary ps e) : IsOperand ps e where
  opens := by
    obtain ⟨y, ys, rfl, hy, -⟩ := h.opens
    exact ⟨y, ys, rfl, hy⟩
  reads fuel hfuel := by
    obtain ⟨y, ys, rfl, -, hminus⟩ := h.opens
    have hlength : (y :: ys).length = ys.length + 1 := rfl
    obtain ⟨fuel, rfl⟩ : ∃ n, fuel = n + 1 := ⟨fuel - 1, by omega⟩
    have hends : ∀ k, endsPower k = true → k.isSymbol .power = false ∧ endsAccessors k = true := by
      intro k hk
      simpa [endsPower] using hk
    exact reads_operand hminus (fun k hk => (hends k hk).1)
      ((h.reads fuel (by omega)).mono fun k hk => (hends k hk).2)

theorem IsOperand.chains (h : IsOperand ps e) (level : Nat) : Chains level ps e where
  opens := h.opens
  reads m _ fuel hfuel place t rest ht := by
    obtain ⟨y, ys, rfl, -⟩ := h.opens
    have hlength : (y :: ys).length = ys.length + 1 := rfl
    obtain ⟨fuel, rfl⟩ : ∃ n, fuel = n + 1 := ⟨fuel - 1, by omega⟩
    have hread := h.reads fuel (by omega) place t rest (endsPower_of_endsLevel ht)
    exact ⟨fuel, by omega, by simp only [expression, hread]⟩

/-- Where no operator goes on with it, an expression is read as a whole. -/
theorem Chains.reads_expression {fuel : Nat} (h : Chains level ps e)
    (hfuel : 4 * ps.length ≤ fuel) :
    Reads (endsLevel level) (expression fuel level) ps e := by
  intro place t rest ht
  obtain ⟨fuel', hlt, hread⟩ := h.reads level (Nat.le_refl _) fuel hfuel place t rest
    (endsLevel_mono ht (Nat.le_succ _))
  obtain ⟨fuel', rfl⟩ : ∃ n, fuel' = n + 1 := ⟨fuel' - 1, by omega⟩
  rw [hread, operators_of_endsLevel ht]

theorem Chains.readable (h : Chains 0 ps e) : Readable ps e where
  opens := h.opens
  reads _ hfuel := (h.reads_expression hfuel).mono fun _ => endsLevel_of_stops

/-! ## Operators -/

/-- An operator that groups to the left goes on with its left operand, and reads its right one on
the level above its own. -/
theorem chains_binary {op : BinaryOp} {s : Symbol} {tightness : Nat}
    (hop : leftOperator? (.symbol s) = some (op, tightness)) (hlhs : Chains tightness ps lhs)
    (hrhs : Chains (tightness + 1) qs rhs) (hle : level ≤ tightness) :
    Chains level (ps ++ symbol s :: qs) (.binary op lhs rhs) where
  opens := by
    obtain ⟨y, ys, rfl, hy⟩ := hlhs.opens
    exact ⟨y, _, rfl, hy⟩
  reads m hm fuel hfuel place t rest ht := by
    have hlength : (ps ++ symbol s :: qs).length = ps.length + qs.length + 1 := by
      simp
      omega
    have hends : endsLevel (tightness + 1) (.symbol s) = true := by
      simp only [endsLevel, hop, Option.all_some, Nat.lt_succ_self, decide_true, Bool.true_and]
      cases s <;> first | rfl | cases hop
    rw [tokens_append_token]
    -- The operator ends its left side, and its right side is read one level tighter.
    obtain ⟨fuel', hlt, hread⟩ := hlhs.reads m (Nat.le_trans hm hle) fuel (by omega) place
      ⟨.symbol s, (place ps.length).1, (place ps.length).2⟩
      (tokens (fun n => place (n + (ps.length + 1))) qs ++ t :: rest) hends
    obtain ⟨fuel', rfl⟩ : ∃ n, fuel' = n + 1 := ⟨fuel' - 1, by omega⟩
    have hskip : ∀ place ts, skipNewlines (tokens place qs ++ ts) = tokens place qs ++ ts := by
      obtain ⟨y, ys, rfl, hy⟩ := hrhs.opens
      simp only [opensExpression, Bool.and_eq_true, Bool.not_eq_true'] at hy
      exact fun place ts => skipNewlines_eq_self hy.1
    have hfuel' : 4 * qs.length ≤ fuel' := by omega
    have hright := hrhs.reads_expression hfuel' (fun n => place (n + (ps.length + 1))) t rest
      (endsLevel_mono ht (Nat.succ_le_succ hle))
    refine ⟨fuel', by omega, ?_⟩
    rw [hread, operators]
    simp only [kind, hop, Nat.le_trans hm hle, if_true, advance_append, hskip, hright]

theorem IsOperand.power (hlhs : IsPrimary ps lhs) (hrhs : IsOperand qs rhs) :
    IsOperand (ps ++ symbol .power :: qs) (.binary .power lhs rhs) where
  opens := by
    obtain ⟨y, ys, rfl, hy, -⟩ := hlhs.opens
    exact ⟨y, _, rfl, hy⟩
  reads fuel hfuel place t rest ht := by
    have hlength : (ps ++ symbol .power :: qs).length = ps.length + qs.length + 1 := by
      simp
      omega
    obtain ⟨fuel, rfl⟩ : ∃ n, fuel = n + 1 := ⟨fuel - 1, by omega⟩
    have hminus : ∀ ts, at? .minus (tokens place ps ++ ts) = false := by
      obtain ⟨y, ys, rfl, -, hminus⟩ := hlhs.opens
      exact fun ts => hminus
    have hbase := hlhs.reads fuel (by omega) place
      ⟨.symbol .power, (place ps.length).1, (place ps.length).2⟩
      (tokens (fun n => place (n + (ps.length + 1))) qs ++ t :: rest) rfl
    have hexponent := hrhs.reads fuel (by omega) (fun n => place (n + (ps.length + 1))) t rest ht
    rw [tokens_append_token]
    simp only [operand, hminus, hbase, hexponent, at?_symbol, advance_append, Bool.false_eq_true,
      if_false, if_true]

theorem IsOperand.signed (h : IsOperand ps e) : IsOperand (.sign :: ps) (negated e) where
  opens := ⟨_, _, rfl, rfl⟩
  reads fuel hfuel := by
    have hlength : (Piece.sign :: ps).length = ps.length + 1 := rfl
    obtain ⟨fuel, rfl⟩ : ∃ n, fuel = n + 1 := ⟨fuel - 1, by omega⟩
    exact reads_signed (h.reads fuel (by omega))

theorem isPrimary_parens (h : Readable ps e) : IsPrimary (parens ps) e where
  opens := ⟨_, _, rfl, rfl, rfl⟩
  reads fuel hfuel := by
    have hlength : (parens ps).length = ps.length + 2 := by simp [parens]
    exact (reads_parens h (by omega)).mono fun _ _ => rfl

/-- A token that stands for an operand by itself. -/
theorem isPrimary_token {k : TokenKind} (hopens : opensExpression (.token k) = true)
    (hminus : k.isSymbol .minus = false)
    (h : ∀ fuel t u rest, t.kind = k →
      primary (fuel + 1) (t :: u :: rest) = .ok (e, u :: rest)) :
    IsPrimary [.token k] e where
  opens := ⟨_, _, rfl, hopens, hminus⟩
  reads fuel hfuel place t rest _ := by
    have hlength : [Piece.token k].length = 1 := rfl
    obtain ⟨fuel, rfl⟩ : ∃ n, fuel = n + 1 := ⟨fuel - 1, by omega⟩
    exact h fuel _ t rest rfl

/-! ## What is read at which place -/

/-- Pieces that are read back wherever the place asks for at most the given tightness. -/
structure Spells (tightness : Nat) (ps : List Piece) (e : Expr) : Prop where
  chains : ∀ level ≤ tightness, Chains level ps e
  operand : 5 ≤ tightness → IsOperand ps e
  primary : 7 ≤ tightness → IsPrimary ps e

variable {tightness : Nat}

theorem Spells.of_primary (h : IsPrimary ps e) : Spells tightness ps e where
  chains level _ := h.isOperand.chains level
  operand _ := h.isOperand
  primary _ := h

theorem Spells.of_operand (h : IsOperand ps e) (hlt : tightness < 7) : Spells tightness ps e where
  chains level _ := h.chains level
  operand _ := h
  primary hle := absurd hle (Nat.not_le.mpr hlt)

theorem Spells.of_chains (h : ∀ level ≤ tightness, Chains level ps e) (hlt : tightness < 5) :
    Spells tightness ps e where
  chains := h
  operand hle := absurd hle (Nat.not_le.mpr hlt)
  primary hle := absurd hle (by omega)

theorem Spells.readable (h : Spells tightness ps e) : Readable ps e :=
  (h.chains 0 (Nat.zero_le _)).readable

/-- Parentheses make up for what an expression lacks in tightness. -/
theorem Spells.enclosed (h : Spells tightness ps e) (level : Nat) :
    Spells level (enclosed level tightness ps) e := by
  unfold TabPilot.enclosed
  split
  · next hle =>
      exact ⟨fun m hm => h.chains m (Nat.le_trans hm hle),
        fun hm => h.operand (Nat.le_trans hm hle), fun hm => h.primary (Nat.le_trans hm hle)⟩
  · exact .of_primary (isPrimary_parens h.readable)

theorem Spells.signed (h : Spells 5 ps e) (hnegated : negated e = .negate e) :
    Spells 5 (.sign :: ps) (.negate e) := by
  have hoperand := (h.operand (Nat.le_refl _)).signed
  rw [hnegated] at hoperand
  exact .of_operand hoperand (by decide)

/-- An operator with operands that bind as tightly as its places ask for. -/
theorem Spells.binary {op : BinaryOp} (tilde : Bool) (hlhs : Spells op.lhsLevel ps lhs)
    (hrhs : Spells op.rhsLevel qs rhs) :
    Spells op.tightness (ps ++ symbol (op.spelled tilde) :: qs) (.binary op lhs rhs) := by
  by_cases hpower : op = .power
  · subst hpower
    exact .of_operand (.power (hlhs.primary (Nat.le_refl _)) (hrhs.operand (Nat.le_refl _)))
      (by decide)
  · have hop : leftOperator? (.symbol (op.spelled tilde)) = some (op, op.tightness) ∧
        op.lhsLevel = op.tightness ∧ op.rhsLevel = op.tightness + 1 ∧ op.tightness < 5 := by
      cases op <;> cases tilde <;>
        first | exact ⟨rfl, rfl, rfl, by decide⟩ | exact absurd rfl hpower
    obtain ⟨hleft, hlevel, hlevel', hlt⟩ := hop
    rw [hlevel] at hlhs
    rw [hlevel'] at hrhs
    exact .of_chains (fun _ hle => chains_binary hleft (hlhs.chains _ (Nat.le_refl _))
      (hrhs.chains _ (Nat.le_refl _)) hle) hlt

/-! ## Operands of one kind each -/

theorem spells_word {w : String} {v : Value} (h : wordValue? w = some v) :
    Spells tightness [word w] (.literal v) := by
  refine .of_primary (isPrimary_token rfl rfl ?_)
  rintro fuel ⟨k, p, spaced⟩ u rest rfl
  simp only [primary, kind, h]
  rfl

theorem isPrimary_int (i : Int) : IsPrimary [.token (.int i)] (.literal (.int i)) := by
  refine isPrimary_token rfl rfl ?_
  rintro fuel ⟨k, p, spaced⟩ u rest rfl
  rfl

theorem spells_text (content : String) (interpolated : Bool) :
    Spells tightness [.token (.text content interpolated)] (.text content interpolated) := by
  refine .of_primary (isPrimary_token rfl rfl ?_)
  rintro fuel ⟨k, p, spaced⟩ u rest rfl
  rfl

theorem spells_literalPieces {v : Value} (h : (Expr.literal v).Composed) :
    Spells (Expr.literal v).tightness v.literalPieces (.literal v) := by
  obtain ⟨hnull, htrue, hfalse⟩ := wordValue?_literals
  cases v with
  | null => exact spells_word hnull
  | bool b =>
      cases b
      · exact spells_word hfalse
      · exact spells_word htrue
  | int i =>
      by_cases hi : i < 0
      · -- The number stands for itself as an operand, and the sign is folded into it.
        have hoperand := (isPrimary_int (-i)).isOperand.signed
        have hnegated : negated (.literal (.int (-i))) = .literal (.int i) := by simp [negated]
        rw [hnegated] at hoperand
        rw [Value.literalPieces, if_pos hi, Expr.tightness, if_pos hi]
        exact .of_operand hoperand (by decide)
      · rw [Value.literalPieces, if_neg hi]
        exact .of_primary (isPrimary_int i)
  | _ => exact h.elim

theorem spells_array {write : Expr → List Piece} {es : List Expr}
    (h : ∀ e ∈ es, Readable (write e) e) :
    Spells tightness (symbol .openBracket :: (commas (es.map write) ++ [symbol .closeBracket]))
      (.array es) := by
  refine .of_primary ⟨⟨_, _, rfl, rfl, rfl⟩, fun fuel hfuel => ?_⟩
  have hlength : (symbol .openBracket :: (commas (es.map write) ++ [symbol .closeBracket])).length =
      (commas (es.map write)).length + 2 := by simp
  exact (primary_array h (by omega)).mono fun _ _ => rfl

theorem spells_object {write : Expr → List Piece} {es : List (String × Expr)}
    (h : ∀ m ∈ es, Readable (write m.2) m.2) :
    Spells tightness
      (symbol .openBrace :: (commas (es.map (memberPieces write)) ++ [symbol .closeBrace]))
      (.object es) := by
  refine .of_primary ⟨⟨_, _, rfl, rfl, rfl⟩, fun fuel hfuel => ?_⟩
  have hlength : (symbol .openBrace ::
      (commas (es.map (memberPieces write)) ++ [symbol .closeBrace])).length =
        (commas (es.map (memberPieces write))).length + 2 := by simp
  exact (primary_object h (by omega)).mono fun _ _ => rfl

theorem spells_variable {name : String} {steps : List Accessor}
    (h : ∀ fuel, 4 * ps.length + 1 ≤ fuel → Reads endsAccessors (accessors fuel) ps steps) :
    Spells tightness (.token (.variable name) :: ps) (.variable name steps) := by
  refine .of_primary ⟨⟨_, _, rfl, rfl, rfl⟩, fun fuel hfuel => ?_⟩
  have hlength : (Piece.token (.variable name) :: ps).length = ps.length + 1 := rfl
  obtain ⟨fuel, rfl⟩ : ∃ n, fuel = n + 1 := ⟨fuel - 1, by omega⟩
  exact primary_variable (h fuel (by omega))

end TabPilot.Grammar

namespace TabPilot

open Grammar Piece

theorem spelledItems_eq_map (tilde : Bool) (es : List Expr) :
    spelledItems tilde es = es.map (Expr.spelled tilde) := by
  induction es with
  | nil => rfl
  | cons e es ih => rw [spelledItems, ih, List.map_cons]

theorem spelledEntries_eq_map (tilde : Bool) (es : List (String × Expr)) :
    spelledEntries tilde es = es.map (memberPieces (Expr.spelled tilde)) := by
  induction es with
  | nil => rfl
  | cons m es ih =>
      obtain ⟨name, e⟩ := m
      rw [spelledEntries, ih, List.map_cons, memberPieces]

mutual

/-- **Operators are read back.** What is written for an expression is read as it in every place that
asks for no more than the tightness of the expression. -/
theorem Expr.spells (tilde : Bool) : ∀ e : Expr, e.Composed →
    Spells e.tightness (e.spelled tilde) e
  | .literal _, h => spells_literalPieces h
  | .text content interpolated, _ => spells_text content interpolated
  | .array items, h => by
      rw [Expr.spelled, spelledItems_eq_map]
      exact spells_array (readable_spelledItems tilde items h)
  | .object entries, h => by
      rw [Expr.spelled, spelledEntries_eq_map]
      exact spells_object (readable_spelledEntries tilde entries h)
  | .variable _ accessors, h =>
      spells_variable fun fuel hfuel => reads_spelledAccessors tilde accessors h.2 fuel hfuel
  | .pattern _, h => h.elim
  | .negate e, h =>
      ((e.spells tilde h.1).enclosed 5).signed
        (negated_eq h.2 (by rintro f rfl; exact h.1))
  | .binary _ lhs rhs, h =>
      .binary tilde ((lhs.spells tilde h.1).enclosed _) ((rhs.spells tilde h.2).enclosed _)

theorem readable_spelledItems (tilde : Bool) : ∀ items : List Expr, itemsComposed items →
    ∀ e ∈ items, Readable (e.spelled tilde) e
  | [], _ => nofun
  | x :: rest, h => by
      intro e he
      have hx : Readable (x.spelled tilde) x := (x.spells tilde h.1).readable
      rcases List.mem_cons.mp he with rfl | he
      · exact hx
      · exact readable_spelledItems tilde rest h.2 e he

theorem readable_spelledEntries (tilde : Bool) : ∀ entries : List (String × Expr),
    entriesComposed entries → ∀ m ∈ entries, Readable (m.2.spelled tilde) m.2
  | [], _ => nofun
  | (_, x) :: rest, h => by
      intro m hm
      have hx : Readable (x.spelled tilde) x := (x.spells tilde h.1).readable
      rcases List.mem_cons.mp hm with rfl | hm
      · exact hx
      · exact readable_spelledEntries tilde rest h.2 m hm

theorem reads_spelledAccessors (tilde : Bool) : ∀ steps : List Accessor,
    accessorsComposed steps → ∀ fuel, 4 * (spelledAccessors tilde steps).length + 1 ≤ fuel →
      Reads endsAccessors (accessors fuel) (spelledAccessors tilde steps) steps
  | [], _, _, hfuel => reads_accessors_nil (by omega)
  | .field name :: rest, h, fuel, hfuel => by
      have hlength : (spelledAccessors tilde (.field name :: rest)).length =
          (spelledAccessors tilde rest).length + 2 := rfl
      obtain ⟨fuel, rfl⟩ : ∃ n, fuel = n + 1 := ⟨fuel - 1, by omega⟩
      exact reads_accessors_field h.1 (reads_spelledAccessors tilde rest h.2 fuel (by omega))
  | .index e :: rest, h, fuel, hfuel => by
      have hlength : (spelledAccessors tilde (.index e :: rest)).length =
          (e.spelled tilde).length + (spelledAccessors tilde rest).length + 2 := by
        simp [spelledAccessors]
        omega
      obtain ⟨fuel, rfl⟩ : ∃ n, fuel = n + 1 := ⟨fuel - 1, by omega⟩
      exact reads_accessors_index ((e.spells tilde h.1).readable.reads fuel (by omega))
        (reads_spelledAccessors tilde rest h.2 fuel (by omega))

end

/-! ## Texts -/

/-- The text of an expression is scanned into the tokens of its pieces. -/
theorem Expr.scan_spelling (tilde : Bool) {e : Expr} (h : e.Composed) :
    ∃ place last, Token.scan (e.spelling tilde).toList =
      .ok (tokens place (e.spelled tilde) ++ [⟨.endOfInput, last, true⟩]) := by
  have hscans := (e.term_spelled tilde h).scans [] closes_nil .newline rfl
  rw [List.append_nil] at hscans
  have hscan := Token.scanFrom_scans (e.spelled tilde) .newline [] true ⟨1, 1⟩ hscans ⟨rfl, rfl⟩
    (.inr rfl)
  rw [Expr.spelling, String.toList_ofList]
  exact hscan

/-- The text of an expression behind a variable that it is assigned to. -/
def Expr.assigned (tilde : Bool) (e : Expr) : String := "$x = " ++ e.spelling tilde

theorem Expr.toList_assigned (tilde : Bool) {e : Expr} (h : e.Composed) :
    (e.assigned tilde).toList =
      textAfter .newline (.token (.variable "x") :: symbol .assign :: e.spelled tilde) := by
  obtain ⟨y, ys, hspelled, hcloses, -⟩ := (e.term_spelled tilde h).starts
  have hblank : between (symbol .assign) y = [' '] := by
    rw [between, hcloses]
    rfl
  rw [Expr.assigned, String.toList_append, Expr.spelling, hspelled]
  simp only [textAfter, hblank, String.toList_ofList]
  rfl

theorem isVariableName_x : IsVariableName "x" :=
  ⟨by decide, List.all_eq_true.mp (by decide +kernel)⟩

theorem Expr.scan_assigned (tilde : Bool) {e : Expr} (h : e.Composed) :
    ∃ place last, Token.scan (e.assigned tilde).toList =
      .ok (tokens place (.token (.variable "x") :: symbol .assign :: e.spelled tilde) ++
        [⟨.endOfInput, last, true⟩]) := by
  have hterm := e.term_spelled tilde h
  have hscans := hterm.scans [] closes_nil (symbol .assign) rfl
  have hlongest := hterm.not_extends (symbol .assign) []
  rw [List.append_nil] at hscans hlongest
  have hall : Scans .newline (.token (.variable "x") :: symbol .assign :: e.spelled tilde) :=
    ⟨legible_variable isVariableName_x ⟨by rintro c ⟨⟩; decide, rfl⟩,
      legible_symbol rfl (Lexeme.leading?_eq .assign hlongest), hscans⟩
  rw [e.toList_assigned tilde h]
  exact Token.scanFrom_scans _ .newline [] true ⟨1, 1⟩ hall ⟨rfl, rfl⟩ (.inr rfl)

end TabPilot

namespace TabPilot.Grammar

open Piece

/-- An assignment is read in its parts. -/
theorem simpleStatement_of_parts {fuel : Nat} {ts after rest : List Token} {goals : List Target}
    {op : AssignOp} {values : List Expr} (hstart : startsTarget ts = true)
    (hgoals : targets fuel ts = .ok (goals, after)) (hop : assignOp? (kind after) = some op)
    (hvalues : sources fuel (advance after) = .ok (values, rest)) :
    simpleStatement fuel ts = .ok (.assign ⟨goals, op, values, here ts⟩, rest) := by
  simp only [simpleStatement, assignment?, hstart, hgoals, hop, hvalues, Bool.not_true,
    Bool.false_eq_true, if_false]
  rfl

/-- What is assigned to a variable is read back behind it. -/
theorem simpleStatement_assigned {fuel : Nat} {ps : List Piece} {e : Expr} (h : Readable ps e)
    (hfuel : 4 * ps.length + 8 ≤ fuel) (place : Nat → Position × Bool) (last : Position) :
    ∃ p, simpleStatement fuel
        (tokens place (.token (.variable "x") :: symbol .assign :: ps) ++
          [⟨.endOfInput, last, true⟩]) =
      .ok (.assign ⟨[.variable ⟨"x", []⟩], .set, [e], p⟩, [⟨.endOfInput, last, true⟩]) := by
  obtain ⟨fuel, rfl⟩ : ∃ n, fuel = n + 1 := ⟨fuel - 1, by omega⟩
  have hgoal : ReadsElement endsList targets (Target.variable ⟨"x", []⟩).pieces
      (.variable ⟨"x", []⟩) := reads_target ⟨isVariableName_x, trivial⟩ trivial
  have hlength : (Target.variable ⟨"x", []⟩).pieces.length = 1 := rfl
  have hvalues := (reads_source h).last fuel (fun n => place (n + 2)) ⟨.endOfInput, last, true⟩ []
    (by omega) rfl
  have hgoals := hgoal.last fuel place ⟨.symbol .assign, (place 1).1, (place 1).2⟩
    (tokens (fun n => place (n + 2)) ps ++ [⟨.endOfInput, last, true⟩]) (by omega) rfl
  refine ⟨_, simpleStatement_of_parts rfl hgoals rfl ?_⟩
  rw [advance_append]
  exact hvalues

/-- A statement that is an assignment and the end of the input are a whole script. -/
theorem ofTokens_assigned {ps : List Piece} {e : Expr} (h : Readable ps e)
    (place : Nat → Position × Bool) (last : Position) :
    ∃ p, Script.ofTokens (tokens place (.token (.variable "x") :: symbol .assign :: ps) ++
        [⟨.endOfInput, last, true⟩]) =
      .ok ([.assign ⟨[.variable ⟨"x", []⟩], .set, [e], p⟩], []) := by
  generalize hts : tokens place (.token (.variable "x") :: symbol .assign :: ps) ++
    [⟨.endOfInput, last, true⟩] = ts
  have hlength : ts.length = ps.length + 3 := by
    rw [← hts, List.length_append, length_tokens]
    rfl
  have hkind : kind ts = .variable "x" := by
    rw [← hts]
    rfl
  have hskip : skipSeparators ts = ts := by
    rw [← hts]
    rfl
  obtain ⟨fuel, hfuel⟩ : ∃ n, budget ts.length = n + 3 := ⟨budget ts.length - 3, by
    rw [budget]
    omega⟩
  have henough : 4 * ps.length + 8 ≤ fuel + 1 := by
    rw [budget] at hfuel
    omega
  obtain ⟨p, hread⟩ := simpleStatement_assigned h henough place last
  rw [hts] at hread
  have hword : ∀ w, atWord w ts = false := fun w => by rw [atWord, hkind]
  have hcommand : startsCommand ts = false := by rw [startsCommand, hkind]
  have hstatement : statement (fuel + 2) ts =
      .ok (.assign ⟨[.variable ⟨"x", []⟩], .set, [e], p⟩, [⟨.endOfInput, last, true⟩]) := by
    rw [statement_of_no_keyword fun w _ => hword w, hcommand, if_neg Bool.false_ne_true, hread]
  refine ⟨p, ?_⟩
  rw [Script.ofTokens, hskip, hfuel, topLevel_eq (by rw [hkind]; rfl), block, hword, hstatement]
  rfl

end TabPilot.Grammar

namespace TabPilot

open Grammar Piece

/-- **Operator precedence.** An expression of integers, `true`, `false`, `null`, texts, variables
with accessors, lists, objects, signs and operators is written with parentheses only where its
levels ask for them. The text is read as that expression: by itself up to the end of the input,
and as what is assigned to a variable in front of it. -/
theorem Expr.parse_spelling (tilde : Bool) {e : Expr} (h : e.Composed) :
    (∃ ts last, Token.scan (e.spelling tilde).toList = .ok ts ∧
      Grammar.expression (Grammar.budget ts.length) 0 ts =
        .ok (e, [⟨.endOfInput, last, true⟩])) ∧
    ∃ p, Script.parse (e.assigned tilde) =
      .ok ⟨[.assign ⟨[.variable ⟨"x", []⟩], .set, [e], p⟩], [], e.assigned tilde, none⟩ := by
  have hreadable : Readable (e.spelled tilde) e := (e.spells tilde h).readable
  constructor
  · obtain ⟨place, last, hscan⟩ := e.scan_spelling tilde h
    refine ⟨_, last, hscan, hreadable.reads _ ?_ place ⟨.endOfInput, last, true⟩ [] rfl⟩
    rw [Grammar.budget, List.length_append, length_tokens]
    omega
  · obtain ⟨place, last, hscan⟩ := e.scan_assigned tilde h
    obtain ⟨p, hread⟩ := Grammar.ofTokens_assigned hreadable place last
    have hscript : Script.read (e.assigned tilde) =
        .ok ⟨[.assign ⟨[.variable ⟨"x", []⟩], .set, [e], p⟩], [], e.assigned tilde, none⟩ := by
      rw [Script.read, hscan]
      simp only [hread]
      rfl
    exact ⟨p, by rw [Script.parse, hscript]⟩

/-- Signs on both sides of powers, operators of one level grouped both ways, and brackets. -/
def Expr.sampleComposed : Expr :=
  .binary .bitOr
    (.binary .bitXor
      (.binary .subtract (.literal (.int 7))
        (.binary .subtract (.literal (.int 2)) (.negate (.variable "a" [.field "begin"]))))
      (.binary .power (.literal (.int (-1)))
        (.negate (.binary .power (.literal (.int 3)) (.literal (.int (-4)))))))
    (.binary .multiply (.binary .modulo (.literal (.bool true)) (.object [("k", .literal .null)]))
      (.binary .add (.array [.text "s" true]) (.variable "b" [.index (.literal (.int 0))])))

/-- The sample is read back from its text. -/
theorem Expr.parse_spelling_sample : sampleComposed.Composed ∧
    sampleComposed.assigned true = "$x = 7 - (2 - -$a.begin) ~ (-1) ** -3 ** -4 | " ++
      "true % \x7b 'k': null \x7d * ([\"s\"] + $b[0])" ∧
    ∃ p, Script.parse (sampleComposed.assigned true) =
      .ok ⟨[.assign ⟨[.variable ⟨"x", []⟩], .set, [sampleComposed], p⟩], [],
        sampleComposed.assigned true, none⟩ := by
  have hcomposed : sampleComposed.Composed := by
    have ha : IsVariableName "a" := ⟨by decide, List.all_eq_true.mp (by decide +kernel)⟩
    have hb : IsVariableName "b" := ⟨by decide, List.all_eq_true.mp (by decide +kernel)⟩
    have hbegin : IsFieldName "begin" := .inl (by decide +kernel)
    simp [sampleComposed, Composed, itemsComposed, entriesComposed, accessorsComposed, ha, hb,
      hbegin, Word.signedLimit]
  exact ⟨hcomposed, by decide +kernel, (parse_spelling true hcomposed).2⟩

/-- The least integer of 64 bits has no text: its digits without the sign are none of them. -/
theorem Expr.not_parse_spelling_least :
    (Expr.literal (.int (-9223372036854775808))).spelling false = "-9223372036854775808" ∧
      (∀ ts, Token.scan "-9223372036854775808".toList ≠ .ok ts) ∧
      ∀ s, Script.parse "-9223372036854775808" ≠ .ok s := by
  have hscan : Token.scan "-9223372036854775808".toList =
      .error ⟨.badNumber "9223372036854775808", ⟨1, 2⟩⟩ := by cbv
  refine ⟨by cbv, fun ts h => ?_, fun s h => ?_⟩
  · rw [hscan] at h
    cases h
  · rw [Script.parse, Script.read, hscan] at h
    cases h

end TabPilot
