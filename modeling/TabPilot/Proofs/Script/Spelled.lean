import TabPilot.Proofs.Script.Phrases

set_option autoImplicit false

/-! # Expressions with few parentheses

`Expr.spelled` writes an expression with parentheses only where an operand binds less tightly than
its place asks for. The places are those of the grammar: from loosest to tightest `|`, then `^`
and `~`, then `&`, then `+` and `-`, then `*`, `/` and `%`, then the sign, then `**`; all group to
the left but `**`, which takes a signed operand on its right. The main statement,
`Expr.term_spelled`, says that what is written so is scanned into the tokens of its pieces.
-/

namespace TabPilot

open Piece

/-! ## Levels -/

/-- How tightly an operator binds. -/
def BinaryOp.tightness : BinaryOp → Nat
  | .bitOr => 0
  | .bitXor => 1
  | .bitAnd => 2
  | .add | .subtract => 3
  | .multiply | .divide | .modulo => 4
  | .power => 6

/-- How tightly the left operand of an operator has to bind. -/
def BinaryOp.lhsLevel : BinaryOp → Nat
  | .power => 7
  | op => op.tightness

/-- How tightly the right operand of an operator has to bind. -/
def BinaryOp.rhsLevel : BinaryOp → Nat
  | .power => 5
  | op => op.tightness + 1

/-- The symbol of an operator. One operator has two of them; `tilde` says which is taken. -/
def BinaryOp.spelled (tilde : Bool) : BinaryOp → Symbol
  | .bitXor => if tilde then .tilde else .caret
  | op => op.token

/-- How tightly an expression binds. The sign of a number counts as a sign. -/
def Expr.tightness : Expr → Nat
  | .literal (.int i) => if i < 0 then 5 else 7
  | .negate _ => 5
  | .binary op _ _ => op.tightness
  | _ => 7

/-- Pieces in parentheses, unless they bind tightly enough. -/
def enclosed (level tightness : Nat) (ps : List Piece) : List Piece :=
  if level ≤ tightness then ps else parens ps

/-! ## Writing -/

mutual

/-- How an expression is written with parentheses only where they are needed. -/
def Expr.spelled (tilde : Bool) : Expr → List Piece
  | .literal v => v.literalPieces
  | .text content interpolated => [.token (.text content interpolated)]
  | .array items =>
      symbol .openBracket :: (commas (spelledItems tilde items) ++ [symbol .closeBracket])
  | .object entries =>
      symbol .openBrace :: (commas (spelledEntries tilde entries) ++ [symbol .closeBrace])
  | .variable name accessors => .token (.variable name) :: spelledAccessors tilde accessors
  | .pattern p => [.token (.pattern p.source p.flags)]
  | .negate e => .sign :: enclosed 5 e.tightness (e.spelled tilde)
  | .binary op lhs rhs =>
      enclosed op.lhsLevel lhs.tightness (lhs.spelled tilde) ++
        symbol (op.spelled tilde) :: enclosed op.rhsLevel rhs.tightness (rhs.spelled tilde)

def spelledItems (tilde : Bool) : List Expr → List (List Piece)
  | [] => []
  | e :: rest => e.spelled tilde :: spelledItems tilde rest

def spelledEntries (tilde : Bool) : List (String × Expr) → List (List Piece)
  | [] => []
  | (name, e) :: rest =>
      (.token (.text name false) :: symbol .colon :: e.spelled tilde) ::
        spelledEntries tilde rest

def spelledAccessors (tilde : Bool) : List Accessor → List Piece
  | [] => []
  | .field name :: rest => .dot :: fieldPiece name :: spelledAccessors tilde rest
  | .index e :: rest =>
      .index :: (e.spelled tilde ++ symbol .closeBracket :: spelledAccessors tilde rest)

end

def Expr.spelling (tilde : Bool) (e : Expr) : String :=
  String.ofList (textAfter .newline (e.spelled tilde))

mutual

/-- Whether an expression is built from integers, `true`, `false`, `null`, texts, variables with
accessors, lists, objects, signs and operators. No sign stands before a number, since that would be
the number's own. -/
def Expr.Composed : Expr → Prop
  | .literal .null | .literal (.bool _) | .text _ _ => True
  | .literal (.int i) => -Word.signedLimit < i ∧ i < Word.signedLimit
  | .literal _ | .pattern _ => False
  | .array items => itemsComposed items
  | .object entries => entriesComposed entries
  | .variable name accessors => IsVariableName name ∧ accessorsComposed accessors
  | .negate e => e.Composed ∧ ∀ i, e ≠ .literal (.int i)
  | .binary _ lhs rhs => lhs.Composed ∧ rhs.Composed

def itemsComposed : List Expr → Prop
  | [] => True
  | e :: rest => e.Composed ∧ itemsComposed rest

def entriesComposed : List (String × Expr) → Prop
  | [] => True
  | (_, e) :: rest => e.Composed ∧ entriesComposed rest

def accessorsComposed : List Accessor → Prop
  | [] => True
  | .field name :: rest => IsFieldName name ∧ accessorsComposed rest
  | .index e :: rest => e.Composed ∧ accessorsComposed rest

end

namespace Piece

open Lexeme

/-! ## What may follow -/

/-- Whether a text may follow something that accessors may follow. -/
def Follows (next : List Char) : Prop :=
  (∀ c ∈ next.head?, ends c = true ∧ c ≠ ':') ∧ lineEnds next = false

/-- Whether a text may follow an operand. -/
def FollowsOperand (next : List Char) : Prop := Follows next ∧ ∀ c ∈ next.head?, c ≠ '.'

/-- Whether pieces may follow an operand, whichever piece it ends with. -/
def Closes (rest : List Piece) : Prop :=
  ∀ z : Piece, z.opens = false → wantsPattern (some z.kind) = false →
    Scans z rest ∧ FollowsOperand (textAfter z rest)

theorem Follows.not_extends {next : List Char} (h : Follows next) :
    ∀ c ∈ next.head?, extends? c = false := by
  intro c hc
  obtain ⟨hends, hcolon⟩ := h.1 c hc
  exact (stops_of_ends hends).2.2.2.2.2 hcolon

theorem Follows.not_isWordChar {next : List Char} (h : Follows next) :
    ∀ c ∈ next.head?, isWordChar c = false :=
  fun c hc => (stops_of_ends (h.1 c hc).1).1

theorem Follows.not_isDigit {next : List Char} (h : Follows next) :
    ∀ c ∈ next.head?, c.isDigit = false :=
  fun c hc => (stops_of_ends (h.1 c hc).1).2.1

theorem closes_nil : Closes [] :=
  fun _ _ _ => ⟨trivial, ⟨⟨nofun, rfl⟩, nofun⟩⟩

/-! ## One piece -/

theorem legible_word {x : Piece} {w : String} {next : List Char} (hw : IsWord w)
    (follows : Follows next) : LegibleIn x (word w) next where
  chars := by
    obtain ⟨c, cs, htext, -⟩ := hw
    show w.toList ≠ []
    rw [htext]
    exact nofun
  reads _ _ _ := reads_word hw (.inr follows.2) follows.not_isWordChar
  accessor := nofun

theorem legible_variable {x : Piece} {name : String} {next : List Char}
    (hname : IsVariableName name) (follows : Follows next) :
    LegibleIn x (.token (.variable name)) next where
  chars := nofun
  reads _ _ _ := reads_variable hname follows.not_isWordChar
  accessor := nofun

theorem legible_text {x : Piece} (content : String) (interpolated : Bool) {next : List Char} :
    LegibleIn x (.token (.text content interpolated)) next where
  chars := nofun
  reads _ _ _ := reads_text content interpolated next
  accessor := nofun

theorem legible_int {x : Piece} {n : Nat} {next : List Char} (hn : (n : Int) < Word.signedLimit)
    (follows : FollowsOperand next) : LegibleIn x (.token (.int n)) next where
  chars := by
    rw [chars, kind, chars_int (by omega)]
    exact Nat.toDigits_ne_nil
  reads _ _ _ := by
    rw [chars, kind, chars_int (by omega)]
    refine reads_int hn follows.1.not_isDigit (.inr fun c hc => ?_)
    obtain ⟨-, -, -, he, hE, -⟩ := stops_of_ends (follows.1.1 c hc).1
    exact ⟨follows.2 c hc, he, hE⟩
  accessor := nofun

theorem legible_position {n : Nat} {next : List Char} (hn : (n : Int) < Word.signedLimit)
    (follows : Follows next) : LegibleIn .dot (.position n) next where
  chars := by
    rw [chars, kind, chars_int (by omega)]
    exact Nat.toDigits_ne_nil
  reads _ _ same := by
    rw [chars, kind, chars_int (by omega)]
    -- After a dot a number takes no fraction, so that nothing is asked of what follows.
    exact reads_int hn follows.not_isDigit (.inl same.2)
  accessor := nofun

theorem legible_symbol {x : Piece} {s : Symbol} {next : List Char}
    (hx : wantsPattern (some x.kind) = false)
    (longest : Symbol.leading? (s.text.toList ++ next) = some s) :
    LegibleIn x (symbol s) next where
  chars := by
    obtain ⟨c, cs, htext, -⟩ := exists_of_symbol s
    show s.text.toList ≠ []
    rw [htext]
    exact nofun
  reads _ _ same := reads_symbol (fun _ => same.1.trans hx) longest
  accessor := nofun

theorem legible_sign {x : Piece} {next : List Char} (h : ∀ c ∈ next.head?, extends? c = false) :
    LegibleIn x .sign next where
  chars := nofun
  reads _ _ _ := reads_symbol (by rintro (h | h) <;> cases h) (leading?_eq .minus h)
  accessor := nofun

/-! ## Terms -/

/-- Pieces that are legible wherever an operand may stand, in front of everything that may follow
one. -/
structure Term (ps : List Piece) : Prop where
  starts : ∃ y ys, ps = y :: ys ∧ y.closes = false ∧ ∃ c cs, y.chars = c :: cs ∧ extends? c = false
  scans : ∀ rest, Closes rest → ∀ x : Piece, wantsPattern (some x.kind) = false →
    Scans x (ps ++ rest)

/-- No term makes another symbol of the one before it. -/
theorem Term.not_extends {ps : List Piece} (h : Term ps) (x : Piece) (rest : List Piece) :
    ∀ c ∈ (textAfter x (ps ++ rest)).head?, extends? c = false := by
  obtain ⟨y, ys, rfl, -, d, cs, hchars, hd⟩ := h.starts
  intro c hc
  rw [List.cons_append, textAfter, between, hchars] at hc
  split at hc
  · obtain rfl : d = c := Option.some.inj hc
    exact hd
  · obtain rfl : ' ' = c := Option.some.inj hc
    decide

/-- The symbols that may follow an operand. -/
def separates : Symbol → Bool
  | .closeParen | .closeBracket | .closeBrace | .comma => true
  | .pipe | .caret | .tilde | .ampersand | .plus | .minus | .star | .slash | .percent => true
  | .power => true
  | _ => false

theorem closes_symbol {s : Symbol} {rest : List Piece} (hs : separates s = true)
    (scans : Scans (symbol s) rest)
    (longest : ∀ c ∈ (textAfter (symbol s) rest).head?, extends? c = false) :
    Closes (symbol s :: rest) := by
  intro z hz hpattern
  refine ⟨⟨legible_symbol hpattern (leading?_eq s longest), scans⟩, ?_⟩
  -- Closing brackets and commas follow directly, all other symbols after a blank.
  rw [textAfter, between, hz, Bool.false_or]
  cases s with
  | closeParen | closeBracket | comma =>
      exact ⟨⟨by rintro c ⟨⟩; decide, rfl⟩, by rintro c ⟨⟩; decide⟩
  | closeBrace | pipe | caret | tilde | ampersand | plus | minus | star | slash | percent | power =>
      exact ⟨⟨by rintro c ⟨⟩; decide, rfl⟩, by rintro c ⟨⟩; decide⟩
  | _ => cases hs

/-- A closing bracket may stand in front of whatever may follow an operand. -/
theorem Closes.closing {s : Symbol} {rest : List Piece} (h : Closes rest)
    (hs : separates s = true) (hopens : (symbol s).opens = false)
    (hpattern : wantsPattern (some (symbol s).kind) = false) : Closes (symbol s :: rest) := by
  obtain ⟨scans, follows⟩ := h (symbol s) hopens hpattern
  exact closes_symbol hs scans follows.1.not_extends

/-- A piece that stands for an operand by itself. -/
theorem Term.singleton {y : Piece} (hopens : y.opens = false) (hcloses : y.closes = false)
    (hpattern : wantsPattern (some y.kind) = false)
    (starts : ∃ c cs, y.chars = c :: cs ∧ extends? c = false)
    (legible : ∀ x next, FollowsOperand next → LegibleIn x y next) : Term [y] where
  starts := ⟨y, [], rfl, hcloses, starts⟩
  scans rest closes x _ := by
    obtain ⟨scans, follows⟩ := closes y hopens hpattern
    exact ⟨legible x _ follows, scans⟩

/-- Two terms with a symbol between them. -/
theorem Term.append {ps qs : List Piece} {s : Symbol} (hps : Term ps) (hqs : Term qs)
    (hs : separates s = true) (hpattern : wantsPattern (some (symbol s).kind) = false) :
    Term (ps ++ symbol s :: qs) where
  starts := by
    obtain ⟨y, ys, rfl, hstarts⟩ := hps.starts
    exact ⟨y, _, rfl, hstarts⟩
  scans rest closes x hx := by
    have hrest : Closes (symbol s :: (qs ++ rest)) :=
      closes_symbol hs (hqs.scans rest closes _ hpattern) (hqs.not_extends _ rest)
    rw [List.append_assoc, List.cons_append]
    exact hps.scans _ hrest x hx

theorem Term.signed {ps : List Piece} (h : Term ps) : Term (.sign :: ps) where
  starts := ⟨_, _, rfl, rfl, '-', [], rfl, by decide⟩
  scans rest closes _ _ := ⟨legible_sign (h.not_extends .sign rest), h.scans rest closes .sign rfl⟩

theorem Term.commas {pss : List (List Piece)} (hne : pss ≠ []) (h : ∀ ps ∈ pss, Term ps) :
    Term (Piece.commas pss) := by
  induction pss with
  | nil => exact absurd rfl hne
  | cons ps pss ih =>
      have hps : Term ps := h ps List.mem_cons_self
      cases pss with
      | nil => exact hps
      | cons qs pss =>
          have hrest := ih (List.cons_ne_nil qs pss) fun rs hrs => h rs (List.mem_cons_of_mem _ hrs)
          exact hps.append hrest rfl rfl

/-- Terms with commas between them, if there are any, in brackets. -/
theorem Term.bracketed {opening closing : Symbol} {pss : List (List Piece)}
    (hopening : opening = .openBracket ∨ opening = .openBrace)
    (hclosing : closing = .closeBracket ∨ closing = .closeBrace) (h : ∀ ps ∈ pss, Term ps) :
    Term (symbol opening :: (Piece.commas pss ++ [symbol closing])) where
  starts := by rcases hopening with rfl | rfl <;> exact ⟨_, _, rfl, rfl, _, [], rfl, by decide⟩
  scans rest closes x hx := by
    have hrest : Closes (symbol closing :: rest) := by
      rcases hclosing with rfl | rfl <;> exact closes.closing rfl rfl rfl
    have hpattern : wantsPattern (some (symbol opening).kind) = false := by
      rcases hopening with rfl | rfl <;> rfl
    have hlongest : ∀ next, Symbol.leading? (opening.text.toList ++ next) = some opening := by
      rcases hopening with rfl | rfl <;> exact fun _ => rfl
    have hinside : Scans (symbol opening) (Piece.commas pss ++ symbol closing :: rest) := by
      by_cases hne : pss = []
      · subst hne
        have hclose : ∀ next, Symbol.leading? (closing.text.toList ++ next) = some closing := by
          rcases hclosing with rfl | rfl <;> exact fun _ => rfl
        have scans : Scans (symbol closing) rest := by
          rcases hclosing with rfl | rfl <;> exact (closes (symbol _) rfl rfl).1
        exact ⟨legible_symbol hpattern (hclose _), scans⟩
      · exact (Term.commas hne h).scans _ hrest _ hpattern
    rw [List.cons_append, List.append_assoc, List.singleton_append]
    exact ⟨legible_symbol hx (hlongest _), hinside⟩

theorem Term.parens {ps : List Piece} (h : Term ps) : Term (parens ps) where
  starts := ⟨_, _, rfl, rfl, '(', [], rfl, by decide⟩
  scans rest closes x hx := by
    rw [Piece.parens, List.cons_append, List.append_assoc, List.singleton_append]
    exact ⟨legible_symbol hx rfl, h.scans _ (closes.closing rfl rfl rfl) _ rfl⟩

theorem Term.enclosed {ps : List Piece} (h : Term ps) (level tightness : Nat) :
    Term (enclosed level tightness ps) := by
  unfold TabPilot.enclosed
  split
  · exact h
  · exact h.parens

/-- The name of a member, a colon, and the member's value. -/
theorem Term.member {ps : List Piece} (name : String) (h : Term ps) :
    Term (.token (.text name false) :: symbol .colon :: ps) where
  starts := ⟨_, _, rfl, rfl, _, _, rfl, by decide⟩
  scans rest closes x hx :=
    ⟨legible_text name false,
      legible_symbol rfl (leading?_eq .colon (h.not_extends (symbol .colon) rest)),
      h.scans rest closes _ rfl⟩

/-! ## Accessors -/

/-- Pieces that are legible directly after what has accessors. -/
def Tail (ps : List Piece) : Prop :=
  ∀ rest, Closes rest → ∀ x : Piece, x.opens = false → wantsPattern (some x.kind) = false →
    Scans x (ps ++ rest) ∧ Follows (textAfter x (ps ++ rest))

theorem Tail.nil : Tail [] := by
  intro rest closes x hopens hpattern
  obtain ⟨scans, follows⟩ := closes x hopens hpattern
  exact ⟨scans, follows.1⟩

theorem legible_accessor {x y : Piece} {s : Symbol} {next : List Char} (hopens : x.opens = false)
    (hy : y = .dot ∧ s = .dot ∨ y = .index ∧ s = .openBracket) : LegibleIn x y next where
  chars := by rcases hy with ⟨rfl, -⟩ | ⟨rfl, -⟩ <;> exact nofun
  reads _ _ _ := by
    rcases hy with ⟨rfl, -⟩ | ⟨rfl, -⟩ <;>
      exact reads_symbol (by rintro (h | h) <;> cases h) rfl
  accessor := by
    rintro - rfl
    cases hopens

theorem follows_accessor {y : Piece} {next : List Char} (hy : y = .dot ∨ y = .index) :
    Follows (y.chars ++ next) := by
  rcases hy with rfl | rfl <;> exact ⟨by rintro c ⟨⟩; decide, rfl⟩

theorem Tail.field {ps : List Piece} {name : String} (hname : IsFieldName name) (h : Tail ps) :
    Tail (.dot :: fieldPiece name :: ps) := by
  intro rest closes x hopens _
  have hblank : between x .dot = [] := if_pos (Bool.or_true _)
  refine ⟨⟨legible_accessor hopens (.inl ⟨rfl, rfl⟩), ?_⟩, ?_⟩
  · rcases hname with hword | ⟨n, hn, rfl⟩
    · obtain ⟨scans, follows⟩ := h rest closes (word name) rfl rfl
      rw [fieldPiece_word hword]
      exact ⟨legible_word hword follows, scans⟩
    · obtain ⟨scans, follows⟩ := h rest closes (.position n) rfl rfl
      rw [fieldPiece_toString hn]
      exact ⟨legible_position hn follows, scans⟩
  · rw [List.cons_append, textAfter, hblank]
    exact follows_accessor (.inl rfl)

theorem Tail.index {ps es : List Piece} (hes : Term es) (h : Tail ps) :
    Tail (.index :: (es ++ symbol .closeBracket :: ps)) := by
  intro rest closes x hopens _
  have hblank : between x .index = [] := if_pos (Bool.or_true _)
  obtain ⟨scans, follows⟩ := h rest closes (symbol .closeBracket) rfl rfl
  have hclose : Closes (symbol .closeBracket :: (ps ++ rest)) :=
    closes_symbol rfl scans follows.not_extends
  rw [List.cons_append, List.append_assoc, List.cons_append]
  refine ⟨⟨legible_accessor hopens (.inr ⟨rfl, rfl⟩), hes.scans _ hclose .index rfl⟩, ?_⟩
  rw [textAfter, hblank]
  exact follows_accessor (.inr rfl)

theorem Term.variable {ps : List Piece} {name : String} (hname : IsVariableName name)
    (h : Tail ps) : Term (.token (.variable name) :: ps) where
  starts := ⟨_, _, rfl, rfl, '$', name.toList, rfl, by decide⟩
  scans rest closes x _ := by
    obtain ⟨scans, follows⟩ := h rest closes (.token (.variable name)) rfl rfl
    exact ⟨legible_variable hname follows, scans⟩

end Piece

/-! ## Expressions -/

theorem term_word {w : String} (hw : IsWord w) : Term [word w] := by
  refine .singleton rfl rfl rfl ?_ fun _ _ follows => legible_word hw follows.1
  obtain ⟨c, cs, htext, hstart, -⟩ := hw
  exact ⟨c, cs, htext, Lexeme.extends?_of_startsWord hstart⟩

theorem term_int {n : Nat} (hn : (n : Int) < Word.signedLimit) : Term [.token (.int n)] := by
  refine .singleton rfl rfl rfl ?_ fun _ _ follows => legible_int hn follows
  have hchars : (Piece.token (.int n)).chars = Nat.toDigits 10 n := chars_int (by omega)
  obtain ⟨d, ds, hds⟩ := List.exists_cons_of_ne_nil (Nat.toDigits_ne_nil (n := n) (b := 10))
  have hdigit : d.isDigit = true :=
    Lexeme.isDigit_of_mem_toDigits d (by rw [hds]; exact List.mem_cons_self)
  exact ⟨d, ds, hchars.trans hds, Lexeme.extends?_of_isDigit hdigit⟩

theorem term_text (content : String) (interpolated : Bool) :
    Term [.token (.text content interpolated)] := by
  refine .singleton rfl rfl rfl ?_ fun _ _ _ => legible_text content interpolated
  cases interpolated <;> exact ⟨_, _, rfl, by decide⟩

theorem Value.term_literalPieces {v : Value} (h : (Expr.literal v).Composed) :
    Term v.literalPieces := by
  cases v with
  | null => exact term_word isWord_null
  | bool b =>
      cases b
      · exact term_word isWord_false
      · exact term_word isWord_true
  | int i =>
      obtain ⟨hlow, hhigh⟩ := h
      by_cases hi : i < 0
      · obtain ⟨n, hn⟩ := Int.eq_ofNat_of_zero_le (a := -i) (by omega)
        rw [literalPieces, if_pos hi, hn]
        exact (term_int (by omega)).signed
      · obtain ⟨n, rfl⟩ := Int.eq_ofNat_of_zero_le (a := i) (by omega)
        rw [literalPieces, if_neg hi]
        exact term_int hhigh
  | _ => exact h.elim

mutual

/-- **Expressions are legible.** What is written for an expression is a term. -/
theorem Expr.term_spelled (tilde : Bool) : ∀ e : Expr, e.Composed → Term (e.spelled tilde)
  | .literal _, h => Value.term_literalPieces h
  | .text content interpolated, _ => term_text content interpolated
  | .array items, h => .bracketed (.inl rfl) (.inl rfl) (term_spelledItems tilde items h)
  | .object entries, h => .bracketed (.inr rfl) (.inr rfl) (term_spelledEntries tilde entries h)
  | .variable _ accessors, h => .variable h.1 (tail_spelledAccessors tilde accessors h.2)
  | .pattern _, h => h.elim
  | .negate e, h => ((e.term_spelled tilde h.1).enclosed _ _).signed
  | .binary op lhs rhs, h => by
      have hlhs := (lhs.term_spelled tilde h.1).enclosed op.lhsLevel lhs.tightness
      have hrhs := (rhs.term_spelled tilde h.2).enclosed op.rhsLevel rhs.tightness
      have hop : separates (op.spelled tilde) = true ∧
          Lexeme.wantsPattern (some (symbol (op.spelled tilde)).kind) = false := by
        cases op <;> cases tilde <;> exact ⟨rfl, rfl⟩
      exact hlhs.append hrhs hop.1 hop.2

theorem term_spelledItems (tilde : Bool) : ∀ items : List Expr, itemsComposed items →
    ∀ ps ∈ spelledItems tilde items, Term ps
  | [], _ => nofun
  | e :: rest, h => by
      intro ps hps
      rcases List.mem_cons.mp hps with rfl | hps
      · exact e.term_spelled tilde h.1
      · exact term_spelledItems tilde rest h.2 ps hps

theorem term_spelledEntries (tilde : Bool) : ∀ entries : List (String × Expr),
    entriesComposed entries → ∀ ps ∈ spelledEntries tilde entries, Term ps
  | [], _ => nofun
  | (name, e) :: rest, h => by
      intro ps hps
      rcases List.mem_cons.mp hps with rfl | hps
      · exact (e.term_spelled tilde h.1).member name
      · exact term_spelledEntries tilde rest h.2 ps hps

theorem tail_spelledAccessors (tilde : Bool) : ∀ accessors : List Accessor,
    accessorsComposed accessors → Tail (spelledAccessors tilde accessors)
  | [], _ => .nil
  | .field _ :: rest, h => (tail_spelledAccessors tilde rest h.2).field h.1
  | .index e :: rest, h => .index (e.term_spelled tilde h.1) (tail_spelledAccessors tilde rest h.2)

end

end TabPilot
