import TabPilot.Proofs.Path.References
import TabPilot.Proofs.Script.Expressions
import TabPilot.Proofs.Script.Spelled
import TabPilot.Run.Expression

set_option autoImplicit false

/-! # References in code and in templates

A reference behind a `$` is an expression, and in braces it is a placeholder of a template. The
text of one is scanned and parsed, that of the other is read as a path. `Reference.parse_text` says
which expression is parsed, `Reference.eval_expr` that its value is what is found at the path of the
reference, and `Reference.reads_the_same` puts the two sides together.
-/

namespace TabPilot

open Grammar Piece

/-- Whether a text is parsed, as an expression, to the given one. -/
def ParsesAs (text : String) (e : Expr) : Prop :=
  ∃ ts last, Token.scan text.toList = .ok ts ∧
    Grammar.expression (Grammar.budget ts.length) 0 ts = .ok (e, [⟨.endOfInput, last, true⟩])

theorem ParsesAs.unique {text : String} {e e' : Expr} (h : ParsesAs text e)
    (h' : ParsesAs text e') : e' = e := by
  obtain ⟨ts, last, hscan, hread⟩ := h
  obtain ⟨ts', last', hscan', hread'⟩ := h'
  obtain rfl : ts = ts' := Except.ok.inj (hscan.symm.trans hscan')
  exact (Prod.mk.inj (Except.ok.inj (hread'.symm.trans hread))).1

namespace Reference

def Step.accessor : Step → Accessor
  | .field name => .field name
  | .position n => .field (toString n)
  | .index negative n => .index (.literal (.int (signedNumber negative n)))
  | .member name => .index (.text name false)

def expr (r : Reference) : Expr := .variable r.name (r.steps.map Step.accessor)

/-! ## Pieces -/

def numberPieces (negative : Bool) (n : Nat) : List Piece :=
  (if negative then [.sign] else []) ++ [.token (.int n)]

def Step.pieces (rest : List Piece) : Step → List Piece
  | .field name => .dot :: fieldPiece name :: rest
  | .position n => .dot :: fieldPiece (toString n) :: rest
  | .index negative n => .index :: (numberPieces negative n ++ symbol .closeBracket :: rest)
  | .member name => .index :: ([.token (.text name false)] ++ symbol .closeBracket :: rest)

def stepPieces : List Step → List Piece
  | [] => []
  | s :: rest => s.pieces (stepPieces rest)

def pieces (r : Reference) : List Piece := .token (.variable r.name) :: stepPieces r.steps

theorem term_numberPieces (negative : Bool) {n : Nat} (h : (n : Int) < Word.signedLimit) :
    Term (numberPieces negative n) := by
  cases negative with
  | false => exact term_int h
  | true => exact (term_int h).signed

theorem readable_numberPieces (negative : Bool) (n : Nat) :
    Readable (numberPieces negative n) (.literal (.int (signedNumber negative n))) := by
  cases negative with
  | false => exact readable_int n
  | true =>
      have hread := readable_negative (-(n : Int))
      rw [Int.neg_neg] at hread
      exact hread

theorem isFieldName_toString {n : Nat} (h : (n : Int) < Word.signedLimit) :
    IsFieldName (toString n) := .inr ⟨n, h, rfl⟩

theorem tail_stepPieces {steps : List Step} (h : ∀ s ∈ steps, s.IsWritten)
    (inRange : ∀ s ∈ steps, s.InRange) : Tail (stepPieces steps) := by
  induction steps with
  | nil => exact .nil
  | cons s steps ih =>
      have ih := ih (fun t ht => h t (List.mem_cons_of_mem s ht))
        fun t ht => inRange t (List.mem_cons_of_mem s ht)
      have hs := h s List.mem_cons_self
      have hrange := inRange s List.mem_cons_self
      cases s with
      | field name => exact ih.field (.inl hs)
      | position n => exact ih.field (isFieldName_toString hrange)
      | index negative n => exact .index (term_numberPieces negative hrange) ih
      | member name => exact .index (term_text name false) ih

theorem reads_stepPieces {steps : List Step} (h : ∀ s ∈ steps, s.IsWritten)
    (inRange : ∀ s ∈ steps, s.InRange) :
    ∀ fuel, 4 * (stepPieces steps).length + 1 ≤ fuel →
      Reads endsAccessors (accessors fuel) (stepPieces steps) (steps.map Step.accessor) := by
  induction steps with
  | nil => exact fun _ hfuel => reads_accessors_nil (by omega)
  | cons s steps ih =>
      intro fuel hfuel
      have ih := ih (fun t ht => h t (List.mem_cons_of_mem s ht))
        fun t ht => inRange t (List.mem_cons_of_mem s ht)
      have hs := h s List.mem_cons_self
      have hrange := inRange s List.mem_cons_self
      obtain ⟨fuel, rfl⟩ : ∃ n, fuel = n + 1 := ⟨fuel - 1, by omega⟩
      cases s with
      | field name =>
          have hlength : (stepPieces (.field name :: steps)).length =
              (stepPieces steps).length + 2 := rfl
          exact reads_accessors_field (.inl hs) (ih fuel (by omega))
      | position n =>
          have hlength : (stepPieces (.position n :: steps)).length =
              (stepPieces steps).length + 2 := rfl
          exact reads_accessors_field (isFieldName_toString hrange) (ih fuel (by omega))
      | index negative n =>
          have hlength : (stepPieces (.index negative n :: steps)).length =
              (numberPieces negative n).length + (stepPieces steps).length + 2 := by
            simp [stepPieces, Step.pieces]
            omega
          exact reads_accessors_index
            ((readable_numberPieces negative n).reads fuel (by omega)) (ih fuel (by omega))
      | member name =>
          have hlength : (stepPieces (.member name :: steps)).length =
              (stepPieces steps).length + 3 := rfl
          have htext : Readable [.token (.text name false)] (.text name false) := by
            refine readable_token rfl rfl ?_
            rintro fuel ⟨k, p, spaced⟩ u rest rfl
            rfl
          exact reads_accessors_index (htext.reads fuel (by simp; omega)) (ih fuel (by omega))

/-! ## Texts -/

/-- Without quotes and backslashes nothing is escaped. -/
theorem quoted_eq {quote : Char} {cs : List Char} (h : ∀ c ∈ cs, c ≠ quote ∧ c ≠ '\\') :
    quoted quote cs = quote :: (cs ++ [quote]) := by
  have hsame : cs.flatMap (escaped quote) = cs := by
    induction cs with
    | nil => rfl
    | cons c cs ih =>
        obtain ⟨hquote, hback⟩ := h c List.mem_cons_self
        have hc : escaped quote c = [c] := if_neg (not_or.mpr ⟨hquote, hback⟩)
        rw [List.flatMap_cons, hc, ih fun d hd => h d (List.mem_cons_of_mem c hd)]
        rfl
  rw [quoted, hsame]

theorem quoted_member {name : String} (h : (Step.member name).IsWritten) :
    quoted '\'' name.toList = '\'' :: (name.toList ++ ['\'']) := by
  refine quoted_eq fun c hc => ⟨?_, ?_⟩ <;>
    (rintro rfl; exact h _ hc (by decide))

theorem textAfter_numberPieces (negative : Bool) (n : Nat) (rest : List Piece) :
    textAfter .index (numberPieces negative n ++ symbol .closeBracket :: rest) =
      signedDigits negative n ++ ']' :: textAfter (symbol .closeBracket) rest := by
  have hint : (Piece.token (.int n)).chars = Nat.toDigits 10 n := chars_int (by omega)
  cases negative with
  | false => simp [numberPieces, signedDigits, textAfter, between, opens, closes, hint]; rfl
  | true => simp [numberPieces, signedDigits, textAfter, between, opens, closes, hint]; rfl

/-- The text of accessors is that of their pieces. -/
theorem textAfter_stepPieces {steps : List Step} (h : ∀ s ∈ steps, s.IsWritten)
    (inRange : ∀ s ∈ steps, s.InRange) (x : Piece) :
    textAfter x (stepPieces steps) = steps.flatMap Step.chars := by
  induction steps generalizing x with
  | nil => rfl
  | cons s steps ih =>
      have ih := ih (fun t ht => h t (List.mem_cons_of_mem s ht))
        fun t ht => inRange t (List.mem_cons_of_mem s ht)
      have hs := h s List.mem_cons_self
      have hrange := inRange s List.mem_cons_self
      have hdot : between x .dot = [] := if_pos (Bool.or_true _)
      have hindex : between x .index = [] := if_pos (Bool.or_true _)
      rw [List.flatMap_cons]
      cases s with
      | field name =>
          rw [stepPieces, Step.pieces, textAfter, hdot, fieldPiece_word hs, textAfter, ih]
          rfl
      | position n =>
          have hchars : (Piece.position n).chars = Nat.toDigits 10 n := chars_int (by omega)
          rw [stepPieces, Step.pieces, textAfter, hdot, fieldPiece_toString hrange, textAfter, ih,
            hchars]
          rfl
      | index negative n =>
          rw [stepPieces, Step.pieces, textAfter, hindex, textAfter_numberPieces, ih]
          show '[' :: (signedDigits negative n ++ ']' :: steps.flatMap Step.chars) = _
          simp [Step.chars]
      | member name =>
          have hquoted : (Piece.token (.text name false)).chars = '\'' :: (name.toList ++ ['\'']) :=
            quoted_member hs
          rw [stepPieces, Step.pieces, textAfter, hindex, List.singleton_append, textAfter,
            textAfter, ih, hquoted]
          show '[' :: ('\'' :: (name.toList ++ ['\'']) ++ ']' :: steps.flatMap Step.chars) = _
          simp [Step.chars]

theorem toList_dollar (r : Reference) : ("$" ++ r.text).toList = '$' :: r.chars := by
  rw [String.toList_append, toList_text]
  rfl

theorem textAfter_pieces {r : Reference} (h : r.IsWritten) (inRange : ∀ s ∈ r.steps, s.InRange) :
    textAfter .newline r.pieces = '$' :: r.chars := by
  rw [pieces, textAfter, textAfter_stepPieces h.steps inRange]
  rfl

/-- **A reference** behind a `$` is parsed to its expression. -/
theorem parse_text {r : Reference} (h : r.IsWritten) (inRange : ∀ s ∈ r.steps, s.InRange) :
    ParsesAs ("$" ++ r.text) r.expr := by
  have hscans := (Term.variable h.name (tail_stepPieces h.steps inRange)).scans [] closes_nil
    .newline rfl
  rw [List.append_nil] at hscans
  obtain ⟨place, last, hscan⟩ := Token.scanFrom_scans r.pieces .newline [] true ⟨1, 1⟩ hscans
    ⟨rfl, rfl⟩ (.inr rfl)
  have hreadable : Readable r.pieces r.expr := by
    refine readable_of_primary rfl rfl fun fuel hfuel => ?_
    obtain ⟨fuel, rfl⟩ : ∃ n, fuel = n + 1 := ⟨fuel - 1, by omega⟩
    exact (primary_variable (reads_stepPieces h.steps inRange fuel (by omega))).mono
      fun _ => endsAccessors_of_stops
  rw [textAfter_pieces h inRange] at hscan
  refine ⟨_, last, (toList_dollar r).symm ▸ hscan,
    hreadable.reads _ ?_ place ⟨.endOfInput, last, true⟩ [] rfl⟩
  simp only [Grammar.budget, List.length_append, length_tokens]
  omega

end Reference

/-! ## Numbers out of range -/

namespace Lexeme

/-- Digits of a number out of range are not read. -/
theorem signed64?_toDigits_eq_none {n : Nat} (h : Word.signedLimit ≤ n) :
    Decimal.signed64? (String.ofList (Nat.toDigits 10 n)) = none := by
  have hdigits : ∀ c ∈ Nat.toDigits 10 n, c.isDigit = true := isDigit_of_mem_toDigits
  have hnone : Word.inSigned? (n : Int) = none := by
    rw [Word.inSigned?, decide_eq_false (Int.not_lt.mpr h), Bool.and_false]
    rfl
  unfold Decimal.signed64?
  rw [String.toList_ofList, takeSign_of_isDigit hdigits]
  simp [natOfDigits_toDigits, hnone]

end Lexeme

namespace Token

open Lexeme

variable {done : List Token} {spaced : Bool} {p : Position} {next : List Char} {ts : List Token}

/-- Digits that are scanned are those of a number in range. -/
theorem inRange_of_scanFrom {n : Nat} (stop : ∀ c ∈ next.head?, c.isDigit = false)
    (whole : isDot (done.head?.map Token.kind) = true ∨
      ∀ c ∈ next.head?, c ≠ '.' ∧ c ≠ 'e' ∧ c ≠ 'E')
    (h : scanFrom done spaced p (Nat.toDigits 10 n ++ next) = .ok ts) :
    (n : Int) < Word.signedLimit := by
  refine Decidable.byContradiction fun hout => ?_
  have hnumber := number_digits (n := n) stop whole
  simp only [signed64?_toDigits_eq_none (Int.not_lt.mp hout)] at hnumber
  obtain ⟨d, ds, hds⟩ : ∃ d ds, Nat.toDigits 10 n = d :: ds :=
    List.exists_cons_of_ne_nil Nat.toDigits_ne_nil
  have hd : d.isDigit = true := isDigit_of_mem_toDigits (n := n) d (by simp [hds])
  have hne : ∀ x : Char, x.isDigit = false → d ≠ x := by
    rintro x hx rfl
    rw [hd] at hx
    cases hx
  have hgap : gap d (ds ++ next) = 0 :=
    gap_eq_zero (hne ' ' (by decide)) (hne '\t' (by decide)) (hne '\r' (by decide))
      (hne '#' (by decide)) (hne '\\' (by decide))
  rw [hds, List.cons_append] at h hnumber
  have hleading : leading (done.head?.map Token.kind) d (ds ++ next) =
      .error ⟨.badNumber (String.ofList (d :: ds)), 0⟩ := by
    simpa [leading, hne '$' (by decide), hne '"' (by decide), hne '\'' (by decide), hd]
      using hnumber
  rw [scanFrom] at h
  simp only [hgap, ne_eq, not_true_eq_false, if_false, hne '\n' (by decide), hleading] at h
  cases h

theorem scanFrom_symbol {s : Symbol} (noSlash : s ≠ .slash ∧ s ≠ .divideAssign)
    (longest : Symbol.leading? (s.text.toList ++ next) = some s) :
    scanFrom done spaced p (s.text.toList ++ next) =
      scanFrom (⟨.symbol s, p, spaced⟩ :: done) false (p.afterAll s.text.toList) next := by
  refine scanFrom_reads (reads_symbol (fun hs => ?_) longest) ?_
  · exact (hs.elim noSlash.1 noSlash.2).elim
  · obtain ⟨c, cs, htext, -⟩ := exists_of_symbol s
    rw [htext]
    exact nofun

end Token

namespace Reference

open Lexeme Token

/-- A number between brackets that is scanned is in range, and what follows it is scanned too. -/
theorem inRange_of_scanFrom_signedDigits {negative : Bool} {n : Nat} {next : List Char}
    {done : List Token} {spaced : Bool} {p : Position} {ts : List Token}
    (h : scanFrom done spaced p (signedDigits negative n ++ ']' :: next) = .ok ts) :
    (n : Int) < Word.signedLimit ∧ ∃ done' p', scanFrom done' false p' (']' :: next) = .ok ts := by
  have hdigits : ∀ c ∈ Nat.toDigits 10 n, c.isDigit = true := isDigit_of_mem_toDigits
  have hstop : ∀ c ∈ (']' :: next).head?, c.isDigit = false := by
    rintro c ⟨⟩
    decide
  have hwhole : ∀ c ∈ (']' :: next).head?, c ≠ '.' ∧ c ≠ 'e' ∧ c ≠ 'E' := by
    rintro c ⟨⟩
    decide
  -- The sign, if there is one, is a token of its own.
  obtain ⟨done', spaced', p', h⟩ : ∃ done' spaced' p',
      scanFrom done' spaced' p' (Nat.toDigits 10 n ++ ']' :: next) = .ok ts := by
    cases negative with
    | false => exact ⟨done, spaced, p, h⟩
    | true =>
        have hsign : Symbol.leading? (Symbol.minus.text.toList ++
            (Nat.toDigits 10 n ++ ']' :: next)) = some .minus := by
          obtain ⟨d, ds, hds⟩ : ∃ d ds, Nat.toDigits 10 n = d :: ds :=
            List.exists_cons_of_ne_nil Nat.toDigits_ne_nil
          refine leading?_eq .minus fun c hc => extends?_of_isDigit (hdigits c ?_)
          rw [hds] at hc ⊢
          exact Option.some.inj hc ▸ List.mem_cons_self
        exact ⟨_, _, _, (scanFrom_symbol (by decide) hsign).symm.trans h⟩
  have hrange := Token.inRange_of_scanFrom hstop (.inr hwhole) h
  exact ⟨hrange, _, _,
    (scanFrom_reads (reads_int hrange hstop (.inr hwhole)) Nat.toDigits_ne_nil).symm.trans h⟩

/-- An accessor that is scanned has no number out of range, and what follows it is scanned too. -/
theorem Step.inRange_of_scanFrom {s : Step} (hs : s.IsWritten) {next : List Char}
    (follows : Follows next) {done : List Token} {spaced : Bool} {p : Position} {ts : List Token}
    (h : scanFrom done spaced p (s.chars ++ next) = .ok ts) :
    s.InRange ∧ ∃ done' p', scanFrom done' false p' next = .ok ts := by
  have hdot (cs : List Char) : scanFrom done spaced p ('.' :: cs) =
      scanFrom (⟨.symbol .dot, p, spaced⟩ :: done) false (p.afterAll ['.']) cs :=
    scanFrom_symbol (s := .dot) (by decide) rfl
  have hopen (cs : List Char) : scanFrom done spaced p ('[' :: cs) =
      scanFrom (⟨.symbol .openBracket, p, spaced⟩ :: done) false (p.afterAll ['[']) cs :=
    scanFrom_symbol (s := .openBracket) (by decide) rfl
  have hclose {done : List Token} {p : Position}
      (h : scanFrom done false p (']' :: next) = .ok ts) :
      ∃ done' p', scanFrom done' false p' next = .ok ts :=
    ⟨_, _, (scanFrom_symbol (s := .closeBracket) (by decide) rfl).symm.trans h⟩
  -- After a dot one token is left to scan; between brackets it is followed by the closing one.
  cases s with
  | field name =>
      have hne : name.toList ≠ [] := by
        obtain ⟨c, cs, hname, -⟩ := hs
        rw [hname]
        exact List.cons_ne_nil c cs
      have hname := (hdot (name.toList ++ next)).symm.trans h
      exact ⟨trivial, _, _, (scanFrom_reads
        (reads_word hs (.inr follows.2) follows.not_isWordChar) hne).symm.trans hname⟩
  | position n =>
      have hdigits := (hdot (Nat.toDigits 10 n ++ next)).symm.trans h
      have hrange := Token.inRange_of_scanFrom follows.not_isDigit (.inl rfl) hdigits
      exact ⟨hrange, _, _, (scanFrom_reads (reads_int hrange follows.not_isDigit (.inl rfl))
        Nat.toDigits_ne_nil).symm.trans hdigits⟩
  | index negative n =>
      have hchars : (Step.index negative n).chars ++ next =
          '[' :: (signedDigits negative n ++ ']' :: next) := by
        simp [Step.chars]
      rw [hchars] at h
      obtain ⟨hrange, done', p', h⟩ :=
        inRange_of_scanFrom_signedDigits ((hopen _).symm.trans h)
      exact ⟨hrange, hclose h⟩
  | member name =>
      have hchars : (Step.member name).chars ++ next =
          '[' :: (quoted '\'' name.toList ++ ']' :: next) := by
        rw [quoted_member hs]
        simp [Step.chars]
      rw [hchars] at h
      exact ⟨trivial, hclose ((scanFrom_reads (reads_text name false (']' :: next))
        (List.cons_ne_nil _ _)).symm.trans ((hopen _).symm.trans h))⟩

theorem follows_steps (steps : List Step) : Follows (steps.flatMap Step.chars) := by
  cases steps with
  | nil => exact ⟨nofun, rfl⟩
  | cons s steps =>
      rw [List.flatMap_cons]
      cases s with
      | field name => exact follows_accessor (.inl rfl)
      | position n => exact follows_accessor (.inl rfl)
      | index negative n => exact follows_accessor (.inr rfl)
      | member name => exact follows_accessor (.inr rfl)

/-- **Accessors** that are scanned have no number out of range. -/
theorem inRange_of_scanFrom_steps {steps : List Step} (h : ∀ s ∈ steps, s.IsWritten)
    {done : List Token} {spaced : Bool} {p : Position} {ts : List Token}
    (hscan : scanFrom done spaced p (steps.flatMap Step.chars) = .ok ts) :
    ∀ s ∈ steps, s.InRange := by
  induction steps generalizing done spaced p with
  | nil => exact nofun
  | cons s steps ih =>
      rw [List.flatMap_cons] at hscan
      obtain ⟨hrange, done', p', hrest⟩ :=
        Step.inRange_of_scanFrom (h s List.mem_cons_self) (follows_steps steps) hscan
      intro t ht
      rcases List.mem_cons.mp ht with rfl | ht
      · exact hrange
      · exact ih (fun u hu => h u (List.mem_cons_of_mem s hu)) hrest t ht

/-- A reference that is scanned has no number out of range. -/
theorem inRange_of_parsesAs {r : Reference} (h : r.IsWritten) {e : Expr}
    (hparse : ParsesAs ("$" ++ r.text) e) : ∀ s ∈ r.steps, s.InRange := by
  obtain ⟨ts, -, hscan, -⟩ := hparse
  rw [toList_dollar] at hscan
  exact inRange_of_scanFrom_steps h.steps ((scanFrom_reads
    (reads_variable h.name (follows_steps r.steps).not_isWordChar) nofun).symm.trans hscan)

/-! ## Values -/

theorem signed?_signedNumber (negative : Bool) {n : Nat} (h : (n : Int) < Word.signedLimit) :
    (Value.int (signedNumber negative n)).signed? = some (signedNumber negative n) := by
  have hrange : signedNumber negative n < Word.signedLimit := by
    cases negative <;> simp only [signedNumber, Word.signedLimit] at h ⊢ <;> omega
  rw [Value.signed?, if_pos hrange]

variable (read : Path → Option Value)

/-- The accessors that are parsed lead along the path of those that are written. -/
theorem evalSteps_accessors {steps : List Step} (inRange : ∀ s ∈ steps, s.InRange)
    (name : String) :
    Expr.evalSteps read name (steps.map Step.accessor) = .ok (steps.map Step.segment) := by
  induction steps with
  | nil => rfl
  | cons s steps ih =>
      have ih := ih fun t ht => inRange t (List.mem_cons_of_mem s ht)
      have hrange := inRange s List.mem_cons_self
      cases s with
      | field field => simp [Step.accessor, Step.segment, Expr.evalSteps, ih, Except.map]
      | position n => simp [Step.accessor, Step.segment, Expr.evalSteps, ih, Except.map]
      | index negative n =>
          have hindex := signed?_signedNumber negative hrange
          simp [Step.accessor, Step.segment, Expr.evalSteps, Expr.eval, Segment.ofValue?, hindex,
            ih, Except.map]
      | member name =>
          simp [Step.accessor, Step.segment, Expr.evalSteps, Expr.eval, Segment.ofValue?, ih,
            Except.map]

theorem path_expr {r : Reference} (inRange : ∀ s ∈ r.steps, s.InRange) :
    Variable.path read ⟨r.name, r.steps.map Step.accessor⟩ = .ok r.path := by
  rw [Variable.path, evalSteps_accessors read inRange]
  rfl

/-- The value of a reference is what is found at its path, and `null` where nothing is. -/
theorem eval_expr {r : Reference} (inRange : ∀ s ∈ r.steps, s.InRange) :
    r.expr.eval read = .ok ((read r.path).getD .null) := by
  rw [expr, Expr.eval, evalSteps_accessors read inRange]
  rfl

/-- **A reference reads the same** in code and in templates, whatever is found where. If the text
behind a `$` is parsed to a variable with accessors, these stand for some path. Where a value is
found there, it is the value of the expression, and the text in braces gives that value as a text.
Where none is found, the expression is `null` and the template fails. -/
theorem reads_the_same {r : Reference} (h : r.IsWritten) {name : String}
    {accessors : List Accessor}
    (hparse : ParsesAs ("$" ++ r.text) (.variable name accessors)) :
    ∃ p, Variable.path read ⟨name, accessors⟩ = .ok p ∧
      (∀ v, read p = some v →
        Expr.eval read (.variable name accessors) = .ok v ∧
        Template.fill read ("\x7b" ++ r.text ++ "\x7d") = .ok v.render) ∧
      (read p = none →
        Expr.eval read (.variable name accessors) = .ok .null ∧
        Template.fill read ("\x7b" ++ r.text ++ "\x7d") = .error (.undefined r.text)) := by
  have inRange := inRange_of_parsesAs h hparse
  have hexpr : .variable name accessors = r.expr := (parse_text h inRange).unique hparse
  obtain ⟨rfl, rfl⟩ := Expr.variable.inj hexpr
  refine ⟨r.path, path_expr read inRange, fun v hv => ⟨?_, ?_⟩, fun hnone => ⟨?_, ?_⟩⟩
  · rw [← expr, eval_expr read inRange, hv, Option.getD_some]
  · rw [Template.fill_reference read h inRange, hv]
  · rw [← expr, eval_expr read inRange, hnone, Option.getD_none]
  · rw [Template.fill_reference read h inRange, hnone]

theorem reads_the_same_lastRow :
    let r : Reference := ⟨"page", [.field "rows", .index true 1, .member "id"]⟩
    let read : Path → Option Value := fun p => if p = r.path then some (.string "x7") else none
    r.text = "page.rows[-1]['id']" ∧ r.IsWritten ∧ ParsesAs ("$" ++ r.text) r.expr ∧
      r.expr.eval read = .ok (.string "x7") ∧
      Template.fill read ("\x7b" ++ r.text ++ "\x7d") = .ok "x7" := by
  intro r read
  have h : r.IsWritten := by decide
  have hparse : ParsesAs ("$" ++ r.text) r.expr := parse_text h (by decide)
  obtain ⟨p, hp, hfound, -⟩ := reads_the_same read h hparse
  obtain rfl : r.path = p := Except.ok.inj ((path_expr read (by decide)).symm.trans hp)
  obtain ⟨heval, hfill⟩ := hfound (.string "x7") (if_pos rfl)
  exact ⟨by decide, h, hparse, heval, hfill⟩

end Reference

end TabPilot
