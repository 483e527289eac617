import TabPilot.Proofs.Script.Lexing

set_option autoImplicit false

/-! # Scanning what was written

`Piece.Fits` says of a list of pieces that each of them can be read, and that no two of them run
into each other; `Piece.Scans` says only that each is read as its token where it stands. The main
statements, `scanFrom_scans` and `scanFrom_textAfter`, say that the text of such a list is scanned
into the tokens of the pieces; `tokens` are those tokens at any positions.
-/

namespace TabPilot.Piece

open Lexeme

/-- Whether a piece is read as its token when it stands alone. -/
def Legible : Piece → Prop
  | .newline | .dot | .index | .sign | .token (.symbol _) | .token (.text _ _) => True
  | .position n => (n : Int) < Word.signedLimit
  | .token (.word w) => IsWord w ∧ w ≠ "begin"
  | .token (.variable name) => IsVariableName name
  | .token (.int i) => 0 ≤ i ∧ i < Word.signedLimit
  | .token (.pattern source flags) =>
      (∀ c ∈ source.toList, c ≠ '/' ∧ c ≠ '\\' ∧ c ≠ '\n') ∧ ∀ c ∈ flags.toList, isFlag c = true
  | .token .newline | .token .endOfInput | .token (.float _) => False

/-- Whether a piece may stand after another one, and is read as its token there. Each field is
about one kind of piece, and holds of its own where neither piece is of that kind. -/
structure Joins (x y : Piece) : Prop where
  pattern : ∀ source flags, y = .token (.pattern source flags) →
    wantsPattern (some x.kind) = true := by rintro _ _ ⟨⟩
  slash : y = symbol .slash ∨ y = symbol .divideAssign → wantsPattern (some x.kind) = false := by
    rintro (h | h) <;> cases h
  accessor : y = .dot ∨ y = .index → x ≠ .newline := by rintro (h | h) <;> cases h
  dot : y = .dot → ∀ i, x ≠ .token (.int i) := by rintro ⟨⟩
  position : ∀ n, y = .position n → x = .dot := by rintro _ ⟨⟩
  sign : x = .sign → y = symbol .openParen ∨ ∃ n : Nat, y = .token (.int n) := by rintro ⟨⟩
  colon : y = symbol .colon → ∃ content, x = .token (.text content false) := by rintro ⟨⟩
  doubleColon : y = symbol .doubleColon → ∃ w, x = word w := by rintro ⟨⟩

/-- Whether pieces are read as their tokens after another one. -/
def Fits (x : Piece) : List Piece → Prop
  | [] => True
  | y :: rest => y.Legible ∧ Joins x y ∧ Fits y rest

/-- The tokens of pieces; `place` says where each of them starts and whether it is spaced, but
accessors are never spaced. -/
def tokens (place : Nat → Position × Bool) : List Piece → List Token
  | [] => []
  | y :: rest =>
      ⟨y.kind, (place 0).1, match y with | .dot | .index => false | _ => (place 0).2⟩ ::
        tokens (fun n => place (n + 1)) rest

/-! ## What follows a piece -/

/-- The characters that may follow a piece which does not open anything. -/
def ends (c : Char) : Bool := ['\n', ' ', '.', '[', ')', ']', ',', ';', ':'].contains c

theorem ends_of_head {x : Piece} {ps : List Piece} (fits : Fits x ps) (hx : x.opens = false) :
    ∀ c ∈ (textAfter x ps).head?,
      ends c = true ∧ (c = '.' → ∀ i, x ≠ .token (.int i)) ∧ (c = ':' → ∀ s, x ≠ symbol s) := by
  cases ps with
  | nil => simp [textAfter]
  | cons y rest =>
      obtain ⟨-, joins, -⟩ := fits
      intro c hc
      -- Only dots and colons ask for something about `x`; they are the pieces whose joins say what.
      have hplain : ∀ d, ends d = true → d ≠ '.' → d ≠ ':' → some d = some c →
          ends c = true ∧ (c = '.' → ∀ i, x ≠ .token (.int i)) ∧ (c = ':' → ∀ s, x ≠ symbol s) := by
        rintro d hd hdot hcolon ⟨⟩
        exact ⟨hd, fun h => absurd h hdot, fun h => absurd h hcolon⟩
      rw [textAfter, between, hx, Bool.false_or] at hc
      by_cases hy : y.closes = true
      · rw [if_pos hy, List.nil_append] at hc
        cases y with
        | newline => exact hplain '\n' (by decide) (by decide) (by decide) hc
        | index => exact hplain '[' (by decide) (by decide) (by decide) hc
        | dot =>
            obtain rfl : '.' = c := Option.some.inj hc
            exact ⟨by decide, fun _ => joins.dot rfl, fun h => absurd h (by decide)⟩
        | position n | sign => cases hy
        | token k =>
            cases k with
            | symbol s =>
                cases s with
                | closeParen => exact hplain ')' (by decide) (by decide) (by decide) hc
                | closeBracket => exact hplain ']' (by decide) (by decide) (by decide) hc
                | comma => exact hplain ',' (by decide) (by decide) (by decide) hc
                | semicolon => exact hplain ';' (by decide) (by decide) (by decide) hc
                | colon =>
                    obtain rfl : ':' = c := Option.some.inj hc
                    obtain ⟨content, rfl⟩ := joins.colon rfl
                    exact ⟨by decide, fun h => absurd h (by decide), fun _ => nofun⟩
                | doubleColon =>
                    obtain rfl : ':' = c := Option.some.inj hc
                    obtain ⟨w, rfl⟩ := joins.doubleColon rfl
                    exact ⟨by decide, fun h => absurd h (by decide), fun _ => nofun⟩
                | _ => cases hy
            | _ => cases hy
      · rw [if_neg hy] at hc
        exact hplain ' ' (by decide) (by decide) (by decide) hc

theorem chars_int {i : Int} (h : 0 ≤ i) : charsOf (.int i) = Nat.toDigits 10 i.toNat := by
  obtain ⟨n, rfl⟩ := Int.eq_ofNat_of_zero_le h
  show (Nat.repr n).toList = Nat.toDigits 10 n
  exact Nat.toList_repr

theorem chars_ne_nil {y : Piece} (legible : y.Legible) : y.chars ≠ [] := by
  cases y with
  | newline | dot | index | sign => exact nofun
  | position n =>
      rw [chars, kind, chars_int (by omega)]
      exact Nat.toDigits_ne_nil
  | token k =>
      cases k with
      | symbol s =>
          obtain ⟨c, cs, htext, -⟩ := exists_of_symbol s
          show s.text.toList ≠ []
          rw [htext]
          exact nofun
      | word w =>
          obtain ⟨⟨c, cs, hw, -⟩, -⟩ := legible
          show w.toList ≠ []
          rw [hw]
          exact nofun
      | int i =>
          rw [chars, kind, chars_int legible.1]
          exact Nat.toDigits_ne_nil
      | newline | endOfInput | float => exact legible.elim
      | _ => exact nofun

/-- What follows a sign does not make another symbol of it. -/
theorem head_after_sign {ps : List Piece} (fits : Fits .sign ps) :
    ∀ c ∈ (textAfter .sign ps).head?, extends? c = false := by
  cases ps with
  | nil => simp [textAfter]
  | cons y rest =>
      obtain ⟨legible, joins, -⟩ := fits
      intro c hc
      -- A sign stands in front of a parenthesis or of a number.
      rcases joins.sign rfl with rfl | ⟨n, rfl⟩
      · obtain rfl : '(' = c := Option.some.inj hc
        decide
      · have hdigit : c.isDigit = true := by
          have hchars : (Piece.token (.int n)).chars = Nat.toDigits 10 n := chars_int (by omega)
          obtain ⟨d, ds, hds⟩ := List.exists_cons_of_ne_nil (Nat.toDigits_ne_nil (n := n) (b := 10))
          rw [textAfter, hchars, hds] at hc
          obtain rfl : d = c := Option.some.inj hc
          refine isDigit_of_mem_toDigits (n := n) d ?_
          rw [hds]
          exact List.mem_cons_self
        exact extends?_of_isDigit hdigit

/-- The characters that may follow a piece stop words, numbers and flags. -/
theorem stops_of_ends {c : Char} (h : ends c = true) :
    isWordChar c = false ∧ c.isDigit = false ∧ c.isAlpha = false ∧ c ≠ 'e' ∧ c ≠ 'E' ∧
      (c ≠ ':' → extends? c = false) := by
  have hc : c = '\n' ∨ c = ' ' ∨ c = '.' ∨ c = '[' ∨ c = ')' ∨ c = ']' ∨ c = ',' ∨ c = ';' ∨
      c = ':' := by simpa [ends] using h
  rcases hc with rfl | rfl | rfl | rfl | rfl | rfl | rfl | rfl | rfl <;>
    exact ⟨by decide, by decide, by decide, by decide, by decide, by decide⟩

/-! ## Reading one piece -/

/-- Two tokens that leave what comes after them to be read alike. -/
def SameContext (previous : Option TokenKind) (x : Piece) : Prop :=
  wantsPattern previous = wantsPattern (some x.kind) ∧ isDot previous = isDot (some x.kind)

/-- **One piece.** A piece that fits is read as its token. -/
theorem reads_piece {previous : Option TokenKind} {x y : Piece} {rest : List Piece}
    (same : SameContext previous x) (legible : y.Legible) (joins : Joins x y) (fits : Fits y rest)
    (hy : y ≠ .newline) : Reads previous y.kind y.chars (textAfter y rest) := by
  have hslash : y = symbol .slash ∨ y = symbol .divideAssign → wantsPattern previous = false :=
    fun h => same.1.trans (joins.slash h)
  cases y with
  | newline => exact absurd rfl hy
  | dot => exact reads_symbol (by rintro (h | h) <;> cases h) rfl
  | index => exact reads_symbol (by rintro (h | h) <;> cases h) rfl
  | sign =>
      exact reads_symbol (by rintro (h | h) <;> cases h) (leading?_eq .minus (head_after_sign fits))
  | position n =>
      have hdot : x = .dot := joins.position n rfl
      have hafter : isDot previous = true := by
        rw [same.2, hdot]
        rfl
      have hstop := ends_of_head fits rfl
      -- After a dot a number takes no fraction, so that nothing is asked of what follows.
      rw [chars, kind, chars_int (by omega)]
      exact reads_int legible (fun c hc => (stops_of_ends (hstop c hc).1).2.1) (.inl hafter)
  | token k =>
      cases k with
      | newline | endOfInput | float => exact legible.elim
      | word w =>
          have hstop := ends_of_head fits rfl
          exact reads_word legible.1 (.inl legible.2) fun c hc => (stops_of_ends (hstop c hc).1).1
      | text content interpolated => exact reads_text content interpolated _
      | int i =>
          obtain ⟨n, rfl⟩ := Int.eq_ofNat_of_zero_le legible.1
          have hstop := ends_of_head fits rfl
          rw [chars, kind, chars_int legible.1]
          refine reads_int legible.2 (fun c hc => (stops_of_ends (hstop c hc).1).2.1)
            (.inr fun c hc => ?_)
          obtain ⟨hends, hdot, -⟩ := hstop c hc
          obtain ⟨-, -, -, he, hE, -⟩ := stops_of_ends hends
          exact ⟨fun h => hdot h n rfl, he, hE⟩
      | pattern source flags =>
          have hstop := ends_of_head fits rfl
          have hafter : wantsPattern previous = true :=
            same.1.trans (joins.pattern source flags rfl)
          exact reads_pattern hafter legible.1 legible.2
            fun c hc => (stops_of_ends (hstop c hc).1).2.2.1
      | symbol s =>
          -- A symbol is the longest one: no blank follows only if it cannot be the start of a pair.
          refine reads_symbol (fun h => hslash (by simpa using h)) ?_
          by_cases hopens : (symbol s).opens = true
          · -- No symbol of two characters starts like one after which no blank stands.
            cases s with
            | openParen | openBracket | doubleColon => rfl
            | _ => cases hopens
          · have hstop := ends_of_head fits (by simpa using hopens)
            refine leading?_eq s fun c hc => ?_
            obtain ⟨hends, -, hcolon⟩ := hstop c hc
            exact (stops_of_ends hends).2.2.2.2.2 fun h => hcolon h s rfl
      | _ =>
          have hstop := ends_of_head fits rfl
          exact reads_variable legible fun c hc => (stops_of_ends (hstop c hc).1).1

/-! ## Pieces that are legible where they stand -/

/-- Whether a piece is read as its token after another one and in front of a text. -/
structure LegibleIn (x y : Piece) (next : List Char) : Prop where
  chars : y.chars ≠ []
  reads : y ≠ .newline → ∀ previous, SameContext previous x → Reads previous y.kind y.chars next
  accessor : y = .dot ∨ y = .index → x ≠ .newline

/-- Whether each of some pieces is legible where it stands after another piece. -/
def Scans (x : Piece) : List Piece → Prop
  | [] => True
  | y :: rest => LegibleIn x y (textAfter y rest) ∧ Scans y rest

/-- Pieces that fit are legible where they stand. -/
theorem Fits.scans {x : Piece} {ps : List Piece} (fits : Fits x ps) : Scans x ps := by
  induction ps generalizing x with
  | nil => trivial
  | cons y rest ih =>
      obtain ⟨legible, joins, fits⟩ := fits
      exact ⟨⟨chars_ne_nil legible, fun hy _ same => reads_piece same legible joins fits hy,
        joins.accessor⟩, ih fits⟩

/-! ## Scanning -/

theorem tokens_append (place : Nat → Position × Bool) (ps qs : List Piece) :
    tokens place (ps ++ qs) = tokens place ps ++ tokens (fun n => place (n + ps.length)) qs := by
  induction ps generalizing place with
  | nil => rfl
  | cons y ps ih => simp [tokens, ih, Nat.add_assoc]

theorem length_tokens (place : Nat → Position × Bool) (ps : List Piece) :
    (tokens place ps).length = ps.length := by
  induction ps generalizing place with
  | nil => rfl
  | cons y ps ih => simp [tokens, ih]

end TabPilot.Piece

namespace TabPilot.Token

open Lexeme Piece

theorem scanFrom_blank (done : List Token) (spaced : Bool) (p : Position) (cs : List Char) :
    scanFrom done spaced p (' ' :: cs) = scanFrom done true (p.afterAll [' ']) cs := by
  rw [scanFrom]
  simp [gap, isGap]

theorem scanFrom_newline (done : List Token) (spaced : Bool) (p : Position) (cs : List Char) :
    scanFrom done spaced p ('\n' :: cs) =
      scanFrom (⟨.newline, p, spaced⟩ :: done) true (p.after '\n') cs := by
  rw [scanFrom]
  simp [gap, isGap]

theorem scanFrom_reads {done : List Token} {spaced : Bool} {p : Position} {k : TokenKind}
    {cs next : List Char} (reads : Reads (done.head?.map Token.kind) k cs next) (hcs : cs ≠ []) :
    scanFrom done spaced p (cs ++ next) =
      scanFrom (⟨k, p, spaced⟩ :: done) false (p.afterAll cs) next := by
  obtain ⟨c, rest, happend, hgap, hline, hleading⟩ := reads
  obtain ⟨d, ds, rfl⟩ := List.exists_cons_of_ne_nil hcs
  have hrest : (c :: rest).take (d :: ds).length = d :: ds := by
    rw [← happend, List.take_left]
  have hdrop : rest.drop ((d :: ds).length - 1) = next := by
    have hfull : (c :: rest).drop (d :: ds).length = next := by rw [← happend, List.drop_left]
    simpa using hfull
  rw [happend, scanFrom]
  simp only [hgap, ne_eq, not_true_eq_false, if_false, hline, hleading, hrest, hdrop]

/-- Tokens at given places, with one more place in front. -/
theorem tokens_cons (p : Position) (spaced : Bool) (place : Nat → Position × Bool) (y : Piece)
    (ps : List Piece) (unspaced : y = .dot ∨ y = .index → spaced = false) :
    ∃ place', ⟨y.kind, p, spaced⟩ :: tokens place ps = tokens place' (y :: ps) := by
  refine ⟨fun n => n.casesOn (p, spaced) place, ?_⟩
  cases y with
  | dot => rw [unspaced (.inl rfl)]; rfl
  | index => rw [unspaced (.inr rfl)]; rfl
  | _ => rfl

/-- One piece, with what stands before it, is scanned into its token. -/
theorem scanFrom_piece {x y : Piece} {rest : List Piece} {done : List Token} {spaced : Bool}
    {p : Position} (legible : LegibleIn x y (textAfter y rest))
    (same : SameContext (done.head?.map Token.kind) x) (hspaced : spaced = false ∨ x = .newline) :
    ∃ q spaced' after p', (y = .dot ∨ y = .index → spaced' = false) ∧
      (after = false ∨ y = .newline) ∧
      scanFrom done spaced p (between x y ++ (y.chars ++ textAfter y rest)) =
        scanFrom (⟨y.kind, q, spaced'⟩ :: done) after p' (textAfter y rest) := by
  -- The piece itself is read wherever it starts; the two cases below differ in the blank before it.
  have hread : ∀ (spaced' : Bool) (q : Position), ∃ after p', (after = false ∨ y = .newline) ∧
      scanFrom done spaced' q (y.chars ++ textAfter y rest) =
        scanFrom (⟨y.kind, q, spaced'⟩ :: done) after p' (textAfter y rest) := by
    intro spaced' q
    by_cases hy : y = .newline
    · subst hy
      exact ⟨true, _, .inr rfl, scanFrom_newline done spaced' q _⟩
    · exact ⟨false, _, .inl rfl, scanFrom_reads (legible.reads hy _ same) legible.chars⟩
  by_cases hblank : (x.opens || y.closes) = true
  · obtain ⟨after, p', hafter, hscan⟩ := hread spaced p
    refine ⟨p, spaced, after, p', fun haccessor => ?_, hafter, ?_⟩
    -- Accessors stand on the line of what they access, so that no line break is what spaces them.
    · exact hspaced.resolve_right (legible.accessor haccessor)
    · rw [between, if_pos hblank, List.nil_append, hscan]
  · obtain ⟨after, p', hafter, hscan⟩ := hread true (p.afterAll [' '])
    refine ⟨p.afterAll [' '], true, after, p', fun haccessor => absurd ?_ hblank, hafter, ?_⟩
    · rcases haccessor with rfl | rfl <;> exact Bool.or_true _
    · rw [between, if_neg hblank, List.singleton_append, scanFrom_blank, hscan]

/-- **Scanning pieces.** The text of pieces that are legible one after the other is scanned into
their tokens. -/
theorem scanFrom_scans (ps : List Piece) :
    ∀ (x : Piece) (done : List Token) (spaced : Bool) (p : Position), Scans x ps →
      SameContext (done.head?.map Token.kind) x → (spaced = false ∨ x = .newline) →
      ∃ place last, scanFrom done spaced p (textAfter x ps) =
        .ok (done.reverse ++ (tokens place ps ++ [⟨.endOfInput, last, true⟩])) := by
  -- The induction is on the pieces left, for every piece before them and every list of tokens done.
  induction ps with
  | nil =>
      intro x done spaced p _ _ _
      refine ⟨fun _ => (p, true), p, ?_⟩
      rw [textAfter, scanFrom]
      simp [tokens]
  | cons y rest ih =>
      intro x done spaced p scans same hspaced
      obtain ⟨legible, scans⟩ := scans
      obtain ⟨q, spaced', after, p', unspaced, hafter, hscan⟩ :=
        scanFrom_piece legible same hspaced (p := p)
      obtain ⟨place, last, hrest⟩ :=
        ih y (⟨y.kind, q, spaced'⟩ :: done) after p' scans ⟨rfl, rfl⟩ hafter
      obtain ⟨place', htokens⟩ := tokens_cons q spaced' place y rest unspaced
      refine ⟨place', last, ?_⟩
      rw [textAfter, hscan, hrest, ← htokens, List.reverse_cons, List.append_assoc]
      rfl

/-- **Scanning what was written.** The text of pieces that fit is scanned into their tokens. -/
theorem scanFrom_textAfter (ps : List Piece) :
    ∀ (x : Piece) (done : List Token) (spaced : Bool) (p : Position), Fits x ps →
      SameContext (done.head?.map Token.kind) x → (spaced = false ∨ x = .newline) →
      ∃ place last, scanFrom done spaced p (textAfter x ps) =
        .ok (done.reverse ++ (tokens place ps ++ [⟨.endOfInput, last, true⟩])) :=
  fun x done spaced p fits => scanFrom_scans ps x done spaced p fits.scans

end TabPilot.Token
