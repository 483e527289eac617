import TabPilot.Proofs.Script.Scanning

set_option autoImplicit false

/-! # Pieces that fit

What is written for a tree fits. Most pieces may stand next to each other: a `Phrase` begins with
a piece that may follow every piece that ends a phrase, and ends with such a piece itself. The
exceptions are a sign with its operand, accessors, names in front of colons, and what a pattern
is matched against. The main statement is `Script.fits_pieces`.
-/

namespace TabPilot

namespace Piece

/-! ## Which pieces may stand next to each other -/

def mayBegin : Piece → Bool
  | .dot | .position _ | .index | .token (.pattern _ _) | .token (.symbol .colon)
  | .token (.symbol .doubleColon) => false
  | _ => true

def mayEnd : Piece → Bool
  | .sign | .token (.symbol .matches) | .token (.symbol .unmatches) => false
  | _ => true

theorem joins_of_mayBegin {x y : Piece} (hx : x.mayEnd = true) (hy : y.mayBegin = true) :
    Joins x y where
  pattern := by rintro source flags rfl; cases hy
  slash := by
    intro _
    -- A pattern could start at the slash only after the symbol of a match, which ends no phrase.
    cases x with
    | token k =>
        cases k with
        | symbol s => cases s <;> first | rfl | cases hx
        | _ => rfl
    | _ => rfl
  accessor := by rintro (rfl | rfl) <;> cases hy
  dot := by rintro rfl; cases hy
  position := by rintro n rfl; cases hy
  sign := by rintro rfl; cases hx
  colon := by rintro rfl; cases hy
  doubleColon := by rintro rfl; cases hy

/-- An operand in parentheses may stand anywhere. -/
theorem joins_openParen (x : Piece) : Joins x (symbol .openParen) where
  sign := fun _ => .inl rfl

theorem joins_sign_int (n : Nat) : Joins .sign (.token (.int n)) where
  sign := fun _ => .inr ⟨n, rfl⟩

/-- A pattern follows the symbol of a match. -/
theorem joins_pattern {x : Piece} (hx : x = symbol .matches ∨ x = symbol .unmatches)
    (source flags : String) : Joins x (.token (.pattern source flags)) where
  pattern := by
    rintro _ _ -
    rcases hx with rfl | rfl <;> rfl
  sign := by
    rintro rfl
    rcases hx with hx | hx <;> cases hx

/-- A colon follows the name of a member. -/
theorem joins_colon (content : String) :
    Joins (.token (.text content false)) (symbol .colon) where
  colon := fun _ => ⟨content, rfl⟩

/-- A double colon follows a part of a command's name. -/
theorem joins_doubleColon (w : String) : Joins (word w) (symbol .doubleColon) where
  doubleColon := fun _ => ⟨w, rfl⟩

structure HasAccessors (x : Piece) : Prop where
  mayEnd : x.mayEnd = true
  onLine : x ≠ .newline
  noInt : ∀ i, x ≠ .token (.int i)

theorem HasAccessors.not_sign {x : Piece} (hx : HasAccessors x) : x ≠ .sign := by
  rintro rfl
  cases hx.mayEnd

theorem joins_dot {x : Piece} (hx : HasAccessors x) : Joins x .dot where
  accessor := fun _ => hx.onLine
  dot := fun _ => hx.noInt
  sign := fun h => absurd h hx.not_sign

theorem joins_index {x : Piece} (hx : HasAccessors x) : Joins x .index where
  accessor := fun _ => hx.onLine
  sign := fun h => absurd h hx.not_sign

theorem joins_position (n : Nat) : Joins .dot (.position n) where
  position := fun _ _ => rfl

/-! ## Phrases -/

/-- Pieces that fit after every piece that may end a phrase. -/
def FitAnywhere (ps : List Piece) : Prop := ∀ x : Piece, x.mayEnd = true → Fits x ps

/-- Pieces that may stand between phrases: what fits anywhere may follow them. -/
def Phrase (ps : List Piece) : Prop := ∀ qs, FitAnywhere qs → FitAnywhere (ps ++ qs)

theorem fitAnywhere_nil : FitAnywhere [] := fun _ _ => trivial

theorem Phrase.nil : Phrase [] := fun _ h => h

theorem Phrase.append {ps qs : List Piece} (hps : Phrase ps) (hqs : Phrase qs) :
    Phrase (ps ++ qs) := by
  intro rest h
  rw [List.append_assoc]
  exact hps _ (hqs _ h)

theorem Phrase.cons {y : Piece} {ps : List Piece} (hbegin : y.mayBegin = true)
    (hend : y.mayEnd = true) (legible : y.Legible) (h : Phrase ps) : Phrase (y :: ps) :=
  fun qs hqs _ hx => ⟨legible, joins_of_mayBegin hx hbegin, h qs hqs y hend⟩

theorem Phrase.singleton {y : Piece} (hbegin : y.mayBegin = true) (hend : y.mayEnd = true)
    (legible : y.Legible) : Phrase [y] := .cons hbegin hend legible .nil

theorem phrase_symbol {s : Symbol} (hbegin : (symbol s).mayBegin = true)
    (hend : (symbol s).mayEnd = true) : Phrase [symbol s] := .singleton hbegin hend trivial

theorem Phrase.parens {ps : List Piece} (h : Phrase ps) : Phrase (parens ps) :=
  .cons rfl rfl trivial (h.append (phrase_symbol rfl rfl))

theorem Phrase.braces {ps : List Piece} (h : Phrase ps) : Phrase (braces ps) :=
  .cons rfl rfl trivial (.cons rfl rfl trivial (h.append (phrase_symbol rfl rfl)))

theorem Phrase.joined {separator : Piece} (hseparator : Phrase [separator])
    {pss : List (List Piece)} (h : ∀ ps ∈ pss, Phrase ps) : Phrase (joined separator pss) := by
  induction pss with
  | nil => exact .nil
  | cons ps pss ih =>
      have hps : Phrase ps := h ps List.mem_cons_self
      have ih := ih fun qs hqs => h qs (List.mem_cons_of_mem _ hqs)
      -- The separator is written only if another phrase comes after this one.
      cases pss with
      | nil => exact hps
      | cons qs pss => exact hps.append (hseparator.append ih)

theorem Phrase.commas {pss : List (List Piece)} (h : ∀ ps ∈ pss, Phrase ps) :
    Phrase (commas pss) := .joined (phrase_symbol rfl rfl) h

/-- What is written for the members of a list, with a separator between them. -/
theorem Phrase.joined_map {α : Type} {separator : Piece} (hseparator : Phrase [separator])
    {write : α → List Piece} {as : List α} (h : ∀ a ∈ as, Phrase (write a)) :
    Phrase (Piece.joined separator (as.map write)) := by
  refine .joined hseparator fun ps hps => ?_
  obtain ⟨a, ha, rfl⟩ := List.mem_map.mp hps
  exact h a ha

theorem Phrase.commas_map {α : Type} {write : α → List Piece} {as : List α}
    (h : ∀ a ∈ as, Phrase (write a)) : Phrase (Piece.commas (as.map write)) :=
  .joined_map (phrase_symbol rfl rfl) h

/-- The name of a member, a colon, and a phrase. -/
theorem Phrase.member {ps : List Piece} (content : String) (h : Phrase ps) :
    Phrase (.token (.text content false) :: symbol .colon :: ps) := fun qs hqs _ hx =>
  ⟨trivial, joins_of_mayBegin hx rfl, trivial, joins_colon content, h qs hqs _ rfl⟩

/-- A part of a command's name, a double colon, and a phrase. -/
theorem Phrase.qualified {ps : List Piece} {w : String} (hw : IsWord w) (notBegin : w ≠ "begin")
    (h : Phrase ps) : Phrase (Piece.word w :: symbol .doubleColon :: ps) := fun qs hqs _ hx =>
  ⟨⟨hw, notBegin⟩, joins_of_mayBegin hx rfl, trivial, joins_doubleColon w, h qs hqs _ rfl⟩

/-- A sign and an operand in parentheses. -/
theorem Phrase.signed {ps : List Piece} (h : Phrase ps) : Phrase (.sign :: Piece.parens ps) := by
  intro qs hqs x hx
  exact ⟨trivial, joins_of_mayBegin hx rfl, trivial, joins_openParen _,
    h.append (phrase_symbol (s := .closeParen) rfl rfl) qs hqs _ rfl⟩

theorem phrase_negative {n : Nat} (h : (n : Int) < Word.signedLimit) :
    Phrase [.sign, .token (.int n)] := fun _ hqs _ hx =>
  ⟨trivial, joins_of_mayBegin hx rfl, ⟨Int.natCast_nonneg n, h⟩, joins_sign_int n, hqs _ rfl⟩

/-- A keyword and a phrase. -/
theorem Phrase.word {w : String} {ps : List Piece} (hw : IsWord w) (notBegin : w ≠ "begin")
    (h : Phrase ps) : Phrase (Piece.word w :: ps) := .cons rfl rfl ⟨hw, notBegin⟩ h

/-! ## Accessors -/

/-- Pieces that may stand between something with accessors and a phrase. -/
def Trail (ps : List Piece) : Prop :=
  ∀ qs, FitAnywhere qs → ∀ x, HasAccessors x → Fits x (ps ++ qs)

theorem Trail.nil : Trail [] := fun _ hqs x hx => hqs x hx.mayEnd

theorem Trail.position {ps : List Piece} {n : Nat} (hn : (n : Int) < Word.signedLimit)
    (h : Trail ps) : Trail (.dot :: .position n :: ps) := fun qs hqs _ hx =>
  ⟨trivial, joins_dot hx, hn, joins_position n, h qs hqs _ ⟨rfl, nofun, nofun⟩⟩

theorem Trail.word {ps : List Piece} {w : String} (hw : IsWord w) (notBegin : w ≠ "begin")
    (h : Trail ps) : Trail (.dot :: Piece.word w :: ps) := fun qs hqs _ hx =>
  ⟨trivial, joins_dot hx, ⟨hw, notBegin⟩, joins_of_mayBegin rfl rfl,
    h qs hqs _ ⟨rfl, nofun, nofun⟩⟩

theorem Trail.index {ps es : List Piece} (hes : Phrase es) (h : Trail ps) :
    Trail (.index :: (es ++ symbol .closeBracket :: ps)) := by
  intro qs hqs x hx
  rw [List.cons_append, List.append_assoc, List.cons_append]
  refine ⟨trivial, joins_index hx, hes _ (fun y hy => ?_) .index rfl⟩
  exact ⟨trivial, joins_of_mayBegin hy rfl, h qs hqs _ ⟨rfl, nofun, nofun⟩⟩

theorem Trail.variable {ps : List Piece} {name : String} (hname : IsVariableName name)
    (h : Trail ps) : Phrase (.token (.variable name) :: ps) := fun qs hqs _ hx =>
  ⟨hname, joins_of_mayBegin hx rfl, h qs hqs _ ⟨rfl, nofun, nofun⟩⟩

/-- The name of a field that is a word is written as that word. -/
theorem fieldPiece_word {w : String} (h : IsWord w) : fieldPiece w = word w := by
  obtain ⟨c, cs, hw, hstart, -⟩ := h
  have hne := Lexeme.startsWord_ne hstart
  have hsign : Decimal.takeSign (c :: cs) = (false, c :: cs) := by
    refine Lexeme.takeSign_eq fun x hx => ?_
    obtain rfl : c = x := Option.some.inj hx
    exact ⟨hne '-' (by decide), hne '+' (by decide)⟩
  have hdigits : (c :: cs).all Char.isDigit = false := by
    rw [List.all_cons, Lexeme.not_isDigit_of_startsWord hstart, Bool.false_and]
  -- A name is a position only if all of it is digits, and a word starts with none.
  have hnone : Decimal.signed64? w = none := by
    unfold Decimal.signed64?
    rw [hw, hsign]
    simp [hdigits]
  rw [fieldPiece, hnone]

/-- The name of a field that is a number is written as that number. -/
theorem fieldPiece_toString {n : Nat} (h : (n : Int) < Word.signedLimit) :
    fieldPiece (toString n) = .position n := by
  have hsome : Decimal.signed64? (toString n) = some (n : Int) := by
    have hdigits : toString n = String.ofList (Nat.toDigits 10 n) := by
      rw [← Nat.toList_repr, String.ofList_toList]
      rfl
    rw [hdigits]
    exact Lexeme.signed64?_toDigits h
  rw [fieldPiece, hsome]
  rfl

theorem Trail.field {ps : List Piece} {name : String} (hname : IsFieldName name)
    (notBegin : name ≠ "begin") (h : Trail ps) : Trail (.dot :: fieldPiece name :: ps) := by
  rcases hname with hword | ⟨n, hn, rfl⟩
  · rw [fieldPiece_word hword]
    exact h.word hword notBegin
  · rw [fieldPiece_toString hn]
    exact h.position hn

end Piece

open Piece

/-! ## Expressions -/

theorem isWord_true : IsWord "true" := by decide +kernel

theorem isWord_false : IsWord "false" := by decide +kernel

theorem isWord_null : IsWord "null" := by decide +kernel

theorem Value.phrase_literalPieces {v : Value} (h : v.IsLiteral) (plain : ∀ f, v ≠ .float f) :
    Phrase v.literalPieces := by
  cases v with
  | null => exact .word isWord_null (by decide) .nil
  | bool b =>
      cases b
      · exact .word isWord_false (by decide) .nil
      · exact .word isWord_true (by decide) .nil
  | int i =>
      obtain ⟨hlow, hhigh⟩ := h
      by_cases hi : i < 0
      · have hcast : -i = ((-i).toNat : Int) := by omega
        rw [literalPieces, if_pos hi, hcast]
        exact phrase_negative (by omega)
      · rw [literalPieces, if_neg hi]
        exact .singleton rfl rfl ⟨by omega, hhigh⟩
  | float f => exact absurd rfl (plain f)
  | string | array | object => exact h.elim

mutual

/-- What is written for a plain expression is a phrase. -/
theorem Expr.phrase_pieces : ∀ e : Expr, e.WellFormed → e.Plain → Phrase e.pieces
  | .literal v, wf, plain =>
      Value.phrase_literalPieces wf (by rintro f rfl; exact plain)
  | .text _ _, _, _ => .singleton rfl rfl trivial
  | .array items, wf, plain =>
      .cons rfl rfl trivial
        ((Phrase.commas (phrase_itemPieces items wf plain)).append (phrase_symbol rfl rfl))
  | .object entries, wf, plain =>
      .cons rfl rfl trivial
        ((Phrase.commas (phrase_entryPieces entries wf plain)).append (phrase_symbol rfl rfl))
  | .variable _ accessors, wf, plain =>
      Trail.variable wf.1 (trail_accessorPieces accessors wf.2 plain)
  | .pattern _, _, plain => plain.elim
  | .negate e, wf, plain => (e.phrase_pieces wf.1 plain).signed
  | .binary op lhs rhs, wf, plain =>
      (lhs.phrase_pieces wf.1 plain.1).parens.append
        (.cons (by cases op <;> rfl) (by cases op <;> rfl) trivial
          (rhs.phrase_pieces wf.2 plain.2).parens)

theorem phrase_itemPieces : ∀ items : List Expr, itemsWellFormed items → itemsPlain items →
    ∀ ps ∈ itemPieces items, Phrase ps
  | [], _, _ => nofun
  | e :: rest, wf, plain => by
      intro ps hps
      rcases List.mem_cons.mp hps with rfl | hps
      · exact e.phrase_pieces wf.1 plain.1
      · exact phrase_itemPieces rest wf.2 plain.2 ps hps

theorem phrase_entryPieces : ∀ entries : List (String × Expr), entriesWellFormed entries →
    entriesPlain entries → ∀ ps ∈ entryPieces entries, Phrase ps
  | [], _, _ => nofun
  | (_, e) :: rest, wf, plain => by
      intro ps hps
      rcases List.mem_cons.mp hps with rfl | hps
      · exact .member _ (e.phrase_pieces wf.1 plain.1)
      · exact phrase_entryPieces rest wf.2 plain.2 ps hps

theorem trail_accessorPieces : ∀ accessors : List Accessor, accessorsWellFormed accessors →
    accessorsPlain accessors → Trail (accessorPieces accessors)
  | [], _, _ => .nil
  | .field _ :: rest, wf, plain =>
      (trail_accessorPieces rest wf.2 plain.2).field wf.1 plain.1
  | .index e :: rest, wf, plain =>
      .index (e.phrase_pieces wf.1 plain.1) (trail_accessorPieces rest wf.2 plain.2)

end

/-! ## Assignments and commands -/

theorem Variable.phrase_pieces {v : Variable} (wf : v.WellFormed) (plain : v.Plain) :
    Phrase v.pieces := Trail.variable wf.1 (trail_accessorPieces v.accessors wf.2 plain)

theorem Target.phrase_pieces {t : Target} (wf : t.WellFormed) (plain : t.Plain) :
    Phrase t.pieces := by
  cases t with
  | skip => exact .word (by decide +kernel) (by decide) .nil
  | _ => exact Variable.phrase_pieces wf plain

theorem phrase_targets {ts : List Target} (wf : ∀ t ∈ ts, t.WellFormed)
    (plain : ∀ t ∈ ts, t.Plain) : Phrase (commas (ts.map Target.pieces)) :=
  .commas_map fun t ht => Target.phrase_pieces (wf t ht) (plain t ht)

theorem Assignment.phrase_pieces {a : Assignment} (wf : a.WellFormed) (plain : a.Plain) :
    Phrase a.pieces := by
  have hop : (symbol a.op.token).mayBegin = true ∧ (symbol a.op.token).mayEnd = true := by
    cases a.op <;> exact ⟨rfl, rfl⟩
  have hsources : Phrase (commas (a.sources.map fun e => parens e.pieces)) :=
    .commas_map fun e he => (e.phrase_pieces (wf.2.2 e he) (plain.2 e he)).parens
  exact (phrase_targets wf.1.2 plain.1).append (.cons hop.1 hop.2 trivial hsources)

theorem phrase_names {parts : List (List Char)}
    (words : ∀ part ∈ parts, IsWord (String.ofList part)) (notBegin : "begin".toList ∉ parts) :
    Phrase (joined (symbol .doubleColon) (parts.map fun part => [word (String.ofList part)])) := by
  induction parts with
  | nil => exact .nil
  | cons part parts ih =>
      have hword : IsWord (String.ofList part) := words part List.mem_cons_self
      have hbegin : String.ofList part ≠ "begin" := by
        intro h
        refine notBegin (List.mem_cons.mpr (.inl ?_))
        rw [← h, String.toList_ofList]
      -- The last part is a word by itself; the others stand in front of a double colon.
      cases parts with
      | nil => exact .word hword hbegin .nil
      | cons next parts =>
          have ih := ih (fun p hp => words p (List.mem_cons_of_mem _ hp))
            (fun h => notBegin (List.mem_cons_of_mem _ h))
          exact .qualified hword hbegin ih

theorem phrase_optionsPieces {options : Option (List (String × Expr))}
    (wf : ∀ os ∈ options, ∀ o ∈ os, o.2.WellFormed) (plain : ∀ os ∈ options, ∀ o ∈ os, o.2.Plain) :
    Phrase (optionsPieces options) := by
  cases options with
  | none => exact .nil
  | some os =>
      have hos : Phrase (commas (os.map optionPieces)) :=
        .commas_map fun o ho =>
          .member _ (o.2.phrase_pieces (wf os rfl o ho) (plain os rfl o ho)).parens
      exact .cons rfl rfl trivial (hos.append (phrase_symbol rfl rfl))

theorem Destination.phrase_pieces {d : Destination} (wf : d.WellFormed) (plain : d.Plain) :
    Phrase d.pieces := by
  cases d with
  | default => exact .nil
  | key name => exact .cons rfl rfl trivial (.singleton rfl rfl trivial)
  | discard => exact .cons rfl rfl trivial (.word isWord_null (by decide) .nil)
  | _ => exact .cons rfl rfl trivial (Variable.phrase_pieces wf plain)

theorem Command.phrase_pieces {c : Command} (wf : c.WellFormed) (plain : c.Plain) :
    Phrase c.pieces := by
  obtain ⟨hname, hid, hoptions, hdestination⟩ := wf
  obtain ⟨hbegin, hidPlain, hoptionsPlain, hdestinationPlain⟩ := plain
  have harg : Phrase (argumentPieces c.id) := by
    cases h : c.id with
    | none => exact .nil
    | some e => exact (e.phrase_pieces (hid e h) (hidPlain e h)).parens
  exact (phrase_names hname.1 hbegin).append
    (harg.append ((phrase_optionsPieces hoptions hoptionsPlain).append
      (Destination.phrase_pieces hdestination hdestinationPlain)))

/-! ## Conditions and loops -/

theorem phrase_negationPieces (negated : Bool) : Phrase (negationPieces negated) := by
  cases negated
  · exact .nil
  · exact .word (by decide +kernel) (by decide) .nil

/-- A comparison with an expression in parentheses. -/
theorem Comparator.phrase_parens (op : Comparator) {ps : List Piece} (h : Phrase ps) :
    Phrase (.token op.token :: parens ps) := by
  have hlegible : (Piece.token op.token).Legible := by
    cases op <;> first | exact ⟨by decide +kernel, by decide⟩ | trivial
  have hbegin : (Piece.token op.token).mayBegin = true := by cases op <;> rfl
  exact fun qs hqs _ hx => ⟨hlegible, joins_of_mayBegin hx hbegin, trivial, joins_openParen _,
    h.append (phrase_symbol (s := .closeParen) rfl rfl) qs hqs _ rfl⟩

theorem Comparator.phrase_rhsPieces {op : Comparator} {rhs : Expr} (wf : rhs.WellFormed)
    (plain : op.PlainRhs rhs) : Phrase (.token op.token :: rhsPieces rhs) := by
  cases rhs with
  | pattern p =>
      obtain ⟨hop, hsource⟩ := plain
      have hsymbol : Piece.token op.token = Piece.symbol .matches ∨
          Piece.token op.token = Piece.symbol .unmatches := by
        rcases hop with rfl | rfl
        · exact .inl rfl
        · exact .inr rfl
      have hlegible : (Piece.token op.token).Legible := by rcases hop with rfl | rfl <;> trivial
      have hbegin : (Piece.token op.token).mayBegin = true := by
        rcases hop with rfl | rfl <;> rfl
      exact fun qs hqs _ hx => ⟨hlegible, joins_of_mayBegin hx hbegin, ⟨hsource, wf⟩,
        joins_pattern hsymbol _ _, hqs _ rfl⟩
  | _ => exact op.phrase_parens (Expr.phrase_pieces _ wf plain)

theorem Condition.phrase_pieces {c : Condition} (wf : c.WellFormed) (plain : c.Plain) :
    Phrase c.pieces := by
  induction c with
  | assigning negated p first rest ih =>
      exact (phrase_negationPieces negated).append
        ((first.phrase_pieces wf.1 plain.1).append (.cons rfl rfl trivial (ih wf.2 plain.2)))
  | commanding negated p first rest ih =>
      exact (phrase_negationPieces negated).append
        ((first.phrase_pieces wf.1 plain.1).append (.cons rfl rfl trivial (ih wf.2.2 plain.2)))
  | command negated p c =>
      exact (phrase_negationPieces negated).append (c.phrase_pieces wf.1 plain)
  | comparison negated p lhs compared =>
      cases compared with
      | none => exact (phrase_negationPieces negated).append (lhs.phrase_pieces wf plain).parens
      | some compared =>
          obtain ⟨op, rhs⟩ := compared
          exact (phrase_negationPieces negated).append
            ((lhs.phrase_pieces wf.1 plain.1).parens.append (op.phrase_rhsPieces wf.2 plain.2))

theorem Clause.phrase_pieces {c : Clause} (wf : c.WellFormed) (plain : c.Plain) :
    Phrase c.pieces := by
  cases c with
  | assignment a => exact a.phrase_pieces wf plain
  | command c p => exact c.phrase_pieces wf.1 plain

theorem LoopSource.phrase_pieces {s : LoopSource} (wf : s.WellFormed) (plain : s.Plain) :
    Phrase s.pieces := by
  cases s with
  | command c => exact c.phrase_pieces wf.1 plain
  | _ => exact Variable.phrase_pieces wf plain

theorem LoopMode.phrase_pieces {m : LoopMode} (wf : m.WellFormed) (plain : m.Plain) :
    Phrase m.pieces := by
  cases m with
  | infinite => exact .nil
  | count times =>
      exact .word (by decide +kernel) (by decide)
        (times.phrase_pieces wf plain).parens
  | items targets source =>
      obtain ⟨-, hgoals, hsource⟩ := wf
      exact (phrase_targets (fun t ht => (hgoals t ht).1) plain.1).append
        (.word (by decide +kernel) (by decide) (source.phrase_pieces hsource plain.2))
  | whilst test => exact test.phrase_pieces wf.1 plain
  | bounded init test next =>
      obtain ⟨hinit, -, htest, -, hnext⟩ := wf
      exact (init.phrase_pieces hinit plain.1).append
        (.cons rfl rfl trivial ((test.phrase_pieces htest plain.2.1).append
          (.cons rfl rfl trivial (next.phrase_pieces hnext plain.2.2))))

/-! ## Statements -/

theorem isWord_else : IsWord "else" := by decide +kernel

theorem isWord_if : IsWord "if" := by decide +kernel

mutual

/-- What is written for a plain statement is a phrase. -/
theorem Statement.phrase_pieces : ∀ s : Statement, s.WellFormed → s.Plain → Phrase s.pieces
  | .assign a, wf, plain => a.phrase_pieces wf plain
  | .unset _ _, wf, plain =>
      .word (by decide +kernel) (by decide)
        (.commas_map fun v hv => v.phrase_pieces (wf.2 v hv) (plain v hv))
  | .expression e _, wf, plain => (e.phrase_pieces wf plain).parens
  | .choice first others otherwise _, wf, plain =>
      .word isWord_if (by decide)
        ((first.phrase_pieces wf.1 plain.1).append
          ((phrase_othersPieces others wf.2.1 plain.2.1).append
            (phrase_otherwisePieces otherwise wf.2.2 plain.2.2)))
  | .loop mode body _, wf, plain =>
      .word (by decide +kernel) (by decide)
        ((mode.phrase_pieces wf.1 plain.1).append (phrase_linePieces body wf.2 plain.2).braces)
  | .commands _ _, wf, plain =>
      .joined_map (phrase_symbol rfl rfl) fun c hc => c.phrase_pieces (wf.2 c hc) (plain c hc)
  | .jump kind levels _, wf, _ => by
      have hkeyword : (Piece.word kind.keyword).Legible := by
        cases kind <;> exact ⟨by decide +kernel, by decide⟩
      exact .cons rfl rfl hkeyword (.singleton rfl rfl ⟨Int.natCast_nonneg levels, wf.2⟩)

theorem Branch.phrase_pieces : ∀ b : Branch, b.WellFormed → b.Plain → Phrase b.pieces
  | .mk test body, wf, plain =>
      (test.phrase_pieces wf.1 plain.1).append (phrase_linePieces body wf.2 plain.2).braces

theorem phrase_othersPieces : ∀ others : List Branch, branchesWellFormed others →
    branchesPlain others → Phrase (othersPieces others)
  | [], _, _ => .nil
  | b :: rest, wf, plain =>
      .word isWord_else (by decide) (.word isWord_if (by decide)
        ((b.phrase_pieces wf.1 plain.1).append (phrase_othersPieces rest wf.2 plain.2)))

theorem phrase_otherwisePieces : ∀ otherwise : Option (List Statement),
    otherwiseWellFormed otherwise → otherwisePlain otherwise → Phrase (otherwisePieces otherwise)
  | none, _, _ => .nil
  | some body, wf, plain => .word isWord_else (by decide) (phrase_linePieces body wf plain).braces

theorem phrase_linePieces : ∀ body : List Statement, statementsWellFormed body →
    statementsPlain body → Phrase (linePieces body)
  | [], _, _ => .nil
  | s :: rest, wf, plain =>
      (s.phrase_pieces wf.1 plain.1).append
        (.cons rfl rfl trivial (phrase_linePieces rest wf.2 plain.2))

end

theorem Handler.phrase_pieces {h : Handler} (wf : statementsWellFormed h.body)
    (plain : statementsPlain h.body) : Phrase h.pieces := by
  have hisolated : Phrase (if h.isolated then [word "isolated"] else []) := by
    split
    · exact .word (by decide +kernel) (by decide) .nil
    · exact .nil
  exact .word (by decide +kernel) (by decide)
    (.cons rfl rfl trivial (hisolated.append (phrase_linePieces h.body wf plain).braces))

/-- **Scripts fit.** What is written for a plain script fits at the start of a line. -/
theorem Script.fits_pieces {s : Script} (wf : s.WellFormed) (plain : s.Plain) :
    Fits .newline s.pieces := by
  -- The sublist of handlers is what the induction is on; that they are the script's stays fixed.
  have hhandlers : ∀ hs : List Handler, (∀ h ∈ hs, h ∈ s.handlers) →
      Phrase (hs.flatMap fun h => h.pieces ++ [.newline]) := by
    intro hs
    induction hs with
    | nil => exact fun _ => .nil
    | cons h hs ih =>
        intro hmem
        have hh : h ∈ s.handlers := hmem h List.mem_cons_self
        have hrest := ih fun g hg => hmem g (List.mem_cons_of_mem _ hg)
        rw [List.flatMap_cons]
        have hnewline : Phrase [.newline] := .singleton rfl rfl trivial
        exact ((h.phrase_pieces (wf.2 h hh) (plain.2 h hh)).append hnewline).append hrest
  have hphrase : Phrase s.pieces :=
    (phrase_linePieces s.statements wf.1 plain.1).append (hhandlers _ fun _ h => h)
  have hfits := hphrase [] fitAnywhere_nil .newline rfl
  rwa [List.append_nil] at hfits

end TabPilot
