import TabPilot.Proofs.Script.Written

set_option autoImplicit false

/-! # The shape of script trees

`WellFormed` says of a tree what holds of every tree that is read from a text. `Plain` leaves the
trees aside that the written form cannot show: those with numbers in binary64, with patterns
elsewhere than on the right of a match or with characters that would have to be escaped there,
and with names called like the word that opens a text over several lines. `unplaced` forgets
positions, so that two trees are the same up to positions when they are equal unplaced.
-/

namespace TabPilot

/-! ## Names -/

/-- Whether a text is a word: a letter or an underscore, and then letters, numerals and
underscores. -/
def IsWord (w : String) : Prop :=
  ∃ c cs, w.toList = c :: cs ∧ Lexeme.startsWord c = true ∧ ∀ x ∈ cs, Lexeme.isWordChar x = true

theorem isWord_iff (w : String) : IsWord w ↔
    w.toList.head?.any Lexeme.startsWord = true ∧ w.toList.tail.all Lexeme.isWordChar = true := by
  unfold IsWord
  cases w.toList with
  | nil => simp
  | cons c cs =>
      constructor
      · rintro ⟨_, _, hw, hc, hcs⟩
        cases hw
        exact ⟨hc, List.all_eq_true.mpr hcs⟩
      · rintro ⟨hc, hcs⟩
        exact ⟨c, cs, rfl, hc, List.all_eq_true.mp hcs⟩

instance (w : String) : Decidable (IsWord w) :=
  decidable_of_iff _ (isWord_iff w).symm

def IsVariableName (name : String) : Prop :=
  name.toList ≠ [] ∧ ∀ c ∈ name.toList, Lexeme.isWordChar c = true

instance (name : String) : Decidable (IsVariableName name) :=
  decidable_of_iff (name.toList ≠ [] ∧ name.toList.all Lexeme.isWordChar = true)
    (and_congr_right fun _ => List.all_eq_true)

/-- Whether a text is the name of a field: a word or a number. -/
def IsFieldName (name : String) : Prop :=
  IsWord name ∨ ∃ n : Nat, (n : Int) < Word.signedLimit ∧ name = toString n

def firstPart (name : String) : String := String.ofList ((nameParts name.toList).headD [])

/-- Whether a text is the name of a command: words, of which the first one may start a command. -/
def IsCommandName (name : String) : Prop :=
  (∀ part ∈ nameParts name.toList, IsWord (String.ofList part)) ∧
    Grammar.isReserved (firstPart name) = false ∧ firstPart name ≠ "_"

/-! ## Expressions -/

/-- Whether a value is that of a literal. Small whole numbers are read as integers. -/
def Value.IsLiteral : Value → Prop
  | .null | .bool _ => True
  | .int i => -Word.signedLimit < i ∧ i < Word.signedLimit
  | .float f => Binary64.exactInt? f = none
  | .string _ | .array _ | .object _ => False

mutual

/-- Whether an expression may have been read. -/
def Expr.WellFormed : Expr → Prop
  | .literal v => v.IsLiteral
  | .text _ _ => True
  | .array items => itemsWellFormed items
  | .object entries => entriesWellFormed entries
  | .variable name accessors => IsVariableName name ∧ accessorsWellFormed accessors
  | .pattern p => ∀ c ∈ p.flags.toList, Lexeme.isFlag c = true
  -- The sign in front of a number belongs to the number.
  | .negate e => e.WellFormed ∧ ∀ i, e ≠ .literal (.int i)
  | .binary _ lhs rhs => lhs.WellFormed ∧ rhs.WellFormed

def itemsWellFormed : List Expr → Prop
  | [] => True
  | e :: rest => e.WellFormed ∧ itemsWellFormed rest

def entriesWellFormed : List (String × Expr) → Prop
  | [] => True
  | (_, e) :: rest => e.WellFormed ∧ entriesWellFormed rest

def accessorsWellFormed : List Accessor → Prop
  | [] => True
  | .field name :: rest => IsFieldName name ∧ accessorsWellFormed rest
  | .index e :: rest => e.WellFormed ∧ accessorsWellFormed rest

end

theorem itemsWellFormed_iff {items : List Expr} :
    itemsWellFormed items ↔ ∀ e ∈ items, e.WellFormed := by
  induction items with
  | nil => simp [itemsWellFormed]
  | cons e rest ih => rw [itemsWellFormed, ih, List.forall_mem_cons]

theorem entriesWellFormed_iff {entries : List (String × Expr)} :
    entriesWellFormed entries ↔ ∀ entry ∈ entries, entry.2.WellFormed := by
  induction entries with
  | nil => simp [entriesWellFormed]
  | cons entry rest ih => rw [entriesWellFormed, ih, List.forall_mem_cons]

mutual

/-- Whether an expression has no number in binary64, no pattern, and no field called `begin`. -/
def Expr.Plain : Expr → Prop
  | .literal (.float _) | .pattern _ => False
  | .literal _ | .text _ _ => True
  | .array items => itemsPlain items
  | .object entries => entriesPlain entries
  | .variable _ accessors => accessorsPlain accessors
  | .negate e => e.Plain
  | .binary _ lhs rhs => lhs.Plain ∧ rhs.Plain

def itemsPlain : List Expr → Prop
  | [] => True
  | e :: rest => e.Plain ∧ itemsPlain rest

def entriesPlain : List (String × Expr) → Prop
  | [] => True
  | (_, e) :: rest => e.Plain ∧ entriesPlain rest

def accessorsPlain : List Accessor → Prop
  | [] => True
  | .field name :: rest => name ≠ "begin" ∧ accessorsPlain rest
  | .index e :: rest => e.Plain ∧ accessorsPlain rest

end

/-! ## Assignments and commands -/

def Variable.WellFormed (v : Variable) : Prop :=
  IsVariableName v.name ∧ accessorsWellFormed v.accessors

def Variable.Plain (v : Variable) : Prop := accessorsPlain v.accessors

def Target.WellFormed : Target → Prop
  | .skip => True
  | .variable v => v.WellFormed

def Target.Plain : Target → Prop
  | .skip => True
  | .variable v => v.Plain

/-- Whether a target is a variable without accessors, or drops the value. -/
def Target.IsBare : Target → Prop
  | .skip => True
  | .variable v => v.accessors = []

def Assignment.WellFormed (a : Assignment) : Prop :=
  (a.targets ≠ [] ∧ ∀ t ∈ a.targets, t.WellFormed) ∧ a.sources ≠ [] ∧ ∀ e ∈ a.sources, e.WellFormed

def Assignment.Plain (a : Assignment) : Prop :=
  (∀ t ∈ a.targets, t.Plain) ∧ ∀ e ∈ a.sources, e.Plain

def Destination.WellFormed : Destination → Prop
  | .variable v => v.WellFormed
  | .default | .key _ | .discard => True

def Destination.Plain : Destination → Prop
  | .variable v => v.Plain
  | .default | .key _ | .discard => True

def Command.WellFormed (c : Command) : Prop :=
  IsCommandName c.name ∧ (∀ e ∈ c.id, e.WellFormed) ∧
    (∀ options ∈ c.options, ∀ o ∈ options, o.2.WellFormed) ∧ c.destination.WellFormed

/-- Whether no part of a command's name is `begin`, and its expressions are plain. -/
def Command.Plain (c : Command) : Prop :=
  "begin".toList ∉ nameParts c.name.toList ∧ (∀ e ∈ c.id, e.Plain) ∧
    (∀ options ∈ c.options, ∀ o ∈ options, o.2.Plain) ∧ c.destination.Plain

/-- Whether a command may stand in a header, where braces without options open the body. -/
def Command.FitsHeader (c : Command) : Prop := c.options ≠ some []

/-! ## Conditions and loops -/

def Condition.WellFormed : Condition → Prop
  | .assigning _ _ first rest => first.WellFormed ∧ rest.WellFormed
  | .commanding _ _ first rest => first.WellFormed ∧ first.FitsHeader ∧ rest.WellFormed
  | .command _ _ c => c.WellFormed ∧ c.FitsHeader
  | .comparison _ _ lhs none => lhs.WellFormed
  | .comparison _ _ lhs (some (_, rhs)) => lhs.WellFormed ∧ rhs.WellFormed

/-- Whether the right-hand side of a comparison is plain; it may be a pattern that something is
matched against, without slashes, backslashes and line feeds. -/
def Comparator.PlainRhs (op : Comparator) : Expr → Prop
  | .pattern p =>
      (op = .matches ∨ op = .unmatches) ∧ ∀ c ∈ p.source.toList, c ≠ '/' ∧ c ≠ '\\' ∧ c ≠ '\n'
  | e => e.Plain

def Condition.Plain : Condition → Prop
  | .assigning _ _ first rest => first.Plain ∧ rest.Plain
  | .commanding _ _ first rest => first.Plain ∧ rest.Plain
  | .command _ _ c => c.Plain
  | .comparison _ _ lhs none => lhs.Plain
  | .comparison _ _ lhs (some (op, rhs)) => lhs.Plain ∧ op.PlainRhs rhs

/-- Whether a condition ends in a comparison, so that a semicolon after it is not part of it. -/
def Condition.EndsInComparison : Condition → Prop
  | .assigning _ _ _ rest | .commanding _ _ _ rest => rest.EndsInComparison
  | .command _ _ _ => False
  | .comparison _ _ _ _ => True

/-- Whether a command is not called like the word that opens the header of a counting loop. -/
def Command.OpensLoop (c : Command) : Prop := Decimal.asciiLower (firstPart c.name) ≠ "count"

def Condition.OpensLoop : Condition → Prop
  | .commanding false _ c _ | .command false _ c => c.OpensLoop
  | _ => True

def Clause.WellFormed : Clause → Prop
  | .assignment a => a.WellFormed
  | .command c _ => c.WellFormed ∧ c.FitsHeader

def Clause.Plain : Clause → Prop
  | .assignment a => a.Plain
  | .command c _ => c.Plain

def Clause.OpensLoop : Clause → Prop
  | .assignment _ => True
  | .command c _ => c.OpensLoop

def LoopSource.WellFormed : LoopSource → Prop
  | .variable v => v.WellFormed
  | .command c => c.WellFormed ∧ c.FitsHeader

def LoopSource.Plain : LoopSource → Prop
  | .variable v => v.Plain
  | .command c => c.Plain

def LoopMode.WellFormed : LoopMode → Prop
  | .infinite => True
  | .count times => times.WellFormed
  | .items targets source =>
      targets ≠ [] ∧ (∀ t ∈ targets, t.WellFormed ∧ t.IsBare) ∧ source.WellFormed
  | .whilst test => test.WellFormed ∧ test.OpensLoop
  | .bounded init test next =>
      init.WellFormed ∧ init.OpensLoop ∧ test.WellFormed ∧ test.EndsInComparison ∧ next.WellFormed

def LoopMode.Plain : LoopMode → Prop
  | .infinite => True
  | .count times => times.Plain
  | .items targets source => (∀ t ∈ targets, t.Plain) ∧ source.Plain
  | .whilst test => test.Plain
  | .bounded init test next => init.Plain ∧ test.Plain ∧ next.Plain

/-! ## Statements -/

mutual

/-- Whether a statement may have been read. -/
def Statement.WellFormed : Statement → Prop
  | .assign a => a.WellFormed
  | .unset taken _ => taken ≠ [] ∧ ∀ v ∈ taken, v.WellFormed
  | .expression e _ => e.WellFormed
  | .choice first others otherwise _ =>
      first.WellFormed ∧ branchesWellFormed others ∧ otherwiseWellFormed otherwise
  | .loop mode body _ => mode.WellFormed ∧ statementsWellFormed body
  | .commands cs _ => cs ≠ [] ∧ ∀ c ∈ cs, c.WellFormed
  | .jump _ levels _ => 1 ≤ levels ∧ (levels : Int) < Word.signedLimit

def Branch.WellFormed : Branch → Prop
  | .mk test body => test.WellFormed ∧ statementsWellFormed body

def branchesWellFormed : List Branch → Prop
  | [] => True
  | b :: rest => b.WellFormed ∧ branchesWellFormed rest

def otherwiseWellFormed : Option (List Statement) → Prop
  | none => True
  | some body => statementsWellFormed body

def statementsWellFormed : List Statement → Prop
  | [] => True
  | s :: rest => s.WellFormed ∧ statementsWellFormed rest

end

mutual

def Statement.Plain : Statement → Prop
  | .assign a => a.Plain
  | .unset taken _ => ∀ v ∈ taken, v.Plain
  | .expression e _ => e.Plain
  | .choice first others otherwise _ =>
      first.Plain ∧ branchesPlain others ∧ otherwisePlain otherwise
  | .loop mode body _ => mode.Plain ∧ statementsPlain body
  | .commands cs _ => ∀ c ∈ cs, c.Plain
  | .jump _ _ _ => True

def Branch.Plain : Branch → Prop
  | .mk test body => test.Plain ∧ statementsPlain body

def branchesPlain : List Branch → Prop
  | [] => True
  | b :: rest => b.Plain ∧ branchesPlain rest

def otherwisePlain : Option (List Statement) → Prop
  | none => True
  | some body => statementsPlain body

def statementsPlain : List Statement → Prop
  | [] => True
  | s :: rest => s.Plain ∧ statementsPlain rest

end

/-- Whether a script may have been read. -/
def Script.WellFormed (s : Script) : Prop :=
  statementsWellFormed s.statements ∧ ∀ h ∈ s.handlers, statementsWellFormed h.body

def Script.Plain (s : Script) : Prop :=
  statementsPlain s.statements ∧ ∀ h ∈ s.handlers, statementsPlain h.body

/-! ## Forgetting positions -/

def Position.nowhere : Position := ⟨0, 0⟩

def Assignment.unplaced (a : Assignment) : Assignment := { a with position := .nowhere }

def Command.unplaced (c : Command) : Command := { c with position := .nowhere }

def Condition.unplaced : Condition → Condition
  | .assigning negated _ first rest => .assigning negated .nowhere first.unplaced rest.unplaced
  | .commanding negated _ first rest => .commanding negated .nowhere first.unplaced rest.unplaced
  | .command negated _ c => .command negated .nowhere c.unplaced
  | .comparison negated _ lhs compared => .comparison negated .nowhere lhs compared

def Clause.unplaced : Clause → Clause
  | .assignment a => .assignment a.unplaced
  | .command c _ => .command c.unplaced .nowhere

/-- A clause and a test as one condition, as which they are read first. -/
def Clause.before (init : Clause) (test : Condition) : Condition :=
  match init with
  | .assignment a => .assigning false .nowhere a test
  | .command c _ => .commanding false .nowhere c test

def LoopSource.unplaced : LoopSource → LoopSource
  | .variable v => .variable v
  | .command c => .command c.unplaced

def LoopMode.unplaced : LoopMode → LoopMode
  | .infinite => .infinite
  | .count times => .count times
  | .items targets source => .items targets source.unplaced
  | .whilst test => .whilst test.unplaced
  | .bounded init test next => .bounded init.unplaced test.unplaced next.unplaced

mutual

def Statement.unplaced : Statement → Statement
  | .assign a => .assign a.unplaced
  | .unset taken _ => .unset taken .nowhere
  | .expression e _ => .expression e .nowhere
  | .choice first others otherwise _ =>
      .choice first.unplaced (branchesUnplaced others) (otherwiseUnplaced otherwise) .nowhere
  | .loop mode body _ => .loop mode.unplaced (statementsUnplaced body) .nowhere
  | .commands cs _ => .commands (cs.map Command.unplaced) .nowhere
  | .jump kind levels _ => .jump kind levels .nowhere

def Branch.unplaced : Branch → Branch
  | .mk test body => .mk test.unplaced (statementsUnplaced body)

def branchesUnplaced : List Branch → List Branch
  | [] => []
  | b :: rest => b.unplaced :: branchesUnplaced rest

def otherwiseUnplaced : Option (List Statement) → Option (List Statement)
  | none => none
  | some body => some (statementsUnplaced body)

def statementsUnplaced : List Statement → List Statement
  | [] => []
  | s :: rest => s.unplaced :: statementsUnplaced rest

end

def Handler.unplaced (h : Handler) : Handler :=
  { h with body := statementsUnplaced h.body, position := .nowhere }

/-- Whether two scripts have the same statements and handlers up to positions. -/
def Script.SameBlocks (s t : Script) : Prop :=
  statementsUnplaced s.statements = statementsUnplaced t.statements ∧
    s.handlers.map Handler.unplaced = t.handlers.map Handler.unplaced

end TabPilot
