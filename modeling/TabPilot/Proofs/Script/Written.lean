import TabPilot.Script.Grammar.Statement

set_option autoImplicit false

/-! # Writing scripts

A script is written as a list of pieces, which are tokens with the places where no blank may
stand: after an opening bracket, before a closing one, around the dots and brackets of
accessors. Every statement has a line of its own. Operands, arguments of commands, values of
options, sources of assignments, counts of loops, compared expressions and expressions that are
statements stand in parentheses; only a pattern that something is matched against does not.
-/

namespace TabPilot

/-- A token that is written, or a line end. -/
inductive Piece
  | newline
  | token (k : TokenKind)
  /-- The dot of an accessor. -/
  | dot
  /-- The number of an element, after the dot of an accessor. -/
  | position (n : Nat)
  /-- The opening bracket of an accessor. -/
  | index
  /-- A sign that stands directly before its operand. -/
  | sign

namespace Piece

abbrev word (w : String) : Piece := .token (.word w)

abbrev symbol (s : Symbol) : Piece := .token (.symbol s)

/-- The token that a piece is read as. -/
def kind : Piece → TokenKind
  | .newline => .newline
  | .token k => k
  | .dot => .symbol .dot
  | .position n => .int n
  | .index => .symbol .openBracket
  | .sign => .symbol .minus

def escaped (quote c : Char) : List Char := if c = quote ∨ c = '\\' then ['\\', c] else [c]

def quoted (quote : Char) (cs : List Char) : List Char :=
  quote :: (cs.flatMap (escaped quote) ++ [quote])

def quote (interpolated : Bool) : Char := if interpolated then '"' else '\''

def charsOf : TokenKind → List Char
  | .newline => ['\n']
  | .endOfInput => []
  | .symbol s => s.text.toList
  | .word w => w.toList
  | .variable name => '$' :: name.toList
  | .int i => (toString i).toList
  | .float f => (Decimal.Layout.plain.text f).toList
  | .text content interpolated => quoted (quote interpolated) content.toList
  | .pattern source flags => '/' :: (source.toList ++ '/' :: flags.toList)

def chars (x : Piece) : List Char := charsOf x.kind

/-- Whether no blank stands after a piece. -/
def opens : Piece → Bool
  | .newline | .dot | .index | .sign => true
  | .token (.symbol .openParen) | .token (.symbol .openBracket)
  | .token (.symbol .doubleColon) => true
  | _ => false

/-- Whether no blank stands before a piece. -/
def closes : Piece → Bool
  | .newline | .dot | .index => true
  | .token (.symbol .closeParen) | .token (.symbol .closeBracket) | .token (.symbol .comma)
  | .token (.symbol .semicolon) | .token (.symbol .colon) | .token (.symbol .doubleColon) => true
  | _ => false

/-- What stands between two pieces. -/
def between (x y : Piece) : List Char := if x.opens || y.closes then [] else [' ']

/-- The text of pieces that follow another one. -/
def textAfter (x : Piece) : List Piece → List Char
  | [] => []
  | y :: rest => between x y ++ (y.chars ++ textAfter y rest)

def joined (separator : Piece) : List (List Piece) → List Piece
  | [] => []
  | [x] => x
  | x :: y :: rest => x ++ separator :: joined separator (y :: rest)

abbrev commas : List (List Piece) → List Piece := joined (symbol .comma)

def parens (ps : List Piece) : List Piece := symbol .openParen :: (ps ++ [symbol .closeParen])

def braces (ps : List Piece) : List Piece :=
  symbol .openBrace :: .newline :: (ps ++ [symbol .closeBrace])

end Piece

open Piece

/-! ## Expressions -/

def BinaryOp.token : BinaryOp → Symbol
  | .power => .power
  | .multiply => .star
  | .divide => .slash
  | .modulo => .percent
  | .add => .plus
  | .subtract => .minus
  | .bitAnd => .ampersand
  | .bitOr => .pipe
  | .bitXor => .caret

/-- A literal. Texts, arrays and objects are expressions of their own, so there are no literals
of them. -/
def Value.literalPieces : Value → List Piece
  | .null => [word "null"]
  | .bool b => [word (if b then "true" else "false")]
  | .int i => if i < 0 then [.sign, .token (.int (-i))] else [.token (.int i)]
  | .float f => [.token (.float f)]
  | .string _ | .array _ | .object _ => []

/-- What stands after the dot of an accessor: a number or a word. -/
def fieldPiece (name : String) : Piece :=
  match Decimal.signed64? name with
  | some n => .position n.toNat
  | none => word name

mutual

def Expr.pieces : Expr → List Piece
  | .literal v => v.literalPieces
  | .text content interpolated => [.token (.text content interpolated)]
  | .array items =>
      symbol .openBracket :: (commas (itemPieces items) ++ [symbol .closeBracket])
  | .object entries => symbol .openBrace :: (commas (entryPieces entries) ++ [symbol .closeBrace])
  | .variable name accessors => .token (.variable name) :: accessorPieces accessors
  | .pattern p => [.token (.pattern p.source p.flags)]
  | .negate e => .sign :: parens e.pieces
  | .binary op lhs rhs => parens lhs.pieces ++ symbol op.token :: parens rhs.pieces

def itemPieces : List Expr → List (List Piece)
  | [] => []
  | e :: rest => e.pieces :: itemPieces rest

def entryPieces : List (String × Expr) → List (List Piece)
  | [] => []
  | (name, e) :: rest =>
      (.token (.text name false) :: symbol .colon :: e.pieces) :: entryPieces rest

def accessorPieces : List Accessor → List Piece
  | [] => []
  | .field name :: rest => .dot :: fieldPiece name :: accessorPieces rest
  | .index e :: rest => .index :: (e.pieces ++ symbol .closeBracket :: accessorPieces rest)

end

def Variable.pieces (v : Variable) : List Piece :=
  .token (.variable v.name) :: accessorPieces v.accessors

/-! ## Assignments and commands -/

def AssignOp.token : AssignOp → Symbol
  | .set => .assign
  | .append => .append
  | .add => .addAssign
  | .subtract => .subtractAssign
  | .multiply => .multiplyAssign
  | .divide => .divideAssign
  | .bitAnd => .andAssign
  | .bitOr => .orAssign

def Target.pieces : Target → List Piece
  | .skip => [word "_"]
  | .variable v => v.pieces

def Assignment.pieces (a : Assignment) : List Piece :=
  commas (a.targets.map Target.pieces) ++
    symbol a.op.token :: commas (a.sources.map fun e => parens e.pieces)

/-- The parts of a command's name, between double colons. -/
def nameParts : List Char → List (List Char)
  | [] => [[]]
  | ':' :: ':' :: rest => [] :: nameParts rest
  | c :: rest =>
      match nameParts rest with
      | [] => [[c]]
      | part :: parts => (c :: part) :: parts

def namePieces (name : String) : List Piece :=
  joined (symbol .doubleColon) ((nameParts name.toList).map fun part => [word (String.ofList part)])

def optionPieces (option : String × Expr) : List Piece :=
  .token (.text option.1 false) :: symbol .colon :: parens option.2.pieces

def optionsPieces : Option (List (String × Expr)) → List Piece
  | none => []
  | some options =>
      symbol .openBrace :: (commas (options.map optionPieces) ++ [symbol .closeBrace])

def Destination.pieces : Destination → List Piece
  | .default => []
  | .variable v => symbol .arrow :: v.pieces
  | .key name => [symbol .arrow, .token (.text name false)]
  | .discard => [symbol .arrow, word "null"]

def argumentPieces : Option Expr → List Piece
  | none => []
  | some e => parens e.pieces

def Command.pieces (c : Command) : List Piece :=
  namePieces c.name ++ (argumentPieces c.id ++ (optionsPieces c.options ++ c.destination.pieces))

/-! ## Conditions and loops -/

def Comparator.token : Comparator → TokenKind
  | .eq => .symbol .equal
  | .ne => .symbol .notEqual
  | .lt => .symbol .less
  | .le => .symbol .atMost
  | .gt => .symbol .greater
  | .ge => .symbol .atLeast
  | .matches => .symbol .matches
  | .unmatches => .symbol .unmatches
  | .isIn => .word "in"
  | .notIn => .word "notin"

/-- How the right-hand side of a comparison is written. -/
def rhsPieces : Expr → List Piece
  | .pattern p => [.token (.pattern p.source p.flags)]
  | e => parens e.pieces

def negationPieces (negated : Bool) : List Piece := if negated then [word "not"] else []

def Condition.pieces : Condition → List Piece
  | .assigning negated _ first rest =>
      negationPieces negated ++ (first.pieces ++ symbol .semicolon :: rest.pieces)
  | .commanding negated _ first rest =>
      negationPieces negated ++ (first.pieces ++ symbol .semicolon :: rest.pieces)
  | .command negated _ c => negationPieces negated ++ c.pieces
  | .comparison negated _ lhs none => negationPieces negated ++ parens lhs.pieces
  | .comparison negated _ lhs (some (op, rhs)) =>
      negationPieces negated ++ (parens lhs.pieces ++ .token op.token :: rhsPieces rhs)

def Clause.pieces : Clause → List Piece
  | .assignment a => a.pieces
  | .command c _ => c.pieces

def LoopSource.pieces : LoopSource → List Piece
  | .variable v => v.pieces
  | .command c => c.pieces

def LoopMode.pieces : LoopMode → List Piece
  | .infinite => []
  | .count times => word "count" :: parens times.pieces
  | .items targets source =>
      commas (targets.map Target.pieces) ++ word "in" :: source.pieces
  | .whilst test => test.pieces
  | .bounded init test next =>
      init.pieces ++ symbol .semicolon :: (test.pieces ++ symbol .semicolon :: next.pieces)

/-! ## Statements -/

def JumpKind.keyword : JumpKind → String
  | .break => "break"
  | .continue => "continue"

mutual

def Statement.pieces : Statement → List Piece
  | .assign a => a.pieces
  | .unset taken _ => word "unset" :: commas (taken.map Variable.pieces)
  | .expression e _ => parens e.pieces
  | .choice first others otherwise _ =>
      word "if" :: (first.pieces ++ (othersPieces others ++ otherwisePieces otherwise))
  | .loop mode body _ => word "loop" :: (mode.pieces ++ braces (linePieces body))
  | .commands cs _ => joined (symbol .semicolon) (cs.map Command.pieces)
  | .jump kind levels _ => [word kind.keyword, .token (.int levels)]

def Branch.pieces : Branch → List Piece
  | .mk test body => test.pieces ++ braces (linePieces body)

def othersPieces : List Branch → List Piece
  | [] => []
  | b :: rest => word "else" :: word "if" :: (b.pieces ++ othersPieces rest)

def otherwisePieces : Option (List Statement) → List Piece
  | none => []
  | some body => word "else" :: braces (linePieces body)

def linePieces : List Statement → List Piece
  | [] => []
  | s :: rest => s.pieces ++ .newline :: linePieces rest

end

def Handler.pieces (h : Handler) : List Piece :=
  word "on" :: .token (.text h.pattern false) ::
    ((if h.isolated then [word "isolated"] else []) ++ braces (linePieces h.body))

def Script.pieces (s : Script) : List Piece :=
  linePieces s.statements ++ s.handlers.flatMap fun h => h.pieces ++ [.newline]

def Script.write (s : Script) : String := String.ofList (textAfter .newline s.pieces)

end TabPilot
