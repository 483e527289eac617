import TabPilot.Script.Position
import TabPilot.Value.Operator

set_option autoImplicit false

/-! # The tree of a script

What a script says, as the reader gives it and the interpreter runs it: expressions, commands,
conditions, statements, and the handlers of events.
-/

namespace TabPilot

/-! ## Expressions -/

/-- A regular expression as it is written: the pattern and its flags. -/
structure PatternLiteral where
  source : String
  flags : String
  deriving Repr, DecidableEq

mutual

inductive Accessor
  | field (name : String)
  | index (position : Expr)

inductive Expr
  | literal (v : Value)
  | text (content : String) (interpolated : Bool)
  | array (items : List Expr)
  | object (entries : List (String × Expr))
  | variable (name : String) (accessors : List Accessor)
  | pattern (p : PatternLiteral)
  | negate (operand : Expr)
  | binary (op : BinaryOp) (lhs rhs : Expr)

end

instance : Inhabited Expr := ⟨.literal .null⟩

/-- A variable, with the steps into its value that are written after it. -/
structure Variable where
  name : String
  accessors : List Accessor

def Variable.expr (v : Variable) : Expr := .variable v.name v.accessors

/-! ## Assignments and commands -/

/-- Where an assigned value goes; `skip` drops it. -/
inductive Target
  | skip
  | variable (v : Variable)

inductive AssignOp
  | set | append | add | subtract | multiply | divide | bitAnd | bitOr
  deriving Repr, DecidableEq

def AssignOp.symbol : AssignOp → String
  | .set => "="
  | .append => "<<"
  | .add => "+="
  | .subtract => "-="
  | .multiply => "*="
  | .divide => "/="
  | .bitAnd => "&="
  | .bitOr => "|="

structure Assignment where
  targets : List Target
  op : AssignOp
  sources : List Expr
  position : Position

/-- Where the result of a command goes. -/
inductive Destination
  | default
  | variable (v : Variable)
  | key (name : String)
  | discard

structure Command where
  name : String
  id : Option Expr
  options : Option (List (String × Expr))
  destination : Destination
  position : Position

/-! ## Statements -/

/-- What `if` and loops test. An assignment or a command may come first. -/
inductive Condition
  | assigning (negated : Bool) (position : Position) (first : Assignment) (rest : Condition)
  | commanding (negated : Bool) (position : Position) (first : Command) (rest : Condition)
  | command (negated : Bool) (position : Position) (c : Command)
  | comparison (negated : Bool) (position : Position) (lhs : Expr)
      (comparison : Option (Comparator × Expr))

def Condition.position : Condition → Position
  | .assigning _ p _ _ => p
  | .commanding _ p _ _ => p
  | .command _ p _ => p
  | .comparison _ p _ _ => p

/-- The first and the last clause of a loop header: an assignment or a command. -/
inductive Clause
  | assignment (a : Assignment)
  | command (c : Command) (position : Position)

inductive LoopSource
  | variable (v : Variable)
  | command (c : Command)

inductive LoopMode
  | infinite
  | count (times : Expr)
  | items (targets : List Target) (source : LoopSource)
  | whilst (test : Condition)
  | bounded (init : Clause) (test : Condition) (next : Clause)

/-- The two ways of leaving a loop's body. -/
inductive JumpKind
  | break
  | continue
  deriving Repr, DecidableEq

mutual

inductive Statement
  | assign (a : Assignment)
  | unset (taken : List Variable) (position : Position)
  | expression (e : Expr) (position : Position)
  | choice (first : Branch) (others : List Branch) (otherwise : Option (List Statement))
      (position : Position)
  | loop (mode : LoopMode) (body : List Statement) (position : Position)
  | commands (cs : List Command) (position : Position)
  | jump (kind : JumpKind) (levels : Nat) (position : Position)

inductive Branch
  | mk (test : Condition) (body : List Statement)

end

def Branch.test : Branch → Condition
  | .mk test _ => test

def Branch.body : Branch → List Statement
  | .mk _ body => body

def Statement.position : Statement → Position
  | .assign a => a.position
  | .unset _ p => p
  | .expression _ p => p
  | .choice _ _ _ p => p
  | .loop _ _ p => p
  | .commands _ p => p
  | .jump _ _ p => p

/-- What is done when an event comes whose name fits the pattern. An isolated handler does not
see the variables of the script. -/
structure Handler where
  pattern : String
  isolated : Bool
  body : List Statement
  position : Position

/-- A script: its statements, its event handlers, and the text they were read from. -/
structure Script where
  statements : List Statement
  handlers : List Handler
  source : String
  filename : Option String

end TabPilot
