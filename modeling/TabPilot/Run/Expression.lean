import TabPilot.Run.Failure

set_option autoImplicit false

/-! # The values of expressions

An expression is evaluated against what `read` finds at each path. A variable that leads nowhere
is `null`. Everything is evaluated from left to right, and the first failure counts.
-/

namespace TabPilot

/-- The sign of a value turned round. -/
def Value.negated (v : Value) : Except RunFailure Value :=
  match v.negate? with
  | some r => .ok r
  | none => .error (.badSign v.typeName)

/-- The segment that the value of an index stands for: an integer or a name. -/
def Segment.ofValue? : Value → Option Segment
  | .string name => some (.key name)
  | v => v.signed?.map .index

mutual

def Expr.eval (read : Path → Option Value) : Expr → Except RunFailure Value
  | .literal v => .ok v
  | .text content true =>
      match Template.fill read content with
      | .ok s => .ok (.string s)
      | .error e => .error (.template e)
  | .text content false => .ok (.string content)
  | .array items => (Expr.evalAll read items).map .array
  | .object entries => (Expr.evalEntries read entries).map Value.ofMembers
  | .variable name steps =>
      (Expr.evalSteps read name steps).map fun rest => (read (.key name :: rest)).getD .null
  | .pattern p => .error (.patternAlone p.source)
  | .negate operand =>
      match Expr.eval read operand with
      | .ok v => v.negated
      | .error e => .error e
  | .binary op lhs rhs =>
      match Expr.eval read lhs with
      | .error e => .error e
      | .ok a =>
          match Expr.eval read rhs with
          | .error e => .error e
          | .ok b =>
              match Value.binary op a b with
              | .ok v => .ok v
              | .error e => .error (.operator e)

def Expr.evalAll (read : Path → Option Value) : List Expr → Except RunFailure (List Value)
  | [] => .ok []
  | e :: rest =>
      match Expr.eval read e with
      | .error f => .error f
      | .ok v => (Expr.evalAll read rest).map (v :: ·)

def Expr.evalEntries (read : Path → Option Value) :
    List (String × Expr) → Except RunFailure (List (String × Value))
  | [] => .ok []
  | (name, e) :: rest =>
      match Expr.eval read e with
      | .error f => .error f
      | .ok v => (Expr.evalEntries read rest).map ((name, v) :: ·)

def Expr.evalSteps (read : Path → Option Value) (name : String) :
    List Accessor → Except RunFailure Path
  | [] => .ok []
  | .field field :: rest => (Expr.evalSteps read name rest).map (.key field :: ·)
  | .index e :: rest =>
      match Expr.eval read e with
      | .error f => .error f
      | .ok v =>
          match Segment.ofValue? v with
          | some s => (Expr.evalSteps read name rest).map (s :: ·)
          | none => .error (.badIndex name v.typeName)

end

def Variable.path (read : Path → Option Value) (v : Variable) : Except RunFailure Path :=
  (Expr.evalSteps read v.name v.accessors).map (.key v.name :: ·)

/-! ## Comparisons -/

/-- Whether the text of a value matches a regular expression at its start. -/
def PatternLiteral.matchesValue (p : PatternLiteral) (v : Value) : Except RunFailure Bool :=
  match Pattern.compileLiteral p.source p.flags with
  | .ok pattern => .ok (pattern.matchesIn v.render)
  | .error e => .error (.pattern p.source e)

def Value.compareWith (read : Path → Option Value) (op : Comparator) (lhs : Value) (rhs : Expr) :
    Except RunFailure Bool :=
  match op, rhs with
  | .matches, .pattern p => p.matchesValue lhs
  | .unmatches, .pattern p => (p.matchesValue lhs).map (!·)
  | op, rhs =>
      match rhs.eval read with
      | .error e => .error e
      | .ok v =>
          match Value.compare op lhs v with
          | .ok b => .ok b
          | .error e => .error (.operator e)

end TabPilot
