import TabPilot.Script.Grammar.Cursor
import TabPilot.Script.Tree

set_option autoImplicit false

/-! # Reading expressions

From loosest to tightest: `|`, then `^` and `~`, then `&`, then `+` and `-`, then `*`, `/` and
`%`, then the sign, then `**`. All group to the left but `**`, which groups to the right and takes
a signed operand as its exponent. The first argument of each function bounds how deep it may go;
`Grammar.budget` is enough for every list of tokens.
-/

namespace TabPilot.Grammar

/-- The operators that group to the left, with how tightly they bind. -/
def leftOperator? : TokenKind → Option (BinaryOp × Nat)
  | .symbol .pipe => some (.bitOr, 0)
  | .symbol .caret => some (.bitXor, 1)
  | .symbol .tilde => some (.bitXor, 1)
  | .symbol .ampersand => some (.bitAnd, 2)
  | .symbol .plus => some (.add, 3)
  | .symbol .minus => some (.subtract, 3)
  | .symbol .star => some (.multiply, 4)
  | .symbol .slash => some (.divide, 4)
  | .symbol .percent => some (.modulo, 4)
  | _ => none

/-- The value of a word that is a literal, in any letter case. -/
def wordValue? (word : String) : Option Value :=
  match Decimal.asciiLower word with
  | "true" => some (.bool true)
  | "false" => some (.bool false)
  | "null" => some .null
  | _ => none

/-- An expression with a minus sign before it. A number takes the sign into itself. -/
def negated : Expr → Expr
  | .literal (.int i) => .literal (.int (-i))
  | .literal (.float f) => .literal (.float (-f))
  | e => .negate e

def startsOperand (ts : List Token) : Bool :=
  match kind ts with
  | .variable _ | .text _ _ | .int _ | .float _ => true
  | .symbol .openBracket | .symbol .openParen | .symbol .minus => true
  | .word w => (wordValue? w).isSome
  | _ => false

def memberName? : TokenKind → Option String
  | .word w => some w
  | .text content _ => some content
  | _ => none

mutual

/-- Reads an expression whose operators bind at least as tightly as `level`. -/
def expression (fuel level : Nat) (ts : List Token) : Parsed Expr :=
  match fuel with
  | 0 => fail .tooDeep ts
  | fuel + 1 =>
      match operand fuel ts with
      | .ok (lhs, ts) => operators fuel level lhs ts
      | .error e => .error e

def operators (fuel level : Nat) (lhs : Expr) (ts : List Token) : Parsed Expr :=
  match fuel with
  | 0 => fail .tooDeep ts
  | fuel + 1 =>
      match leftOperator? (kind ts) with
      | some (op, tightness) =>
          if level ≤ tightness then
            match expression fuel (tightness + 1) (skipNewlines (advance ts)) with
            | .ok (rhs, ts) => operators fuel level (.binary op lhs rhs) ts
            | .error e => .error e
          else .ok (lhs, ts)
      | none => .ok (lhs, ts)

/-- Reads an operand with its sign and its power. -/
def operand (fuel : Nat) (ts : List Token) : Parsed Expr :=
  match fuel with
  | 0 => fail .tooDeep ts
  | fuel + 1 =>
      if at? .minus ts then
        match operand fuel (advance ts) with
        | .ok (e, ts) => .ok (negated e, ts)
        | .error e => .error e
      else
        match primary fuel ts with
        | .ok (base, ts) =>
            if at? .power ts then
              match operand fuel (advance ts) with
              | .ok (e, ts) => .ok (.binary .power base e, ts)
              | .error e => .error e
            else .ok (base, ts)
        | .error e => .error e

/-- Reads an operand without sign and power. -/
def primary (fuel : Nat) (ts : List Token) : Parsed Expr :=
  match fuel with
  | 0 => fail .tooDeep ts
  | fuel + 1 =>
      match kind ts with
      | .int i => .ok (.literal (.int i), advance ts)
      | .float f => .ok (.literal (Value.ofFloat f), advance ts)
      | .text content interpolated => .ok (.text content interpolated, advance ts)
      | .pattern source flags => .ok (.pattern ⟨source, flags⟩, advance ts)
      | .variable name =>
          match accessors fuel (advance ts) with
          | .ok (steps, ts) => .ok (.variable name steps, ts)
          | .error e => .error e
      | .symbol .openBracket =>
          match items fuel (skipNewlines (advance ts)) with
          | .ok (es, ts) => (expect .closeBracket (skipNewlines ts)).map fun ts => (.array es, ts)
          | .error e => .error e
      | .symbol .openBrace =>
          match entries fuel (skipNewlines (advance ts)) with
          | .ok (es, ts) => (expect .closeBrace (skipNewlines ts)).map fun ts => (.object es, ts)
          | .error e => .error e
      | .symbol .openParen =>
          match expression fuel 0 (skipNewlines (advance ts)) with
          | .ok (e, ts) => (expect .closeParen (skipNewlines ts)).map fun ts => (e, ts)
          | .error e => .error e
      | .word w =>
          match wordValue? w with
          | some v => .ok (.literal v, advance ts)
          | none => fail (.expected (.value (.word w))) ts
      | other => fail (.expected (.value other)) ts

/-- Reads the elements of a list. A comma may follow the last one. -/
def items (fuel : Nat) (ts : List Token) : Parsed (List Expr) :=
  match fuel with
  | 0 => fail .tooDeep ts
  | fuel + 1 =>
      if at? .closeBracket ts then .ok ([], ts)
      else
        match expression fuel 0 ts with
        | .error e => .error e
        | .ok (first, ts) =>
            let ts := skipNewlines ts
            if at? .comma ts then
              match items fuel (skipNewlines (advance ts)) with
              | .ok (rest, ts) => .ok (first :: rest, ts)
              | .error e => .error e
            else .ok ([first], ts)

/-- Reads the members of an object. A comma may follow the last one. -/
def entries (fuel : Nat) (ts : List Token) : Parsed (List (String × Expr)) :=
  match fuel with
  | 0 => fail .tooDeep ts
  | fuel + 1 =>
      if at? .closeBrace ts then .ok ([], ts)
      else
        match memberName? (kind ts) with
        | none => fail (.expected .objectKey) ts
        | some name =>
            match expect .colon (advance ts) with
            | .error e => .error e
            | .ok ts =>
                match expression fuel 0 (skipNewlines ts) with
                | .error e => .error e
                | .ok (first, ts) =>
                    let ts := skipNewlines ts
                    if at? .comma ts then
                      match entries fuel (skipNewlines (advance ts)) with
                      | .ok (rest, ts) => .ok ((name, first) :: rest, ts)
                      | .error e => .error e
                    else .ok ([(name, first)], ts)

/-- Reads the accessors that are written directly after a variable. -/
def accessors (fuel : Nat) (ts : List Token) : Parsed (List Accessor) :=
  match fuel with
  | 0 => fail .tooDeep ts
  | fuel + 1 =>
      match ts with
      | ⟨.symbol .dot, _, false⟩ :: _ =>
          let ts := advance ts
          let step :=
            match kind ts with
            | .word w => some (.field w)
            | .int i => some (.field (toString i))
            | .variable name => some (.index (.variable name []))
            | _ => none
          match step with
          | none => fail (.expected .fieldName) ts
          | some step =>
              match accessors fuel (advance ts) with
              | .ok (steps, ts) => .ok (step :: steps, ts)
              | .error e => .error e
      | ⟨.symbol .openBracket, _, false⟩ :: _ =>
          match expression fuel 0 (advance ts) with
          | .error e => .error e
          | .ok (index, ts) =>
              match expect .closeBracket ts with
              | .error e => .error e
              | .ok ts =>
                  match accessors fuel ts with
                  | .ok (steps, ts) => .ok (.index index :: steps, ts)
                  | .error e => .error e
      | _ => .ok ([], ts)

end

def reference (fuel : Nat) (ts : List Token) : Parsed Variable :=
  match kind ts with
  | .variable name => (accessors fuel (advance ts)).map fun (steps, ts) => (⟨name, steps⟩, ts)
  | _ => fail (.expected .variable) ts

end TabPilot.Grammar
