import TabPilot.Value.Json

set_option autoImplicit false

/-! # Binary operators and comparisons

`Value.binary` and `Value.compare` are the operators of the language on values. Arithmetic on
integers of the signed 64-bit range is exact where the exact result lies in that range and
falls back to binary64 otherwise.
-/

namespace TabPilot

inductive BinaryOp
  | power | multiply | divide | modulo | add | subtract | bitAnd | bitOr | bitXor
  deriving Repr, DecidableEq

def BinaryOp.all : List BinaryOp :=
  [.power, .multiply, .divide, .modulo, .add, .subtract, .bitAnd, .bitOr, .bitXor]

def BinaryOp.symbol : BinaryOp → String
  | .power => "**"
  | .multiply => "*"
  | .divide => "/"
  | .modulo => "%"
  | .add => "+"
  | .subtract => "-"
  | .bitAnd => "&"
  | .bitOr => "|"
  | .bitXor => "^"

inductive Comparator
  | eq | ne | lt | le | gt | ge | matches | unmatches | isIn | notIn
  deriving Repr, DecidableEq

def Comparator.symbol : Comparator → String
  | .eq => "=="
  | .ne => "!="
  | .lt => "<"
  | .le => "<="
  | .gt => ">"
  | .ge => ">="
  | .matches => "=~"
  | .unmatches => "!~"
  | .isIn => "in"
  | .notIn => "not in"

namespace Value

/-- Why an operator cannot give a result. -/
inductive Failure
  | divisionByZero
  | moduloByZero
  | notFinite (op : BinaryOp)
  | unsupported (op : BinaryOp) (left right : String)
  | tooLong
  | cannotOrder (left right : String)
  | notIterable (type : String)
  | needsPattern
  deriving Repr, DecidableEq

/-- The longest string, in bytes, that repetition may build. -/
def longestRepeat : Nat := 64 * 1024 * 1024

def Failure.message : Failure → String
  | .divisionByZero => "division by zero"
  | .moduloByZero => "modulo by zero"
  | .notFinite op => s!"result of {op.symbol} is not a finite number"
  | .unsupported op left right =>
      s!"unsupported operand types for {op.symbol}: '{left}' and '{right}'"
  | .tooLong => s!"repeated string would exceed {longestRepeat} bytes"
  | .cannotOrder left right => s!"cannot order '{left}' and '{right}'"
  | .notIterable type => s!"argument of type '{type}' is not iterable"
  | .needsPattern =>
      "Match operator must specify a regular expression on the right-hand side"

/-! ## Arithmetic -/

/-- `x ^ y` when it lies in the signed 64-bit range. A base other than `0`, `1` and `-1`
leaves the range at the sixty-fourth power at the latest. -/
def exactPower? (x : Int) (y : Nat) : Option Int :=
  if x = 0 || x = 1 then Word.inSigned? (if y = 0 then 1 else x)
  else if x = -1 then some (if y % 2 = 0 then 1 else -1)
  else if y < 64 then Word.inSigned? (Int.pow x y)
  else none

/-- The quotient of two integers of the signed range, without what is after the point. There is
none for a divisor of zero, and none for the least integer and `-1`, whose quotient lies beyond. -/
def quotient? (x y : Int) : Option Int :=
  if y = 0 then none else Word.inSigned? (x.tdiv y)

def remainder? (x y : Int) : Option Int := (quotient? x y).map fun _ => x.tmod y

/-- The remainder that is never negative. -/
def euclidean? (x y : Int) : Option Int := (quotient? x y).map fun _ => x.emod y

/-- The remainder with the sign of the divisor, from the one that is never negative. -/
def withSignOf (divisor remainder : Int) : Int :=
  if divisor < 0 && remainder ≠ 0 then remainder + divisor else remainder

/-- The exact result of an operator on integers, where there is one in the signed range. -/
def wholeResult? (op : BinaryOp) (x y : Int) : Option Int :=
  match op with
  | .add => Word.inSigned? (x + y)
  | .subtract => Word.inSigned? (x - y)
  | .multiply => Word.inSigned? (x * y)
  | .divide => if remainder? x y = some 0 then quotient? x y else none
  | .modulo => (euclidean? x y).map (withSignOf y)
  | .power => if 0 ≤ y && y.toNat < twoTo 32 then exactPower? x y.toNat else none
  | _ => none

/-- Wraps up a result computed in binary64. -/
def finite (op : BinaryOp) (f : Float) : Except Failure Value :=
  if Binary64.isFinite f then .ok (ofFloat f) else .error (.notFinite op)

def inexact (op : BinaryOp) (x y : Float) : Except Failure Value :=
  match op with
  | .add => finite op (x + y)
  | .subtract => finite op (x - y)
  | .multiply => finite op (x * y)
  | .divide => if y == 0.0 then .error .divisionByZero else finite op (x / y)
  | .modulo =>
      if y == 0.0 then .error .moduloByZero else finite op (x - y * Binary64.floor (x / y))
  | .power => finite op (Float.pow x y)
  | _ => .error (.unsupported op "float" "float")

def arithmetic (op : BinaryOp) (a b : Numeric) : Except Failure Value :=
  match a, b with
  | .int x, .int y =>
      match wholeResult? op x y with
      | some i => .ok (.int i)
      | none => inexact op (Binary64.ofInt x) (Binary64.ofInt y)
  | a, b => inexact op a.toFloat b.toFloat

/-- A string repeated; a count below zero gives the empty string. -/
def repeated (s : String) (count : Int) : Except Failure Value :=
  if s.utf8ByteSize * count.toNat ≤ longestRepeat then
    .ok (.string (if s.isEmpty then "" else String.join (List.replicate count.toNat s)))
  else .error .tooLong

/-- An arithmetic operator on operands that are not both numbers. -/
def sequence (op : BinaryOp) (lhs rhs : Value) : Except Failure Value :=
  let unsupported := Except.error (.unsupported op lhs.typeName rhs.typeName)
  match op, lhs, rhs with
  | .add, .string a, .string b => .ok (.string (a ++ b))
  | .add, .array a, .array b => .ok (.array (a ++ b))
  | .multiply, .string s, n =>
      match n.signed? with
      | some count => repeated s count
      | none => unsupported
  | .multiply, n, .string s =>
      match n.signed? with
      | some count => repeated s count
      | none => unsupported
  | _, _, _ => unsupported

/-! ## Bits -/

/-- A bitwise operator, on two truth values or two integers of the signed range. -/
def bitwise (op : BinaryOp) (lhs rhs : Value) : Except Failure Value :=
  match lhs, rhs with
  | .bool a, .bool b =>
      .ok <| .bool <|
        match op with
        | .bitAnd => a && b
        | .bitOr => a || b
        | _ => a != b
  | _, _ =>
      match lhs.signed?, rhs.signed? with
      | some a, some b =>
          .ok <| .int <| Word.toSigned <|
            match op with
            | .bitAnd => Word.ofSigned a &&& Word.ofSigned b
            | .bitOr => Word.ofSigned a ||| Word.ofSigned b
            | _ => Word.ofSigned a ^^^ Word.ofSigned b
      | _, _ => .error (.unsupported op lhs.typeName rhs.typeName)

def binary (op : BinaryOp) (lhs rhs : Value) : Except Failure Value :=
  match op with
  | .bitAnd | .bitOr | .bitXor => bitwise op lhs rhs
  | _ =>
      match lhs.numeric?, rhs.numeric? with
      | some a, some b => arithmetic op a b
      | _, _ => sequence op lhs rhs

def negate? (v : Value) : Option Value :=
  match v.signed?.bind fun i => Word.inSigned? (-i) with
  | some i => some (.int i)
  | none => v.toFloat?.map fun f => ofFloat (-f)

/-! ## Comparison -/

/-- Equality of the language: two numbers are equal when they are in binary64. -/
def equals (lhs rhs : Value) : Bool :=
  match lhs.numeric?, rhs.numeric? with
  | some a, some b => a.toFloat == b.toFloat
  | _, _ => same lhs rhs

def compareFloat (x y : Float) : Option Ordering :=
  if x < y then some .lt else if x == y then some .eq else if y < x then some .gt else none

/-- How two integers stand to each other. -/
def compareInt (x y : Int) : Ordering :=
  if x < y then .lt else if x = y then .eq else .gt

/-- How two strings stand to each other, by code points. -/
def compareString (a b : String) : Ordering :=
  if a < b then .lt else if a = b then .eq else .gt

/-- How two values stand to each other, if they can be ordered. -/
def ordering? (lhs rhs : Value) : Option Ordering :=
  match lhs, rhs with
  | .string a, .string b => some (compareString a b)
  | .bool a, .bool b => some (compareInt a.toNat b.toNat)
  | _, _ =>
      match lhs.numeric?, rhs.numeric? with
      | some (.int x), some (.int y) => some (compareInt x y)
      | some a, some b => compareFloat a.toFloat b.toFloat
      | _, _ => none

/-- How two values stand to each other. -/
def ordering (lhs rhs : Value) : Except Failure Ordering :=
  match ordering? lhs rhs with
  | some order => .ok order
  | none => .error (.cannotOrder lhs.typeName rhs.typeName)

def occursIn (part : List Char) : List Char → Bool
  | [] => part.isEmpty
  | c :: rest => part.isPrefixOf (c :: rest) || occursIn part rest

/-- Whether a value holds another one: an element of a list, a name of an object, a part of a
string. -/
def holds (haystack needle : Value) : Except Failure Bool :=
  match haystack with
  | .array items => .ok (items.any fun item => equals item needle)
  | .object members => .ok (members.contains needle.render)
  | .string s => .ok (occursIn needle.render.toList s.toList)
  | .null => .ok false
  | other => .error (.notIterable other.typeName)

/-- A comparison of two values. Matching needs a pattern and has no meaning on values. -/
def compare (op : Comparator) (lhs rhs : Value) : Except Failure Bool :=
  match op with
  | .eq => .ok (equals lhs rhs)
  | .ne => .ok (!equals lhs rhs)
  | .lt => (ordering lhs rhs).map (· == .lt)
  | .le => (ordering lhs rhs).map (· != .gt)
  | .gt => (ordering lhs rhs).map (· == .gt)
  | .ge => (ordering lhs rhs).map (· != .lt)
  | .isIn => holds rhs lhs
  | .notIn => (holds rhs lhs).map (!·)
  | .matches | .unmatches => .error .needsPattern

end Value

end TabPilot
