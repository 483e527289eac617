import TabPilot.Script.Misreading
import TabPilot.Decimal.Reader

set_option autoImplicit false

/-! # Reading tokens one by one

The functions of the grammar take the tokens that are left, of which the last one is the end of
input, and give what they read and the tokens after it. The end of input is never taken off.
-/

namespace TabPilot.Grammar

/-- What was read, and the tokens after it; or what is wrong. -/
abbrev Parsed (α : Type) : Type := Except Misread (α × List Token)

def kind : List Token → TokenKind
  | [] => .endOfInput
  | t :: _ => t.kind

def here : List Token → Position
  | [] => ⟨1, 1⟩
  | t :: _ => t.position

/-- Takes one token off, unless it is the last. -/
def advance : List Token → List Token
  | _ :: t :: rest => t :: rest
  | ts => ts

def fail {α : Type} (cause : Misreading) (ts : List Token) : Except Misread α :=
  .error ⟨cause, here ts⟩

def at? (s : Symbol) (ts : List Token) : Bool := (kind ts).isSymbol s

def expect (s : Symbol) (ts : List Token) : Except Misread (List Token) :=
  if at? s ts then .ok (advance ts) else fail (.expected (.symbol s)) ts

def skipNewlines : List Token → List Token
  | t :: rest => if t.kind.isNewline then skipNewlines rest else t :: rest
  | [] => []

def isSeparator (k : TokenKind) : Bool := k.isNewline || k.isSymbol .semicolon

/-- Takes everything off that stands between statements. -/
def skipSeparators : List Token → List Token
  | t :: rest => if isSeparator t.kind then skipSeparators rest else t :: rest
  | [] => []

/-! ## Words -/

/-- The words that cannot start a command. -/
def reserved : List String :=
  ["as", "break", "case", "continue", "else", "false", "for", "if", "in", "is", "loop", "not",
    "notin", "null", "on", "true", "unset", "when"]

/-- Whether a word, in any letter case, is reserved. -/
def isReserved (word : String) : Bool := reserved.contains (Decimal.asciiLower word)

/-- Whether the next token is the given word in any letter case. -/
def atWord (word : String) (ts : List Token) : Bool :=
  match kind ts with
  | .word w => Decimal.asciiLower w = word
  | _ => false

def startsCommand (ts : List Token) : Bool :=
  match kind ts with
  | .word w => !isReserved w && w != "_"
  | _ => false

end TabPilot.Grammar
