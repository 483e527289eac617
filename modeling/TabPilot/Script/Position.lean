set_option autoImplicit false

/-! # Positions in a script -/

namespace TabPilot

/-- A place in a script: line and column, both counted from one, columns in characters. -/
structure Position where
  line : Nat
  column : Nat
  deriving Repr, DecidableEq, Inhabited

def Position.text (p : Position) : String := s!"line {p.line}, char {p.column}"

def Position.after (p : Position) (c : Char) : Position :=
  if c = '\n' then ⟨p.line + 1, 1⟩ else ⟨p.line, p.column + 1⟩

end TabPilot
