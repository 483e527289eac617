import TabPilot.Script.Position

set_option autoImplicit false

/-! # Faults of scripts

A fault is what went wrong in a script: its kind, a message and, as far as they are known, the
position, the file and the source. `Fault.render` shows it with the lines around the position
and a caret under the column. The first position, source and file attached to a fault stay.
-/

namespace TabPilot

inductive FaultKind
  /-- The text could not be read. -/
  | reading
  /-- A statement or expression had no result. -/
  | running
  /-- A command failed. -/
  | command
  deriving Repr, DecidableEq

def FaultKind.label : FaultKind → String
  | .reading => "Syntax error"
  | .running => "Error"
  | .command => "Runtime error"

structure Fault where
  kind : FaultKind
  message : String
  position : Option Position
  filename : Option String
  source : Option String
  deriving Repr, DecidableEq

namespace Fault

def new (kind : FaultKind) (message : String) : Fault := ⟨kind, message, none, none, none⟩

/-- Attaches a position unless there is one. -/
def placed (e : Fault) (p : Position) : Fault := { e with position := e.position.or (some p) }

/-- Attaches the source and the file, each unless there is one. -/
def withSource (e : Fault) (source : String) (filename : Option String) : Fault :=
  { e with source := e.source.or (some source), filename := e.filename.or filename }

/-! ## Rendering -/

/-- The lines of a text, split at line feeds. -/
def linesOf (text : List Char) : List (List Char) :=
  match text with
  | [] => [[]]
  | c :: rest =>
      if c = '\n' then [] :: linesOf rest
      else
        match linesOf rest with
        | [] => [[c]]
        | line :: lines => (c :: line) :: lines

def charAt? (lines : List (List Char)) (p : Position) : Option Char :=
  if p.line = 0 || p.column = 0 then none
  else (lines[p.line - 1]?).bind fun chars => chars[p.column - 1]?

/-- The message shown: where something was expected and the source shows what stands there
instead, that character is named. -/
def shownMessage (e : Fault) : String :=
  let offending :=
    if e.kind = .reading && "Expected ".toList.isPrefixOf e.message.toList then
      match e.source, e.position with
      | some source, some p => charAt? (linesOf source.toList) p
      | _, _ => none
    else none
  match offending with
  | some c => "Unexpected character '" ++ String.singleton c ++ "'"
  | none => e.message

/-- How many lines are shown on either side of the one with the fault. -/
def contextLines : Nat := 3

def lineNumber (n : Nat) : List Char :=
  let digits := Nat.toDigits 10 n
  List.replicate (4 - digits.length) ' ' ++ digits

/-- One shown line, and under the line with the fault the caret and the message. -/
def shownLine (p : Position) (message : List Char) (n : Nat) (line : List Char) : List Char :=
  let margin := if n = p.line then ['>', '>', ' '] else [' ', ' ', ' ']
  let shown := margin ++ lineNumber n ++ ':' :: ' ' :: line ++ ['\n']
  if n = p.line then
    shown ++ margin ++ List.replicate (6 + (p.column - 1)) ' ' ++ '^' :: ' ' :: message ++ ['\n']
  else shown

def excerpt (p : Position) (message : List Char) (lines : List (List Char)) : List Char :=
  let first := max 1 (p.line - contextLines)
  let last := min lines.length (p.line + contextLines)
  (List.range' first (last + 1 - first)).flatMap fun n =>
    shownLine p message n ((lines[n - 1]?).getD [])

def render (e : Fault) : String :=
  let message := e.shownMessage
  match e.position, e.source with
  | none, _ => e.kind.label ++ ": " ++ message
  | some p, none => e.kind.label ++ " on " ++ p.text ++ ": " ++ message
  | some p, some source =>
      let lines := linesOf source.toList
      let file :=
        match e.filename with
        | some name => "  in file: " ++ name ++ "\n"
        | none => ""
      let heading := e.kind.label ++ " on " ++ p.text ++ "\n" ++ file
      if p.line = 0 || lines.length < p.line then heading ++ message
      else heading ++ "Source:\n" ++ String.ofList (excerpt p message.toList lines)

end Fault

end TabPilot
