import TabPilot.Pattern.Node
import Std.Data.HashSet

set_option autoImplicit false

/-! # Running regular expressions

A node becomes a list of steps with jumps between them. `search` tries the ways through the steps
in order of preference, from the first place on, and remembers which step was already tried at
which place: a second try there would fail again. So the first way found is the leftmost and,
among those, the preferred one.
-/

namespace TabPilot.Pattern

inductive Step
  | one (s : CharSet)
  | look (k : Look)
  | save (slot : Nat)
  | split (preferred other : Int)
  | jump (distance : Int)

def copies (n : Nat) (code : List Step) : List Step := (List.replicate n code).flatten

/-- A choice that goes on or skips so many steps. -/
def skipOver (greedy : Bool) (length : Nat) : Step :=
  if greedy then .split 1 (length + 1) else .split (length + 1) 1

def optional (greedy : Bool) (code : List Step) : List Step :=
  skipOver greedy code.length :: code

def onceOrMore (greedy : Bool) (code : List Step) : List Step :=
  let back := -(code.length : Int)
  code ++ [if greedy then .split back 1 else .split 1 back]

/-- Code that is run any number of times. Where the code can match nothing, a first round that
matches nothing still ends the repetition. -/
def anyTimes (greedy nullable : Bool) (code : List Step) : List Step :=
  if nullable then optional greedy (onceOrMore greedy code)
  else skipOver greedy (code.length + 1) :: (code ++ [.jump (-(code.length + 1 : Nat))])

/-- Code that is run up to `n` times, each time only after the time before. -/
def upTo (greedy : Bool) (n : Nat) (code : List Step) : List Step :=
  match n with
  | 0 => []
  | n + 1 => optional greedy (code ++ upTo greedy n code)

mutual

def Node.code : Node → List Step
  | .empty => []
  | .one s => [.one s]
  | .look k => [.look k]
  | .repeated least most greedy n =>
      let code := n.code
      match most with
      | some most => copies least code ++ upTo greedy (most - least) code
      | none =>
          if least = 0 then anyTimes greedy n.nullable code
          else copies (least - 1) code ++ onceOrMore greedy code
  | .capture number n => .save (2 * number) :: (n.code ++ [.save (2 * number + 1)])
  | .sequence ns => Node.codeOfAll ns
  | .alternatives ns => Node.codeOfAlternatives ns

def Node.codeOfAll : List Node → List Step
  | [] => []
  | n :: ns => n.code ++ Node.codeOfAll ns

def Node.codeOfAlternatives : List Node → List Step
  | [] => []
  | [n] => n.code
  | n :: ns =>
      let code := n.code
      let others := Node.codeOfAlternatives ns
      .split 1 (code.length + 2) :: (code ++ .jump (others.length + 1) :: others)

end

/-! ## Looking at a place -/

/-- Whether the character at an index is one of words. -/
def wordAt (unicode : Bool) (text : Array Char) (i : Nat) : Bool :=
  match text[i]? with
  | none => false
  | some c => (if unicode then CharSet.wordChars else CharSet.asciiWordChars).contains c

def Look.holds (k : Look) (text : Array Char) (i : Nat) : Bool :=
  let before := if i = 0 then none else text[i - 1]?
  let after := text[i]?
  match k with
  | .textStart => i = 0
  | .textEnd => i = text.size
  | .lineStart crlf =>
      before = none || before = some '\n' ||
        (crlf && before = some '\r' && after ≠ some '\n')
  | .lineEnd crlf =>
      after = none || (crlf && after = some '\r') ||
        (after = some '\n' && !(crlf && before = some '\r'))
  | .words unicode allowed =>
      allowed (i ≠ 0 && wordAt unicode text (i - 1)) (wordAt unicode text i)

/-! ## Searching -/

/-- The places of the groups of a match: slot `2 n` holds the start of group `n` and slot
`2 n + 1` its end, the latest first. -/
abbrev Slots : Type := List (Nat × Nat)

/-- A way through the steps that is still to be tried. -/
structure Attempt where
  step : Nat
  place : Nat
  slots : Slots

def Attempt.move (a : Attempt) (distance : Int) : Attempt :=
  { a with step := ((a.step : Int) + distance).toNat }

/-- The ways that lead on from a step, the preferred one first. -/
def Attempt.onward (a : Attempt) (text : Array Char) : Step → List Attempt
  | .one s =>
      match text[a.place]? with
      | some c => if s.contains c then [{ a.move 1 with place := a.place + 1 }] else []
      | none => []
  | .look k => if k.holds text a.place then [a.move 1] else []
  | .save slot => [{ a.move 1 with slots := (slot, a.place) :: a.slots }]
  | .split preferred other => [a.move preferred, a.move other]
  | .jump distance => [a.move distance]

/-- Tries one way after the other; `fuel` bounds how many. -/
def explore (program : Array Step) (text : Array Char) (fuel : Nat) (waiting : List Attempt)
    (tried : Std.HashSet Nat) : Option Slots :=
  match fuel with
  | 0 => none
  | fuel + 1 =>
      match waiting with
      | [] => none
      | a :: waiting =>
          let key := a.step * (text.size + 1) + a.place
          if tried.contains key then explore program text fuel waiting tried
          else
            match program[a.step]? with
            | none => some a.slots
            | some s => explore program text fuel (a.onward text s ++ waiting) (tried.insert key)

/-- The first match from a place on. Every step is tried at most once at every place and leads
on in at most two ways, which bounds the number of attempts. -/
def search (program : Array Step) (text : Array Char) (start : Nat) : Option Slots :=
  let starts := (List.range' start (text.size + 1 - start)).map fun i => (⟨0, i, []⟩ : Attempt)
  explore program text (2 * (program.size + 1) * (text.size + 1) + text.size + 2) starts ∅

end TabPilot.Pattern
