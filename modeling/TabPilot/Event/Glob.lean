set_option autoImplicit false

/-! # Patterns for event names

`?` stands for any character, `*` for any characters, and brackets for one character of a set,
or, after `!`, for one that is not in it. `**` stands for any number of parts between slashes, and
at the end of a pattern for anything.
-/

namespace TabPilot

/-- What may stand in the brackets of a pattern: characters and ranges. -/
structure Glob.Set where
  ranges : List (Char × Char)

inductive Glob.Piece
  | char (c : Char)
  | anyChar
  | anyChars
  | anyParts
  | within (s : Glob.Set)
  | outside (s : Glob.Set)

structure Glob where
  pieces : List Glob.Piece

namespace Glob

inductive Cause
  | wildcards | parts | range
  deriving Repr, DecidableEq

/-- What is wrong with a pattern, and at which character. -/
structure Failure where
  cause : Cause
  place : Nat
  deriving Repr, DecidableEq

def Cause.text : Cause → String
  | .wildcards => "wildcards are either regular \x60*\x60 or recursive \x60**\x60"
  | .parts => "recursive wildcards must form a single path component"
  | .range => "invalid range pattern"

def Failure.message (e : Failure) : String :=
  s!"Pattern syntax error near position {e.place}: {e.cause.text}"

/-! ## Reading -/

def rangesOf : List Char → List (Char × Char)
  | low :: '-' :: high :: rest => (low, high) :: rangesOf rest
  | c :: rest => (c, c) :: rangesOf rest
  | [] => []

/-- The set in brackets and the number of characters up to the closing one. The first character
of a set may be a closing bracket. -/
def bracketed? (cs : List Char) : Option (Piece × Nat) :=
  let close? (inner : List Char) : Option (List Char) :=
    match inner with
    | first :: rest =>
        let body := rest.takeWhile (· ≠ ']')
        if body.length < rest.length then some (first :: body) else none
    | [] => none
  match cs with
  | '!' :: inner => (close? inner).map fun body => (.outside ⟨rangesOf body⟩, body.length + 2)
  | inner => (close? inner).map fun body => (.within ⟨rangesOf body⟩, body.length + 1)

/-- Whether the last piece read is already one for any parts. -/
def endsInParts : List Piece → Bool
  | .anyParts :: _ :: _ => true
  | _ => false

/-- Reads pieces from a place on; `before` is the character before it, `done` holds the pieces so
far in reverse order, and `skipped` characters were read already. -/
def piecesFrom (done : List Piece) (before : Option Char) (place skipped : Nat) :
    List Char → Except Failure (List Piece)
  | [] => .ok done.reverse
  | c :: rest =>
      match skipped with
      | skipped + 1 => piecesFrom done (some c) (place + 1) skipped rest
      | 0 =>
          if c = '?' then piecesFrom (.anyChar :: done) (some c) (place + 1) 0 rest
          else if c = '*' then
            let stars := 1 + (rest.takeWhile (· = '*')).length
            let after := rest.drop (stars - 1)
            if stars = 1 then piecesFrom (.anyChars :: done) (some c) (place + 1) 0 rest
            else if 2 < stars then .error ⟨.wildcards, place + 2⟩
            else if place ≠ 0 && before ≠ some '/' then .error ⟨.parts, place - 1⟩
            else if after.isEmpty || after.head? = some '/' then
              let done := if endsInParts done then done else .anyParts :: done
              piecesFrom done (some c) (place + 1) (if after.isEmpty then 1 else 2) rest
            else .error ⟨.parts, place + 2⟩
          else if c = '[' then
            match bracketed? rest with
            | some (piece, width) => piecesFrom (piece :: done) (some c) (place + 1) width rest
            | none => .error ⟨.range, place⟩
          else piecesFrom (.char c :: done) (some c) (place + 1) 0 rest

def ofText (text : String) : Except Failure Glob :=
  (piecesFrom [] none 0 0 text.toList).map Glob.mk

/-! ## Matching -/

def Set.contains (s : Set) (c : Char) : Bool := s.ranges.any fun r => r.1 ≤ c && c ≤ r.2

def Piece.allows : Piece → Char → Bool
  | .char d, c => c = d
  | .anyChar, _ => true
  | .within s, c => s.contains c
  | .outside s, c => !s.contains c
  | _, _ => false

/-- Whether a test holds for some rest of a text, the text itself included. -/
def anyRest (test : List Char → Bool) : List Char → Bool
  | [] => test []
  | c :: rest => test (c :: rest) || anyRest test rest

/-- Whether a test holds for the text itself or for what follows some slash in it. -/
def anyPart (test : List Char → Bool) (text : List Char) : Bool :=
  test text || anyRest (fun rest =>
    match rest with
    | '/' :: rest => test rest
    | _ => false) text

def fit : List Piece → List Char → Bool
  | [], text => text.isEmpty
  | .anyChars :: pieces, text => anyRest (fit pieces) text
  | .anyParts :: pieces, text => pieces.isEmpty || anyPart (fit pieces) text
  | piece :: pieces, text =>
      match text with
      | c :: rest => piece.allows c && fit pieces rest
      | [] => false

def fits (g : Glob) (name : String) : Bool := fit g.pieces name.toList

end Glob

end TabPilot
