import TabPilot.Value.Basic
import TabPilot.Decimal.Reader
import TabPilot.Text.Blank

set_option autoImplicit false

/-! # Paths

A path leads from a value to a value inside it: `a.b.c`, `items.0`, `items[-1]`,
`headers['Content-Type']`. This file holds the segments, reading a path from text and writing
it back.
-/

namespace TabPilot

inductive Segment
  | key (name : String)
  | index (i : Int)
  deriving Repr, DecidableEq

abbrev Path := List Segment

namespace Segment

def memberName : Segment → String
  | .key name => name
  | .index i => toString i

/-- The number that a segment gives as a position in a list: an index, or a name that is
written like an integer. -/
def number? : Segment → Option Int
  | .key name => Decimal.signed64? name
  | .index i => some i

/-- The position in a list of `length` elements, counted from the end when negative. -/
def position? (s : Segment) (length : Nat) : Option Nat :=
  match s.number? with
  | none => none
  | some i =>
      let counted := if i < 0 then (length : Int) + i else i
      if 0 ≤ counted && counted < length then some counted.toNat else none

def text : Segment → String
  | .key name => name
  | .index i => toString i

end Segment

namespace Path

/-- The variable that a path starts at. -/
def root? (p : Path) : Option String := p.head?.map Segment.memberName

/-! ## Reading -/

/-- The text between two equal quotes, if it is quoted so. -/
def unquote? (quote : Char) (inner : List Char) : Option (List Char) :=
  match inner with
  | first :: rest =>
      if first = quote && rest.getLast? = some quote then some rest.dropLast else none
  | [] => none

/-- The segment that stands between brackets: a quoted name, an index, or a bare name. -/
def bracketed (inner : List Char) : Segment :=
  let inner := Text.trimBy Text.isBlank inner
  match unquote? '\'' inner, unquote? '"' inner with
  | some name, _ => .key (String.ofList name)
  | none, some name => .key (String.ofList name)
  | none, none =>
      let word := String.ofList inner
      match Decimal.signed64? word with
      | some i => .index i
      | none => .key word

/-- The segment of a name that was read so far, unless it is empty. -/
def named (name : List Char) : Path := if name.isEmpty then [] else [.key (String.ofList name)]

mutual

/-- Reads a path outside brackets; `name` is the name read so far. -/
def readName (name : List Char) : List Char → Path
  | [] => named name
  | c :: rest =>
      if c = '.' then named name ++ readName [] rest
      else if c = '[' then named name ++ readBracket [] rest
      else readName (name ++ [c]) rest

/-- Reads a path inside brackets. A bracket that is not closed ends with the text. -/
def readBracket (inner : List Char) : List Char → Path
  | [] => [bracketed inner]
  | c :: rest =>
      if c = ']' then bracketed inner :: readName [] rest
      else readBracket (inner ++ [c]) rest

end

/-- Reads a path. One `$` in front is ignored. -/
def ofChars : List Char → Path
  | '$' :: rest => readName [] rest
  | cs => readName [] cs

def parse (text : String) : Path := ofChars text.toList

/-! ## Writing -/

def laterText : Segment → String
  | .key name => "." ++ name
  | .index i => s!"[{i}]"

def display : Path → String
  | [] => ""
  | .key name :: rest => name ++ String.join (rest.map laterText)
  | .index i :: rest => laterText (.index i) ++ String.join (rest.map laterText)

end Path

end TabPilot
