import TabPilot.Pattern.Read
import TabPilot.Pattern.Program

set_option autoImplicit false

/-! # Regular expressions

`Pattern.compile` reads a regular expression. A pattern is found anywhere in a text, the leftmost
match first; `replace` puts a text in place of matches, in which `$1` and `$name` stand for the
groups of the match.
-/

namespace TabPilot

structure Pattern where
  program : Array Pattern.Step
  names : List (String × Nat)

namespace Pattern

/-- The flags that hold at the start of a pattern. -/
def plainFlags : Flags := ⟨false, false, false, false, true, false⟩

/-- Makes a regular expression that starts with the given flags. -/
def compileWith (flags : Flags) (source : String) : Except Failure Pattern :=
  match Reading.ofText source with
  | .error e => .error e
  | .ok reading =>
      match Node.ofTree flags reading.tree with
      | .error e => .error e
      | .ok (node, _) =>
          if mostBytes < node.bytes then .error .tooLarge
          else .ok ⟨(Node.capture 0 node).code.toArray, reading.names⟩

def compile (source : String) : Except Failure Pattern := compileWith plainFlags source

/-- Makes the regular expression of a literal: it has to match at the start of the text, and its
flags may make it ignore letter case, let anchors match at lines, and let a dot match line
feeds. -/
def compileLiteral (source flags : String) : Except Failure Pattern :=
  let has (c : Char) : Bool := flags.toList.contains c
  compileWith { plainFlags with anyCase := has 'i', multiLine := has 'm', dotAll := has 's' }
    ("\\A(?:" ++ source ++ ")")

/-- A match: where it starts and ends, and the places of its groups. -/
structure Match where
  start : Nat
  stop : Nat
  slots : Slots

def findFrom? (p : Pattern) (text : Array Char) (start : Nat) : Option Match :=
  match search p.program text start with
  | none => none
  | some slots => some ⟨(slots.lookup 0).getD 0, (slots.lookup 1).getD 0, slots⟩

def matchesIn (p : Pattern) (text : String) : Bool :=
  (p.findFrom? text.toList.toArray 0).isSome

/-- Whether the leftmost match of a pattern in a text stands at its start. -/
def matchesAtStart (p : Pattern) (text : String) : Bool :=
  match p.findFrom? text.toList.toArray 0 with
  | some m => m.start = 0
  | none => false

/-! ## All matches -/

/-- The next match after one that ended at `lastEnd`: not an empty match right where the last
match ended. -/
def findNext? (p : Pattern) (text : Array Char) (start : Nat) (lastEnd : Option Nat) :
    Option Match :=
  match p.findFrom? text start with
  | none => none
  | some m =>
      if m.start = m.stop && lastEnd = some m.stop then
        if text.size < start + 1 then none else p.findFrom? text (start + 1)
      else some m

/-- The matches from a place on, one after the other; `fuel` bounds their number. -/
def findAllFrom (p : Pattern) (text : Array Char) (fuel start : Nat) (lastEnd : Option Nat) :
    List Match :=
  match fuel with
  | 0 => []
  | fuel + 1 =>
      match p.findNext? text start lastEnd with
      | none => []
      | some m => m :: findAllFrom p text fuel m.stop (some m.stop)

def findAll (p : Pattern) (text : Array Char) : List Match :=
  p.findAllFrom text (text.size + 2) 0 none

/-! ## Replacing -/

def groupText (text : Array Char) (m : Match) (number : Nat) : List Char :=
  match m.slots.lookup (2 * number), m.slots.lookup (2 * number + 1) with
  | some a, some b => (text.extract a b).toList
  | _, _ => []

def groupNumber? (p : Pattern) (name : List Char) : Option Nat :=
  let digits :=
    match name with
    | '+' :: rest => rest
    | cs => cs
  let n := Decimal.natOfDigits digits
  if !digits.isEmpty && digits.all Char.isDigit && n < Word.count then some n
  else p.names.lookup (String.ofList name)

/-- Whether a character may stand in a group's name after a dollar sign. -/
def isReferenceChar (c : Char) : Bool := c.isAlphanum || c = '_'

/-- The name of the group that stands after a dollar sign, and how many characters it takes. -/
def reference? (cs : List Char) : Option (List Char × Nat) :=
  match cs with
  | '\x7b' :: rest =>
      let name := rest.takeWhile (· ≠ '\x7d')
      if name.length < rest.length then some (name, name.length + 2) else none
  | _ =>
      let name := cs.takeWhile isReferenceChar
      if name.isEmpty then none else some (name, name.length)

/-- A replacement with the groups of a match filled in; `skipped` characters belong to a
reference that was filled in already. -/
def expand (p : Pattern) (text : Array Char) (m : Match) (skipped : Nat) : List Char → List Char
  | [] => []
  | c :: rest =>
      match skipped with
      | skipped + 1 => expand p text m skipped rest
      | 0 =>
          if c ≠ '$' then c :: expand p text m 0 rest
          else if rest.head? = some '$' then '$' :: expand p text m 1 rest
          else
            match reference? rest with
            | none => '$' :: expand p text m 0 rest
            | some (name, width) =>
                ((p.groupNumber? name).elim [] (groupText text m)) ++ expand p text m width rest

/-- The text from a place on, with the given matches replaced. -/
def replaceFrom (p : Pattern) (text : Array Char) (replacement : List Char) (start : Nat) :
    List Match → List Char
  | [] => (text.extract start text.size).toList
  | m :: rest =>
      (text.extract start m.start).toList ++ p.expand text m 0 replacement ++
        replaceFrom p text replacement m.stop rest

/-- A text with its matches replaced: all of them, or the first ones. -/
def replace (p : Pattern) (text replacement : String) (count : Option Nat) : String :=
  let cs := text.toList.toArray
  let found := p.findAll cs
  let found :=
    match count with
    | some n => found.take n
    | none => found
  String.ofList (p.replaceFrom cs replacement.toList 0 found)

end Pattern

end TabPilot
