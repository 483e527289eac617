import TabPilot.Pattern.CharSet

set_option autoImplicit false

/-! # The tree of a regular expression

A regular expression as it is written, before its flags take effect.
-/

namespace TabPilot.Pattern

/-- The flags that change what parts of a pattern mean. -/
inductive Flag
  | anyCase | multiLine | dotAll | swapGreed | unicode | crlf | verbose
  deriving Repr, DecidableEq

abbrev FlagChanges : Type := List (Flag × Bool)

inductive LetterClass
  | digit | blank | word
  deriving Repr, DecidableEq

inductive SetOp
  | intersection | difference | symmetricDifference
  deriving Repr, DecidableEq

inductive ClassTree
  | chars (low high : Char)
  | letter (k : LetterClass) (negated : Bool)
  | named (s : CharSet) (negated : Bool)
  | nested (negated : Bool) (inner : ClassTree)
  | none
  | union (a b : ClassTree)
  | op (k : SetOp) (a b : ClassTree)

/-- The conditions on a place between two characters. -/
inductive Anchor
  | textStart | textEnd | lineStart | lineEnd | boundary | noBoundary
  | wordStart | wordEnd | noWordBefore | noWordAfter
  deriving Repr, DecidableEq

/-- How a group is kept: not at all, or under a number and perhaps a name. -/
inductive GroupKind
  | plain (changes : FlagChanges)
  | capture (number : Nat)

inductive Tree
  | empty
  | flags (changes : FlagChanges)
  | literal (c : Char)
  | dot
  | anchor (a : Anchor)
  | letter (k : LetterClass) (negated : Bool)
  | named (s : CharSet) (negated : Bool)
  | bracketed (negated : Bool) (inner : ClassTree)
  | repeated (least : Nat) (most : Option Nat) (greedy : Bool) (t : Tree)
  | group (k : GroupKind) (t : Tree)
  | sequence (ts : List Tree)
  | alternatives (ts : List Tree)

def Tree.ofSequence : List Tree → Tree
  | [] => .empty
  | [t] => t
  | ts => .sequence ts

def Tree.ofAlternatives : List Tree → Tree
  | [t] => t
  | ts => .alternatives ts

def ClassTree.depth : ClassTree → Nat
  | .nested _ inner => inner.depth + 1
  | .union a b => max a.depth b.depth
  | .op _ a b => max a.depth b.depth + 1
  | _ => 0

mutual

def Tree.depth : Tree → Nat
  | .bracketed _ inner => inner.depth + 1
  | .repeated _ _ _ t => t.depth + 1
  | .group _ t => t.depth + 1
  | .sequence ts => Tree.depthOfAll ts + 1
  | .alternatives ts => Tree.depthOfAll ts + 1
  | _ => 0

def Tree.depthOfAll : List Tree → Nat
  | [] => 0
  | t :: ts => max t.depth (Tree.depthOfAll ts)

end

/-! ## What can be wrong with a pattern -/

/-- Why a text is not a regular expression that can be used. -/
inductive Failure
  | openClass | openGroup | closedGroup | noOperand | badCount | badEscape | badRange
  | badGroupName | repeatedName | badFlag | lookAround | badClassName | badCharacter
  | tooDeep | notText
  | tooLarge
  deriving Repr, DecidableEq

def Failure.reason : Failure → String
  | .openClass => "unclosed character class"
  | .openGroup => "unclosed group"
  | .closedGroup => "unopened group"
  | .noOperand => "repetition operator missing expression"
  | .badCount => "invalid repetition count"
  | .badEscape => "unrecognized escape sequence"
  | .badRange => "invalid character class range"
  | .badGroupName => "invalid capture group name"
  | .repeatedName => "duplicate capture group name"
  | .badFlag => "unrecognized flag"
  | .lookAround => "look-around, including look-ahead and look-behind, is not supported"
  | .badClassName => "Unicode property not found"
  | .badCharacter => "not a Unicode scalar value"
  | .tooDeep => "exceeded the maximum number of nested parentheses/brackets (250)"
  | .notText => "pattern can match invalid UTF-8"
  | .tooLarge => "Compiled regex exceeds size limit of 10485760 bytes."

def Failure.message (source : String) : Failure → String
  | .tooLarge => Failure.tooLarge.reason
  | e => "regex parse error:\n    " ++ source ++ "\nerror: " ++ e.reason

end TabPilot.Pattern
