import TabPilot.Pattern.Syntax
import TabPilot.Word

set_option autoImplicit false

/-! # What a regular expression means

`Node` is a regular expression in which the flags have taken effect: only sets of characters,
conditions on a place, repetitions, choices and kept groups are left.
-/

namespace TabPilot.Pattern

/-- A condition on the place between two characters. -/
inductive Look
  | textStart | textEnd
  /-- After a line feed or at the start; with `crlf` a carriage return counts too. -/
  | lineStart (crlf : Bool)
  /-- Before a line feed or at the end; with `crlf` a carriage return counts too. -/
  | lineEnd (crlf : Bool)
  /-- The character before is one of words as said, and so is the one after. -/
  | words (unicode : Bool) (allowed : Bool → Bool → Bool)

inductive Node
  | empty
  | one (s : CharSet)
  | look (k : Look)
  | repeated (least : Nat) (most : Option Nat) (greedy : Bool) (n : Node)
  | capture (number : Nat) (n : Node)
  | sequence (ns : List Node)
  | alternatives (ns : List Node)

/-! ## From the tree -/

structure Flags where
  anyCase : Bool
  multiLine : Bool
  dotAll : Bool
  swapGreed : Bool
  unicode : Bool
  crlf : Bool

def Flags.set (f : Flags) : Flag → Bool → Flags
  | .anyCase, b => { f with anyCase := b }
  | .multiLine, b => { f with multiLine := b }
  | .dotAll, b => { f with dotAll := b }
  | .swapGreed, b => { f with swapGreed := b }
  | .unicode, b => { f with unicode := b }
  | .crlf, b => { f with crlf := b }
  | .verbose, _ => f

def Flags.change (f : Flags) (changes : FlagChanges) : Flags :=
  changes.foldl (fun f change => f.set change.1 change.2) f

/-- A set in all letter cases, if letter case is ignored. -/
def Flags.fold (f : Flags) (s : CharSet) : CharSet := if f.anyCase then .anyCase s else s

def signed (negated : Bool) (s : CharSet) : CharSet := if negated then .complement s else s

/-- The set of a letter class. Without Unicode it holds characters of ASCII, and its complement
would not be text. -/
def letterSet (f : Flags) (k : LetterClass) (negated : Bool) : Except Failure CharSet :=
  let s : CharSet :=
    match k, f.unicode with
    | .digit, true => CharSet.digits
    | .digit, false => CharSet.asciiDigits
    | .blank, true => CharSet.blanks
    | .blank, false => CharSet.asciiBlanks
    | .word, true => CharSet.wordChars
    | .word, false => CharSet.asciiWordChars
  if negated && !f.unicode then .error .notText else .ok (signed negated s)

def classSet (f : Flags) : ClassTree → Except Failure CharSet
  | .chars low high =>
      if !f.unicode && 128 ≤ high.toNat then .error .notText else .ok (CharSet.between low high)
  | .letter k negated => letterSet f k negated
  | .named s negated => .ok (signed negated (f.fold s))
  | .nested negated inner => (classSet f inner).map fun s => signed negated (f.fold s)
  | .none => .ok CharSet.none
  | .union a b =>
      match classSet f a, classSet f b with
      | .ok s, .ok t => .ok (.union s t)
      | .error e, _ => .error e
      | _, .error e => .error e
  | .op k a b =>
      match classSet f a, classSet f b with
      | .ok s, .ok t =>
          let s := f.fold s
          let t := f.fold t
          match k with
          | .intersection => .ok (.intersection s t)
          | .difference => .ok (.difference s t)
          | .symmetricDifference => .ok (.symmetricDifference s t)
      | .error e, _ => .error e
      | _, .error e => .error e

def dotSet (f : Flags) : CharSet :=
  if f.dotAll then CharSet.all
  else if f.crlf then .complement (.ranges [(10, 10), (13, 13)])
  else .complement (CharSet.single '\n')

def anchorLook (f : Flags) : Anchor → Look
  | .textStart => .textStart
  | .textEnd => .textEnd
  | .lineStart => if f.multiLine then .lineStart f.crlf else .textStart
  | .lineEnd => if f.multiLine then .lineEnd f.crlf else .textEnd
  | .boundary => .words f.unicode fun before after => before != after
  | .noBoundary => .words f.unicode fun before after => before == after
  | .wordStart => .words f.unicode fun before after => !before && after
  | .wordEnd => .words f.unicode fun before after => before && !after
  | .noWordBefore => .words f.unicode fun before _ => !before
  | .noWordAfter => .words f.unicode fun _ after => !after

mutual

/-- What a tree means under some flags, and the flags after it. -/
def Node.ofTree (f : Flags) : Tree → Except Failure (Node × Flags)
  | .empty => .ok (.empty, f)
  | .flags changes => .ok (.empty, f.change changes)
  | .literal c =>
      if !f.unicode && 128 ≤ c.toNat then .error .notText
      else .ok (.one (f.fold (CharSet.single c)), f)
  | .dot => if f.unicode then .ok (.one (dotSet f), f) else .error .notText
  | .anchor a => .ok (.look (anchorLook f a), f)
  | .letter k negated => (letterSet f k negated).map fun s => (.one s, f)
  | .named s negated =>
      if f.unicode then .ok (.one (signed negated (f.fold s)), f) else .error .notText
  | .bracketed negated inner =>
      match classSet f inner with
      | .error e => .error e
      | .ok s =>
          if negated && !f.unicode then .error .notText
          else .ok (.one (signed negated (f.fold s)), f)
  | .repeated least most greedy t =>
      (Node.ofTree f t).map fun (n, g) => (.repeated least most (greedy != f.swapGreed) n, g)
  | .group (.plain changes) t => (Node.ofTree (f.change changes) t).map fun (n, _) => (n, f)
  | .group (.capture number) t => (Node.ofTree f t).map fun (n, _) => (.capture number n, f)
  | .sequence ts => (Node.ofTrees f ts).map fun (ns, g) => (.sequence ns, g)
  | .alternatives ts => (Node.ofTrees f ts).map fun (ns, g) => (.alternatives ns, g)

def Node.ofTrees (f : Flags) : List Tree → Except Failure (List Node × Flags)
  | [] => .ok ([], f)
  | t :: ts =>
      match Node.ofTree f t with
      | .error e => .error e
      | .ok (n, g) => (Node.ofTrees g ts).map fun (ns, h) => (n :: ns, h)

end

/-! ## Size -/

mutual

def Node.nullable : Node → Bool
  | .empty => true
  | .one _ => false
  | .look _ => true
  | .repeated least _ _ n => least = 0 || n.nullable
  | .capture _ n => n.nullable
  | .sequence ns => Node.allNullable ns
  | .alternatives ns => Node.anyNullable ns

def Node.allNullable : List Node → Bool
  | [] => true
  | n :: ns => n.nullable && Node.allNullable ns

def Node.anyNullable : List Node → Bool
  | [] => false
  | n :: ns => n.nullable || Node.anyNullable ns

end

def stepBytes : Nat := 32

mutual

/-- About how many bytes the program of a node takes. -/
def Node.bytes : Node → Nat
  | .empty => stepBytes
  | .one s => stepBytes * max 1 s.weight
  | .look _ => stepBytes
  | .repeated least most _ n =>
      match most with
      | some most => most * (n.bytes + stepBytes) + stepBytes
      | none => (least + 1) * n.bytes + 2 * stepBytes
  | .capture _ n => n.bytes + 2 * stepBytes
  | .sequence ns => Node.bytesOfAll ns
  | .alternatives ns => Node.bytesOfAll ns + 2 * stepBytes

def Node.bytesOfAll : List Node → Nat
  | [] => 0
  | n :: ns => n.bytes + Node.bytesOfAll ns

end

/-- The most bytes that the program of a pattern may take. -/
def mostBytes : Nat := 10 * twoTo 20

end TabPilot.Pattern
