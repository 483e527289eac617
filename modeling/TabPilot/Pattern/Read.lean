import TabPilot.Pattern.Syntax
import TabPilot.Decimal.Reader

set_option autoImplicit false

/-! # Reading regular expressions

The first argument of the functions that call one another bounds how deep they may go; the
wrapper `Reading.ofText` gives them the length of the pattern, of which every call takes a
character.
-/

namespace TabPilot.Pattern

/-- Where the reader is: the characters left, the number of groups so far, their names, and
whether blanks and comments are ignored. -/
structure Cursor where
  rest : List Char
  groups : Nat
  names : List (String × Nat)
  verbose : Bool

namespace Cursor

/-- The text of a comment and blanks dropped, as far as blanks are ignored. -/
def skipBlanks (inComment : Bool) : List Char → List Char
  | [] => []
  | c :: rest =>
      if inComment then skipBlanks (c ≠ '\n') rest
      else if Text.isBlank c then skipBlanks false rest
      else if c = '#' then skipBlanks true rest
      else c :: rest

/-- Goes on to the next character that counts. -/
def skip (cur : Cursor) : Cursor :=
  if cur.verbose then { cur with rest := skipBlanks false cur.rest } else cur

def moveTo (cur : Cursor) (rest : List Char) : Cursor := { cur with rest }

end Cursor

/-! ## Numbers, names and escapes -/

/-- Reads a decimal number of 32 bits with blanks around it. -/
def decimal? (cs : List Char) : Option (Nat × List Char) :=
  let cs := cs.dropWhile Text.isBlank
  let digits := cs.takeWhile Char.isDigit
  let n := Decimal.natOfDigits digits
  if digits.isEmpty || twoTo 32 ≤ n then none
  else some (n, (cs.drop digits.length).dropWhile Text.isBlank)

def hexValue? (c : Char) : Option Nat :=
  if c.isDigit then some (c.toNat - 48)
  else if 'a' ≤ c && c ≤ 'f' then some (c.toNat - 87)
  else if 'A' ≤ c && c ≤ 'F' then some (c.toNat - 55)
  else none

/-- The character whose code point is written in hexadecimal digits. -/
def hexChar? (digits : List Char) : Option Char :=
  if digits.isEmpty then none
  else
    (digits.foldl (fun n c => n.bind fun n => (hexValue? c).map fun d => 16 * n + d)
      (some 0)).bind fun n => if n.isValidChar then some (Char.ofNat n) else none

/-- Reads the code point after `\x`, `\u` or `\U`, given by so many digits or in braces. -/
def hexEscape? (width : Nat) (cs : List Char) : Option (Char × List Char) :=
  match cs with
  | '\x7b' :: rest =>
      let digits := rest.takeWhile (· ≠ '\x7d')
      let after := rest.drop digits.length
      if after.isEmpty then none else (hexChar? digits).map fun c => (c, after.drop 1)
  | _ =>
      if cs.length < width then none
      else (hexChar? (cs.take width)).map fun c => (c, cs.drop width)

/-- Splits a text at the first place where a mark stands. -/
def splitAt? (mark : List Char) : List Char → Option (List Char × List Char)
  | [] => none
  | c :: rest =>
      if mark.isPrefixOf (c :: rest) then some ([], (c :: rest).drop mark.length)
      else (splitAt? mark rest).map fun (before, after) => (c :: before, after)

/-- The set that the name in `\p` stands for, and whether the name itself negates. -/
def propertySet? (name : List Char) : Option (CharSet × Bool) :=
  match splitAt? ['!', '='] name, splitAt? [':'] name, splitAt? ['='] name with
  | some (property, value), _, _ => (CharSet.valued? property value).map fun s => (s, true)
  | none, some (property, value), _ => (CharSet.valued? property value).map fun s => (s, false)
  | none, none, some (property, value) =>
      (CharSet.valued? property value).map fun s => (s, false)
  | none, none, none => (CharSet.named? name).map fun s => (s, false)

def property? (cs : List Char) : Option ((CharSet × Bool) × List Char) :=
  match cs with
  | '\x7b' :: rest =>
      let name := rest.takeWhile (· ≠ '\x7d')
      let after := rest.drop name.length
      if after.isEmpty then none else (propertySet? name).map fun s => (s, after.drop 1)
  | c :: rest => (propertySet? [c]).map fun s => (s, rest)
  | [] => none

/-- The word boundaries whose name stands in braces. -/
def namedBoundary? (cs : List Char) : Option (Except Failure (Anchor × List Char)) :=
  match cs with
  | '\x7b' :: rest =>
      let inner := rest.dropWhile Text.isBlank
      let name := inner.takeWhile fun c => c.isAlpha || c = '-'
      let after := (inner.drop name.length).dropWhile Text.isBlank
      if name.isEmpty then none
      else
        match after with
        | '\x7d' :: after =>
            match String.ofList name with
            | "start" => some (.ok (.wordStart, after))
            | "end" => some (.ok (.wordEnd, after))
            | "start-half" => some (.ok (.noWordBefore, after))
            | "end-half" => some (.ok (.noWordAfter, after))
            | _ => some (.error .badEscape)
        | _ => some (.error .badEscape)
  | _ => none

/-- Whether a backslash before the character makes it stand for itself. -/
def isEscapable (c : Char) : Bool :=
  c.toNat < 128 && !c.isAlphanum && c ≠ '<' && c ≠ '>'

def escape (cs : List Char) : Except Failure (Tree × List Char) :=
  match cs with
  | [] => .error .badEscape
  | c :: rest =>
      if isEscapable c then .ok (.literal c, rest)
      else
        match c with
        | 'x' => ofChar (hexEscape? 2 rest)
        | 'u' => ofChar (hexEscape? 4 rest)
        | 'U' => ofChar (hexEscape? 8 rest)
        | 'p' => ofProperty false (property? rest)
        | 'P' => ofProperty true (property? rest)
        | 'd' => .ok (.letter .digit false, rest)
        | 'D' => .ok (.letter .digit true, rest)
        | 's' => .ok (.letter .blank false, rest)
        | 'S' => .ok (.letter .blank true, rest)
        | 'w' => .ok (.letter .word false, rest)
        | 'W' => .ok (.letter .word true, rest)
        | 'a' => .ok (.literal '\x07', rest)
        | 'f' => .ok (.literal '\x0c', rest)
        | 't' => .ok (.literal '\t', rest)
        | 'n' => .ok (.literal '\n', rest)
        | 'r' => .ok (.literal '\r', rest)
        | 'v' => .ok (.literal '\x0b', rest)
        | 'A' => .ok (.anchor .textStart, rest)
        | 'z' => .ok (.anchor .textEnd, rest)
        | 'B' => .ok (.anchor .noBoundary, rest)
        | '<' => .ok (.anchor .wordStart, rest)
        | '>' => .ok (.anchor .wordEnd, rest)
        | 'b' =>
            match namedBoundary? rest with
            | some r => r.map fun (a, rest) => (.anchor a, rest)
            | none => .ok (.anchor .boundary, rest)
        | _ => .error .badEscape
where
  ofChar : Option (Char × List Char) → Except Failure (Tree × List Char)
    | some (c, rest) => .ok (.literal c, rest)
    | none => .error .badCharacter
  ofProperty (negated : Bool) :
      Option ((CharSet × Bool) × List Char) → Except Failure (Tree × List Char)
    | some ((s, inner), rest) => .ok (.named s (negated != inner), rest)
    | none => .error .badClassName

/-! ## Classes in brackets -/

def classItem (cs : List Char) : Except Failure (Tree × List Char) :=
  match cs with
  | [] => .error .openClass
  | '\\' :: rest => escape rest
  | c :: rest => .ok (.literal c, rest)

def classPart : Tree → Except Failure ClassTree
  | .literal c => .ok (.chars c c)
  | .letter k negated => .ok (.letter k negated)
  | .named s negated => .ok (.named s negated)
  | _ => .error .badEscape

/-- Reads a character, a class or a range inside brackets. -/
def classRange (cur : Cursor) : Except Failure (ClassTree × Cursor) :=
  match classItem cur.rest with
  | .error e => .error e
  | .ok (first, rest) =>
      let cur := (cur.moveTo rest).skip
      match cur.rest with
      | [] => .error .openClass
      | '-' :: rest =>
          let after := ((cur.moveTo rest).skip).rest
          if after.head? = some ']' || after.head? = some '-' then
            (classPart first).map fun part => (part, cur)
          else
            match classItem after with
            | .error e => .error e
            | .ok (last, rest) =>
                match first, last with
                | .literal low, .literal high =>
                    if low ≤ high then .ok (.chars low high, cur.moveTo rest)
                    else .error .badRange
                | _, _ => .error .badRange
      | _ => (classPart first).map fun part => (part, cur)

/-- Reads `[:name:]`, if it stands here. -/
def asciiClass? (cs : List Char) : Option (ClassTree × List Char) :=
  match cs with
  | '[' :: ':' :: rest =>
      let negated := rest.head? = some '^'
      let rest := if negated then rest.drop 1 else rest
      match splitAt? [':', ']'] rest with
      | some (name, after) =>
          (CharSet.asciiClass? (String.ofList name)).map fun s => (.named s negated, after)
      | none => none
  | _ => none

/-- Reads the hyphens that may open a class. -/
def openingHyphens (cs : List Char) : Nat := (cs.takeWhile (· = '-')).length

mutual

/-- Reads a class after its opening bracket, up to and including the closing one. -/
def classBody (fuel : Nat) (cur : Cursor) : Except Failure (ClassTree × Cursor) :=
  match fuel with
  | 0 => .error .tooDeep
  | fuel + 1 =>
      let cur := cur.skip
      let negated := cur.rest.head? = some '^'
      let cur := if negated then (cur.moveTo (cur.rest.drop 1)).skip else cur
      let (start, cur) :=
        match cur.rest with
        | '-' :: _ =>
            (ClassTree.chars '-' '-', (cur.moveTo (cur.rest.drop (openingHyphens cur.rest))).skip)
        | ']' :: rest => (.chars ']' ']', (cur.moveTo rest).skip)
        | _ => (.none, cur)
      (classItems fuel none start cur).map fun (inner, cur) => (.nested negated inner, cur)

/-- Reads the items of a class; `before` is what stands before the last set operator. -/
def classItems (fuel : Nat) (before : Option (SetOp × ClassTree)) (items : ClassTree)
    (cur : Cursor) : Except Failure (ClassTree × Cursor) :=
  match fuel with
  | 0 => .error .tooDeep
  | fuel + 1 =>
      let cur := cur.skip
      let closed :=
        match before with
        | some (k, left) => .op k left items
        | none => items
      match cur.rest with
      | [] => .error .openClass
      | ']' :: rest => .ok (closed, cur.moveTo rest)
      | '&' :: '&' :: rest => classItems fuel (some (.intersection, closed)) .none (cur.moveTo rest)
      | '-' :: '-' :: rest => classItems fuel (some (.difference, closed)) .none (cur.moveTo rest)
      | '~' :: '~' :: rest =>
          classItems fuel (some (.symmetricDifference, closed)) .none (cur.moveTo rest)
      | '[' :: rest =>
          match asciiClass? ('[' :: rest) with
          | some (part, rest) => classItems fuel before (.union items part) (cur.moveTo rest)
          | none =>
              match classBody fuel (cur.moveTo rest) with
              | .error e => .error e
              | .ok (part, cur) => classItems fuel before (.union items part) cur
      | _ =>
          match classRange cur with
          | .error e => .error e
          | .ok (part, cur) => classItems fuel before (.union items part) cur

end

/-! ## Groups and repetitions -/

def flag? : Char → Option Flag
  | 'i' => some .anyCase
  | 'm' => some .multiLine
  | 's' => some .dotAll
  | 'U' => some .swapGreed
  | 'u' => some .unicode
  | 'R' => some .crlf
  | 'x' => some .verbose
  | _ => none

def flagChanges (on : Bool) (justNegated : Bool) (done : FlagChanges) :
    List Char → Except Failure (FlagChanges × List Char)
  | [] => .error .badFlag
  | c :: rest =>
      if c = ':' || c = ')' then if justNegated then .error .badFlag else .ok (done, c :: rest)
      else if c = '-' then
        if on then flagChanges false true done rest else .error .badFlag
      else
        match flag? c with
        | none => .error .badFlag
        | some f =>
            if done.any fun change => change.1 = f then .error .badFlag
            else flagChanges on false (done ++ [(f, on)]) rest

/-- Whether a character may stand in the name of a group. -/
def isGroupChar (first : Bool) (c : Char) : Bool :=
  if first then c = '_' || Text.isLetter c
  else ['_', '.', '[', ']'].contains c || Text.isLetterOrNumeral c

def groupName (cs : List Char) : Except Failure (String × List Char) :=
  let name := cs.takeWhile (· ≠ '>')
  let after := cs.drop name.length
  let good :=
    match name with
    | [] => false
    | c :: rest => isGroupChar true c && rest.all (isGroupChar false)
  if good && !after.isEmpty then .ok (String.ofList name, after.drop 1) else .error .badGroupName

/-- What an opening parenthesis opens: a group, or flags for the rest of the group around it. -/
inductive Opening
  | group (k : GroupKind)
  | flags (changes : FlagChanges)

/-- Whether flags switch the ignoring of blanks. -/
def verboseAfter (before : Bool) (changes : FlagChanges) : Bool :=
  ((changes.find? fun change => change.1 = .verbose).map Prod.snd).getD before

def openCapture (name : Option String) (cur : Cursor) : Except Failure (Opening × Cursor) :=
  let number := cur.groups + 1
  match name with
  | none => .ok (.group (.capture number), { cur with groups := number })
  | some name =>
      if (cur.names.lookup name).isSome then .error .repeatedName
      else
        .ok (.group (.capture number),
          { cur with groups := number, names := cur.names ++ [(name, number)] })

/-- Reads what follows an opening parenthesis. -/
def opening (cur : Cursor) : Except Failure (Opening × Cursor) :=
  let named (rest : List Char) : Except Failure (Opening × Cursor) :=
    match groupName rest with
    | .error e => .error e
    | .ok (name, rest) => openCapture (some name) (cur.moveTo rest)
  match cur.rest with
  | '?' :: '=' :: _ | '?' :: '!' :: _ | '?' :: '<' :: '=' :: _ | '?' :: '<' :: '!' :: _ =>
      .error .lookAround
  | '?' :: 'P' :: '<' :: rest => named rest
  | '?' :: '<' :: rest => named rest
  | '?' :: rest =>
      match flagChanges true false [] rest with
      | .error e => .error e
      | .ok (changes, rest) =>
          let cur := { cur with rest := rest.drop 1, verbose := verboseAfter cur.verbose changes }
          if rest.head? = some ')' then
            if changes.isEmpty then .error .noOperand else .ok (.flags changes, cur)
          else .ok (.group (.plain changes), cur)
  | _ => openCapture none cur

/-- Reads the bounds of a repetition after the opening brace, up to the closing one. -/
def counts (cs : List Char) : Except Failure ((Nat × Option Nat) × List Char) :=
  match decimal? cs with
  | none => .error .badCount
  | some (least, '\x7d' :: rest) => .ok ((least, some least), rest)
  | some (least, ',' :: rest) =>
      match rest.dropWhile Text.isBlank with
      | '\x7d' :: rest => .ok ((least, none), rest)
      | _ =>
          match decimal? rest with
          | some (most, '\x7d' :: rest) =>
              if least ≤ most then .ok ((least, some most), rest) else .error .badCount
          | _ => .error .badCount
  | some _ => .error .badCount

/-- The part that a repetition repeats, taken off the parts read so far. -/
def operand? : List Tree → Option (Tree × List Tree)
  | .empty :: _ => none
  | .flags _ :: _ => none
  | t :: done => some (t, done)
  | [] => none

def repeatLast (least : Nat) (most : Option Nat) (done : List Tree) (cur : Cursor) :
    Except Failure (List Tree × Cursor) :=
  match operand? done with
  | none => .error .noOperand
  | some (t, done) =>
      match cur.rest with
      | '?' :: rest => .ok (.repeated least most false t :: done, cur.moveTo rest)
      | _ => .ok (.repeated least most true t :: done, cur)

mutual

/-- Reads alternatives up to the end of the group around them or of the pattern; `done` holds
the alternatives so far and `parts` those of the present one, both in reverse order. -/
def alternatives (fuel : Nat) (done parts : List Tree) (cur : Cursor) :
    Except Failure (Tree × Cursor) :=
  match fuel with
  | 0 => .error .tooDeep
  | fuel + 1 =>
      let cur := cur.skip
      let closed := .ofSequence parts.reverse :: done
      match cur.rest with
      | [] => .ok (.ofAlternatives closed.reverse, cur)
      | ')' :: _ => .ok (.ofAlternatives closed.reverse, cur)
      | '|' :: rest => alternatives fuel closed [] (cur.moveTo rest)
      | '(' :: rest =>
          match groupOrFlags fuel ((cur.moveTo rest).skip) with
          | .error e => .error e
          | .ok (t, cur) => alternatives fuel done (t :: parts) cur
      | '[' :: rest =>
          match classBody fuel (cur.moveTo rest) with
          | .ok (.nested negated inner, cur) =>
              alternatives fuel done (.bracketed negated inner :: parts) cur
          | .ok (inner, cur) => alternatives fuel done (.bracketed false inner :: parts) cur
          | .error e => .error e
      | '?' :: rest => again fuel done (repeatLast 0 (some 1) parts (cur.moveTo rest))
      | '*' :: rest => again fuel done (repeatLast 0 none parts (cur.moveTo rest))
      | '+' :: rest => again fuel done (repeatLast 1 none parts (cur.moveTo rest))
      | '\x7b' :: rest =>
          if (operand? parts).isNone then .error .noOperand
          else
            match counts rest with
            | .error e => .error e
            | .ok ((least, most), rest) =>
                again fuel done (repeatLast least most parts ((cur.moveTo rest).skip))
      | '\\' :: rest =>
          match escape rest with
          | .error e => .error e
          | .ok (t, rest) => alternatives fuel done (t :: parts) (cur.moveTo rest)
      | '.' :: rest => alternatives fuel done (.dot :: parts) (cur.moveTo rest)
      | '^' :: rest => alternatives fuel done (.anchor .lineStart :: parts) (cur.moveTo rest)
      | '$' :: rest => alternatives fuel done (.anchor .lineEnd :: parts) (cur.moveTo rest)
      | c :: rest => alternatives fuel done (.literal c :: parts) (cur.moveTo rest)

def again (fuel : Nat) (done : List Tree) (repetition : Except Failure (List Tree × Cursor)) :
    Except Failure (Tree × Cursor) :=
  match fuel with
  | 0 => .error .tooDeep
  | fuel + 1 =>
      match repetition with
      | .error e => .error e
      | .ok (parts, cur) => alternatives fuel done parts cur

/-- Reads what follows an opening parenthesis, up to and including the closing one. -/
def groupOrFlags (fuel : Nat) (cur : Cursor) : Except Failure (Tree × Cursor) :=
  match fuel with
  | 0 => .error .tooDeep
  | fuel + 1 =>
      match opening cur with
      | .error e => .error e
      | .ok (.flags changes, cur) => .ok (.flags changes, cur)
      | .ok (.group k, inner) =>
          match alternatives fuel [] [] inner with
          | .error e => .error e
          | .ok (t, after) =>
              match after.rest with
              | ')' :: rest => .ok (.group k t, { after with rest, verbose := cur.verbose })
              | _ => .error .openGroup

end

/-- How deep a pattern may be nested. -/
def deepest : Nat := 250

structure Reading where
  tree : Tree
  groups : Nat
  names : List (String × Nat)

def Reading.ofText (source : String) : Except Failure Reading :=
  let cs := source.toList
  match alternatives (4 * cs.length + 4) [] [] ⟨cs, 0, [], false⟩ with
  | .error e => .error e
  | .ok (t, cur) =>
      if !cur.rest.isEmpty then .error .closedGroup
      else if deepest < t.depth then .error .tooDeep
      else .ok ⟨t, cur.groups, cur.names⟩

end TabPilot.Pattern
