import TabPilot.Script.Misreading
import TabPilot.Decimal.Reader
import TabPilot.Text.Letter
import TabPilot.Text.Blank

set_option autoImplicit false

/-! # Lexemes

`Lexeme.leading` reads the token that a text starts with and says how many characters it takes.
Each kind of token has a reader of its own, a function on the characters that follow.
-/

namespace TabPilot

/-- A token read from the front of a text, and the number of characters it takes. -/
structure Lexeme where
  kind : TokenKind
  width : Nat

/-- A misreading and how far into the text it lies. -/
structure Lexeme.Failure where
  cause : Misreading
  offset : Nat

namespace Lexeme

def isWordChar (c : Char) : Bool := c = '_' || Text.isLetterOrNumeral c

def startsWord (c : Char) : Bool := c = '_' || Text.isLetter c

def word (cs : List Char) : List Char := cs.takeWhile isWordChar

/-- The blanks within a line. -/
def isGap (c : Char) : Bool := c = ' ' || c = '\t' || c = '\r'

/-! ## Strings -/

/-- What a backslash and the character after it stand for. Between double quotes there are
escapes for line feed, tab and carriage return; an unknown escape stands for itself. -/
def unescape (quote e : Char) : List Char :=
  if e = quote || e = '\\' then [e]
  else if quote = '"' && e = 'n' then ['\n']
  else if quote = '"' && e = 't' then ['\t']
  else if quote = '"' && e = 'r' then ['\r']
  else ['\\', e]

/-- Reads up to and including the closing quote: the text and the number of characters. -/
def quoted? (quote : Char) : List Char → Option (List Char × Nat)
  | [] => none
  | c :: rest =>
      if c = quote then some ([], 1)
      else if c = '\\' then
        match rest with
        | [] => none
        | e :: rest => (quoted? quote rest).map fun (text, n) => (unescape quote e ++ text, n + 2)
      else (quoted? quote rest).map fun (text, n) => (c :: text, n + 1)

/-! ## Numbers -/

/-- The characters of a fraction: a point and at least one digit. -/
def fraction : List Char → List Char
  | '.' :: d :: rest => if d.isDigit then '.' :: d :: rest.takeWhile Char.isDigit else []
  | _ => []

/-- The characters of an exponent: `e`, an optional sign and at least one digit. -/
def exponent : List Char → List Char
  | e :: rest =>
      if e = 'e' || e = 'E' then
        match rest with
        | s :: d :: more =>
            if (s = '+' || s = '-') && d.isDigit then e :: s :: d :: more.takeWhile Char.isDigit
            else if s.isDigit then e :: s :: (d :: more).takeWhile Char.isDigit
            else []
        | [d] => if d.isDigit then [e, d] else []
        | [] => []
      else []
  | [] => []

/-- Reads a number. After the dot of an accessor only digits count, so that `.0.1` is two
indices. -/
def number (afterDot : Bool) (cs : List Char) : Except Failure Lexeme :=
  let digits := cs.takeWhile Char.isDigit
  let tail := cs.drop digits.length
  let part := if afterDot then [] else fraction tail
  let power := if afterDot then [] else exponent (tail.drop part.length)
  let text := digits ++ part ++ power
  let invalid : Failure := ⟨.badNumber (String.ofList text), 0⟩
  if part.isEmpty && power.isEmpty then
    match Decimal.signed64? (String.ofList text) with
    | some i => .ok ⟨.int i, text.length⟩
    | none => .error invalid
  else
    match Decimal.float? (String.ofList text) with
    | some f => .ok ⟨.float f, text.length⟩
    | none => .error invalid

/-! ## Texts over several lines -/

/-- Whether nothing but blanks stands before the end of the line. -/
def lineEnds (cs : List Char) : Bool := (cs.dropWhile isGap).head? = some '\n'

def indentation (cs : List Char) : Nat := (cs.takeWhile fun c => c = ' ' || c = '\t').length

/-- Whether the word `end` stands here. -/
def closes (cs : List Char) : Bool :=
  ['e', 'n', 'd'].isPrefixOf cs && ((cs.drop 3).head?.all fun c => !isWordChar c)

/-- The lines up to the closing one, the indentation of that one, and the number of characters
up to the end of the word that closes. -/
def heredocLines? (cs : List Char) : Option (List (List Char) × Nat × Nat) :=
  match cs with
  | [] => none
  | c :: rest =>
      let indent := indentation (c :: rest)
      if closes ((c :: rest).drop indent) then some ([], indent, indent + 3)
      else
        let line := (c :: rest).takeWhile (· ≠ '\n')
        (heredocLines? (rest.drop line.length)).map fun (lines, indent, n) =>
          (Text.trimEndBy (· = '\r') line :: lines, indent, line.length + 1 + n)
  termination_by cs.length
  decreasing_by simp only [List.length_drop, List.length_cons]; omega

/-- A line without up to `width` leading blanks. -/
def dedent (width : Nat) (line : List Char) : List Char :=
  line.drop (((line.take width).takeWhile fun c => c = ' ' || c = '\t').length)

def joinLines : List (List Char) → List Char
  | [] => []
  | [line] => line
  | line :: rest => line ++ '\n' :: joinLines rest

/-- Reads what follows `begin`: the rest of that line, and the lines up to the word `end`. -/
def heredoc (cs : List Char) : Except Failure Lexeme :=
  let heading := (cs.takeWhile (· ≠ '\n')).length + 1
  match heredocLines? (cs.drop heading) with
  | some (lines, indent, n) =>
      .ok ⟨.text (String.ofList (joinLines (lines.map (dedent indent)))) true, heading + n⟩
  | none => .error ⟨.openHeredoc, 0⟩

/-! ## Regular expressions -/

/-- Reads up to and including the closing slash: the pattern and the number of characters. Only
a slash can be escaped here; every other escape is the pattern's own. -/
def slashed? : List Char → Option (List Char × Nat)
  | [] => none
  | c :: rest =>
      if c = '/' then some ([], 1)
      else if c = '\n' then none
      else if c = '\\' then
        match rest with
        | [] => none
        | e :: rest =>
            (slashed? rest).map fun (text, n) =>
              (if e = '/' then '/' :: text else '\\' :: e :: text, n + 2)
      else (slashed? rest).map fun (text, n) => (c :: text, n + 1)

def isFlag (c : Char) : Bool := ['i', 'l', 'm', 's', 'u'].contains c

def pattern (cs : List Char) : Except Failure Lexeme :=
  match slashed? cs with
  | none => .error ⟨.openPattern, 0⟩
  | some (source, n) =>
      let letters := (cs.drop n).takeWhile Char.isAlpha
      match letters.find? fun c => !isFlag c with
      | some c => .error ⟨.badFlag c, 1 + n + (letters.takeWhile isFlag).length⟩
      | none =>
          .ok ⟨.pattern (String.ofList source) (String.ofList letters), 1 + n + letters.length⟩

/-! ## Any token -/

/-- Whether a token is an operator that compares with a pattern. -/
def wantsPattern : Option TokenKind → Bool
  | some (.symbol .matches) | some (.symbol .unmatches) => true
  | _ => false

def isDot : Option TokenKind → Bool
  | some (.symbol .dot) => true
  | _ => false

/-- Reads the token at the front of `c :: rest`, where `previous` is the token before it. -/
def leading (previous : Option TokenKind) (c : Char) (rest : List Char) :
    Except Failure Lexeme :=
  if c = '$' then
    let name := word rest
    if name.isEmpty then .error ⟨.noVariableName, 1⟩
    else .ok ⟨.variable (String.ofList name), 1 + name.length⟩
  else if c = '"' || c = '\'' then
    match quoted? c rest with
    | some (text, n) => .ok ⟨.text (String.ofList text) (c = '"'), 1 + n⟩
    | none => .error ⟨.openString, 0⟩
  else if c.isDigit then number (isDot previous) (c :: rest)
  else if startsWord c then
    let name := word (c :: rest)
    let tail := (c :: rest).drop name.length
    if String.ofList name = "begin" && lineEnds tail then
      (heredoc tail).map fun l => { l with width := name.length + l.width }
    else .ok ⟨.word (String.ofList name), name.length⟩
  else if c = '/' && wantsPattern previous then pattern rest
  else
    match Symbol.leading? (c :: rest) with
    | some s => .ok ⟨.symbol s, s.text.length⟩
    | none => .error ⟨.badCharacter c, 0⟩

end Lexeme

end TabPilot
