import TabPilot.Value.Basic
import TabPilot.Decimal.Reader

set_option autoImplicit false

/-! # Reading JSON

`readJson` reads a JSON text. Integers of 64 bits, signed or unsigned, stay integers; other
numbers are computed in binary64 from their first digits, as many as fit in 64 bits, and a power
of ten.
-/

namespace TabPilot.Wire

inductive JsonFailure
  | syntaxError
  | outOfRange
  | tooDeep
  deriving Repr, DecidableEq

def JsonFailure.message : JsonFailure → String
  | .syntaxError => "expected value"
  | .outOfRange => "number out of range"
  | .tooDeep => "recursion limit exceeded"

/-- The characters left after something was read. -/
abbrev Parsed (α : Type) : Type := Except JsonFailure (α × List Char)

def skipBlanks : List Char → List Char
  | c :: rest =>
      if c = ' ' || c = '\n' || c = '\t' || c = '\r' then skipBlanks rest else c :: rest
  | [] => []

/-! ## Numbers -/

/-- Reads digits into a number while it fits in 64 bits; the digits after that are counted and
dropped. -/
def significand (n dropped : Nat) (full : Bool) : List Char → Nat × Nat × Bool
  | [] => (n, dropped, full)
  | c :: rest =>
      let next := 10 * n + Decimal.digitValue c
      if full || Word.count ≤ next then significand n (dropped + 1) true rest
      else significand next dropped false rest

/-- `f` times a power of ten, in binary64, by steps that each stay within the powers that
binary64 holds; `none` if it is out of range. -/
def scale (steps : Nat) (f : Float) (exponent : Int) : Option Float :=
  if exponent.natAbs ≤ 308 then
    let power := Decimal.nearest 1 exponent.natAbs
    if 0 ≤ exponent then
      let r := f * power
      if Binary64.isFinite r then some r else none
    else some (f / power)
  else if f == 0.0 then some f
  else if 0 ≤ exponent then none
  else
    match steps with
    | 0 => some 0.0
    | steps + 1 => scale steps (f / Decimal.nearest 1 308) (exponent + 308)

/-- The exponent that digits stand for; beyond 32 bits it is as good as infinite. -/
def exponentOf (digits : List Char) : Nat := min (Decimal.natOfDigits digits) (twoTo 31)

/-- The value of a number: its sign, its digits before and after the point, and its exponent. -/
def numberValue (negative : Bool) (whole fraction : List Char)
    (exponent : Option (Bool × List Char)) : Except JsonFailure Value :=
  let signed (f : Float) : Value := .float (if negative then -f else f)
  let (n, dropped, full) := significand 0 0 false whole
  if fraction.isEmpty && exponent.isNone && !full then
    if !negative then .ok (.int n)
    else if n = 0 then .ok (.float (-0.0))
    else if (n : Int) ≤ Word.signedLimit then .ok (.int (-(n : Int)))
    else .ok (signed (Binary64.ofInt n))
  else
    let (m, ignored, _) := significand n 0 false fraction
    let shift : Int := (dropped : Int) + ignored - fraction.length
    match exponent with
    | none =>
        match scale 8 (Binary64.ofInt m) shift with
        | some f => .ok (signed f)
        | none => .error .outOfRange
    | some (down, digits) =>
        if twoTo 31 ≤ exponentOf digits then
          if m ≠ 0 && !down then .error .outOfRange else .ok (signed 0.0)
        else
          let e : Int := if down then shift - exponentOf digits else shift + exponentOf digits
          match scale 8 (Binary64.ofInt m) e with
          | some f => .ok (signed f)
          | none => .error .outOfRange

/-- Reads the digits of a fraction after its point. -/
def fractionOf (cs : List Char) : Except JsonFailure (List Char × List Char) :=
  match cs with
  | '.' :: rest =>
      let digits := rest.takeWhile Char.isDigit
      if digits.isEmpty then .error .syntaxError else .ok (digits, rest.drop digits.length)
  | _ => .ok ([], cs)

def exponentPart (cs : List Char) : Except JsonFailure (Option (Bool × List Char) × List Char) :=
  match cs with
  | c :: rest =>
      if c = 'e' || c = 'E' then
        let (negative, rest) :=
          match rest with
          | '-' :: rest => (true, rest)
          | '+' :: rest => (false, rest)
          | rest => (false, rest)
        let digits := rest.takeWhile Char.isDigit
        if digits.isEmpty then .error .syntaxError
        else .ok (some (negative, digits), rest.drop digits.length)
      else .ok (none, c :: rest)
  | [] => .ok (none, [])

/-- Reads a number. A zero at the front stands alone. -/
def number (negative : Bool) (cs : List Char) : Parsed Value :=
  let digits := cs.takeWhile Char.isDigit
  let rest := cs.drop digits.length
  if digits.isEmpty || (1 < digits.length && digits.head? = some '0') then .error .syntaxError
  else
    match fractionOf rest with
    | .error e => .error e
    | .ok (fraction, rest) =>
        match exponentPart rest with
        | .error e => .error e
        | .ok (exponent, rest) =>
            (numberValue negative digits fraction exponent).map fun v => (v, rest)

/-! ## Strings -/

def hexValue? (c : Char) : Option Nat :=
  if c.isDigit then some (c.toNat - 48)
  else if 'a' ≤ c && c ≤ 'f' then some (c.toNat - 87)
  else if 'A' ≤ c && c ≤ 'F' then some (c.toNat - 55)
  else none

/-- The number that four hexadecimal digits stand for, and the rest. -/
def unit? (cs : List Char) : Option (Nat × List Char) :=
  match cs with
  | a :: b :: c :: d :: rest =>
      match hexValue? a, hexValue? b, hexValue? c, hexValue? d with
      | some a, some b, some c, some d => some (4096 * a + 256 * b + 16 * c + d, rest)
      | _, _, _, _ => none
  | _ => none

/-- The character of an escape `\u`: one unit, or two that are a surrogate pair. -/
def unicodeEscape? (cs : List Char) : Option (Char × List Char) :=
  match unit? cs with
  | none => none
  | some (n, rest) =>
      if 0xDC00 ≤ n && n ≤ 0xDFFF then none
      else if 0xD800 ≤ n && n ≤ 0xDBFF then
        match rest with
        | '\\' :: 'u' :: rest =>
            match unit? rest with
            | some (m, rest) =>
                if 0xDC00 ≤ m && m ≤ 0xDFFF then
                  some (Char.ofNat (0x10000 + (n - 0xD800) * 0x400 + (m - 0xDC00)), rest)
                else none
            | none => none
        | _ => none
      else some (Char.ofNat n, rest)

/-- The character that a backslash and the character after it stand for. -/
def shortEscape? : Char → Option Char
  | '"' => some '"'
  | '\\' => some '\\'
  | '/' => some '/'
  | 'b' => some '\x08'
  | 'f' => some '\x0c'
  | 'n' => some '\n'
  | 'r' => some '\r'
  | 't' => some '\t'
  | _ => none

/-- Reads a string after its opening quote; `done` holds its characters in reverse order. Every
step takes a character, so the length of the text bounds the number of steps. -/
def stringBody (fuel : Nat) (done : List Char) (cs : List Char) : Parsed String :=
  match fuel with
  | 0 => .error .syntaxError
  | fuel + 1 =>
      match cs with
      | [] => .error .syntaxError
      | '"' :: rest => .ok (String.ofList done.reverse, rest)
      | '\\' :: 'u' :: rest =>
          match unicodeEscape? rest with
          | some (c, rest) => stringBody fuel (c :: done) rest
          | none => .error .syntaxError
      | '\\' :: e :: rest =>
          match shortEscape? e with
          | some c => stringBody fuel (c :: done) rest
          | none => .error .syntaxError
      | c :: rest => if c.toNat < 32 then .error .syntaxError else stringBody fuel (c :: done) rest

/-! ## Values -/

mutual

/-- Reads a value with at most `depth` levels of brackets. -/
def value (fuel depth : Nat) (cs : List Char) : Parsed Value :=
  match fuel with
  | 0 => .error .syntaxError
  | fuel + 1 =>
      match skipBlanks cs with
      | 'n' :: 'u' :: 'l' :: 'l' :: rest => .ok (.null, rest)
      | 't' :: 'r' :: 'u' :: 'e' :: rest => .ok (.bool true, rest)
      | 'f' :: 'a' :: 'l' :: 's' :: 'e' :: rest => .ok (.bool false, rest)
      | '-' :: rest => number true rest
      | '"' :: rest => (stringBody fuel [] rest).map fun (s, rest) => (.string s, rest)
      | '[' :: rest =>
          match depth with
          | 0 => .error .tooDeep
          | depth + 1 =>
              match skipBlanks rest with
              | ']' :: rest => .ok (.array [], rest)
              | _ => (elements fuel depth rest).map fun (vs, rest) => (.array vs, rest)
      | '\x7b' :: rest =>
          match depth with
          | 0 => .error .tooDeep
          | depth + 1 =>
              match skipBlanks rest with
              | '\x7d' :: rest => .ok (.object Record.empty, rest)
              | _ => (members fuel depth rest).map fun (ms, rest) => (.ofMembers ms, rest)
      | cs => number false cs

def elements (fuel depth : Nat) (cs : List Char) : Parsed (List Value) :=
  match fuel with
  | 0 => .error .syntaxError
  | fuel + 1 =>
      match value fuel depth cs with
      | .error e => .error e
      | .ok (v, rest) =>
          match skipBlanks rest with
          | ',' :: rest => (elements fuel depth rest).map fun (vs, rest) => (v :: vs, rest)
          | ']' :: rest => .ok ([v], rest)
          | _ => .error .syntaxError

def members (fuel depth : Nat) (cs : List Char) : Parsed (List (String × Value)) :=
  match fuel with
  | 0 => .error .syntaxError
  | fuel + 1 =>
      match skipBlanks cs with
      | '"' :: rest =>
          match stringBody fuel [] rest with
          | .error e => .error e
          | .ok (name, rest) =>
              match skipBlanks rest with
              | ':' :: rest =>
                  match value fuel depth rest with
                  | .error e => .error e
                  | .ok (v, rest) =>
                      match skipBlanks rest with
                      | ',' :: rest =>
                          (members fuel depth rest).map fun (ms, rest) => ((name, v) :: ms, rest)
                      | '\x7d' :: rest => .ok ([(name, v)], rest)
                      | _ => .error .syntaxError
              | _ => .error .syntaxError
      | _ => .error .syntaxError

end

def deepest : Nat := 127

def readJson (cs : List Char) : Except JsonFailure Value :=
  match value (2 * cs.length + 2) deepest cs with
  | .error e => .error e
  | .ok (v, rest) => if (skipBlanks rest).isEmpty then .ok v else .error .syntaxError

end TabPilot.Wire
