import TabPilot.Decimal.Binary64

set_option autoImplicit false

/-! # Reading decimal numbers

`nearest` is the binary64 number nearest to `± digits · 10 ^ exponent`. `float?` and
`signed64?` read whole texts; `float?` also knows the names of the infinities and of what is
not a number.
-/

namespace TabPilot.Decimal

def digitValue (c : Char) : Nat := c.toNat - '0'.toNat

def natOfDigits (cs : List Char) : Nat := cs.foldl (fun n c => 10 * n + digitValue c) 0

def infinity : Float := Float.ofBits 0x7FF0000000000000

/-- The binary64 number nearest to `digits · 10 ^ exponent`. Numbers far beyond either end of
the range are decided by their size alone. -/
def nearest (digits : Nat) (exponent : Int) : Float :=
  let size := exponent + (Nat.toDigits 10 digits).length
  if digits = 0 then 0.0
  else if 400 < size then infinity
  else if size < -400 then 0.0
  else Float.ofScientific digits (decide (exponent < 0)) exponent.natAbs

/-- A decimal text taken apart: digits before the point, after it, and the exponent. -/
structure Numeral where
  whole : List Char
  fraction : List Char
  exponent : Int

def Numeral.toFloat (n : Numeral) : Float :=
  nearest (natOfDigits (n.whole ++ n.fraction)) (n.exponent - n.fraction.length)

def takeSign : List Char → Bool × List Char
  | '-' :: rest => (true, rest)
  | '+' :: rest => (false, rest)
  | cs => (false, cs)

/-- The exponent that ends a numeral: nothing, or `e` with an optional sign and digits. -/
def exponent? : List Char → Option Int
  | [] => some 0
  | c :: rest =>
      if c = 'e' || c = 'E' then
        let (negative, digits) := takeSign rest
        if !digits.isEmpty && digits.all Char.isDigit then
          some (if negative then -(natOfDigits digits : Int) else natOfDigits digits)
        else none
      else none

/-- Reads an unsigned numeral that fills the whole text. There is a digit on one side of the
point at least. -/
def numeral? (cs : List Char) : Option Numeral :=
  let whole := cs.takeWhile Char.isDigit
  let rest := cs.dropWhile Char.isDigit
  let (fraction, rest) :=
    match rest with
    | '.' :: rest => (rest.takeWhile Char.isDigit, rest.dropWhile Char.isDigit)
    | _ => ([], rest)
  if whole.isEmpty && fraction.isEmpty then none
  else (exponent? rest).map fun e => ⟨whole, fraction, e⟩

/-- Lower case for the letters of ASCII only. -/
def asciiLower (s : String) : String := s.map Char.toLower

/-- Reads a binary64 number that fills the whole text. -/
def float? (text : String) : Option Float :=
  let (negative, cs) := takeSign text.toList
  let name := (String.ofList cs).map Char.toLower
  let magnitude :=
    if name = "inf" || name = "infinity" then some infinity
    else if name = "nan" then some (Float.ofBits 0x7FF8000000000000)
    else (numeral? cs).map Numeral.toFloat
  magnitude.map fun f => if negative then -f else f

/-- Reads a signed 64-bit integer that fills the whole text: an optional sign and at least one
digit. -/
def signed64? (text : String) : Option Int :=
  let (negative, cs) := takeSign text.toList
  if cs.isEmpty || !cs.all Char.isDigit then none
  else
    Word.inSigned? (if negative then -(natOfDigits cs : Int) else natOfDigits cs)

end TabPilot.Decimal
