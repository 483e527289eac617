import TabPilot.Decimal.Shortest

set_option autoImplicit false

/-! # How a binary64 number is written

`Layout` holds the choices that a notation makes about the shortest digits of a number: where
positional notation ends, whether a whole number keeps its point, and how an exponent looks.
`number` is the notation of values everywhere in the library, `plain` the notation of number
tokens in messages about scripts.
-/

namespace TabPilot.Decimal

/-- The choices of a notation for binary64 numbers. -/
structure Layout where
  /-- The exponents of the first digit that are written positionally. -/
  positional : Int → Bool
  /-- Whether a whole number is written with `.0`. -/
  wholePoint : Bool

/-- Values: positional from `0.00001` up to sixteen digits before the point, otherwise an
exponent with its sign; whole numbers keep `.0`. -/
def Layout.number : Layout := ⟨fun e => -5 ≤ e && e ≤ 15, true⟩

/-- Number tokens: always positional, whole numbers without a point. -/
def Layout.plain : Layout := ⟨fun _ => true, false⟩

def positionalText (wholePoint : Bool) (digits : List Char) (exponent : Int) : List Char :=
  if 0 ≤ exponent then
    digits ++ List.replicate exponent.toNat '0' ++ (if wholePoint then ['.', '0'] else [])
  else
    let places := (-exponent).toNat
    if places < digits.length then
      digits.take (digits.length - places) ++ '.' :: digits.drop (digits.length - places)
    else ['0', '.'] ++ List.replicate (places - digits.length) '0' ++ digits

/-- Digits written with the exponent of the first one. -/
def scientificText (digits : List Char) (leading : Int) : List Char :=
  let fraction := if digits.length ≤ 1 then [] else '.' :: digits.drop 1
  let mark := if leading < 0 then ['e', '-'] else ['e', '+']
  digits.take 1 ++ fraction ++ mark ++ Nat.toDigits 10 leading.natAbs

def Layout.magnitudeText (layout : Layout) (p : Binary64.Parts) : List Char :=
  if p.mantissa = 0 then (if layout.wholePoint then ['0', '.', '0'] else ['0'])
  else
    let d := shortest p
    let digits := Nat.toDigits 10 d.digits
    let leading := d.exponent + digits.length - 1
    if layout.positional leading then positionalText layout.wholePoint digits d.exponent
    else scientificText digits leading

/-- The text of a number; infinities are `inf` and `-inf`. -/
def Layout.text (layout : Layout) (f : Float) : String :=
  match Binary64.parts f with
  | some p =>
      String.ofList ((if p.negative then ['-'] else []) ++ layout.magnitudeText p)
  | none =>
      if f.toBits.toNat % twoTo 52 ≠ 0 then "NaN"
      else if Binary64.isNegative f then "-inf" else "inf"

end TabPilot.Decimal
