import TabPilot.Decimal.Binary64

set_option autoImplicit false

/-! # The shortest decimal digits of a binary64 number

`shortest` finds the fewest decimal digits that read back as a given number, and among those
of that length the ones nearest to it. A decimal reads back as the number when it lies in the
interval of reals that round to it, ends included exactly when the mantissa is even. For each
length in turn only the two decimals of that length on either side of the number are tried:
if any decimal of a length lies in the interval, so does one of these two.
-/

namespace TabPilot.Decimal

open Binary64 (Parts)

/-- The decimal `digits · 10 ^ exponent`. -/
structure Digits where
  digits : Nat
  exponent : Int
  deriving Repr, DecidableEq

/-- A positive rational number and the interval around it that rounds to it, over one
denominator. -/
structure Target where
  low : Nat
  value : Nat
  high : Nat
  denominator : Nat
  closed : Bool

/-- The rounding interval of a positive number. Below a power of two the gap is half as
wide. -/
def Target.ofParts (p : Parts) : Target :=
  let narrow := p.mantissa = twoTo 52 && -1074 < p.exponent
  let scale := if 2 ≤ p.exponent then twoTo (p.exponent - 2).toNat else 1
  { low := (4 * p.mantissa - (if narrow then 1 else 2)) * scale
    value := 4 * p.mantissa * scale
    high := (4 * p.mantissa + 2) * scale
    denominator := if 2 ≤ p.exponent then 1 else twoTo (2 - p.exponent).toNat
    closed := p.mantissa % 2 = 0 }

def tenTo (exponent : Nat) : Nat := Nat.pow 10 exponent

def digitCount (n : Nat) : Nat := (Nat.toDigits 10 n).length

/-- The decimal exponent of the first digit of `value / denominator`. -/
def Target.leading (t : Target) : Int :=
  if t.denominator ≤ t.value then (digitCount (t.value / t.denominator) : Int) - 1
  else
    let count := digitCount (t.denominator / t.value)
    if t.value * tenTo (count - 1) = t.denominator then 1 - (count : Int) else -(count : Int)

/-- `a · 10 ^ e` and `b`, both multiplied by the power of ten that makes them natural. -/
def alignTen (a : Nat) (e : Int) (b : Nat) : Nat × Nat :=
  if 0 ≤ e then (a * tenTo e.toNat, b) else (a, b * tenTo (-e).toNat)

/-- Whether `candidate · 10 ^ e` rounds to the number. -/
def Target.admits (t : Target) (candidate : Nat) (e : Int) : Bool :=
  let (c, low) := alignTen (candidate * t.denominator) e t.low
  let (_, high) := alignTen 0 e t.high
  if t.closed then low ≤ c && c ≤ high else low < c && c < high

/-- How far `candidate · 10 ^ e` is from the number, in a unit common to all candidates. -/
def Target.distance (t : Target) (candidate : Nat) (e : Int) : Nat :=
  let (c, v) := alignTen (candidate * t.denominator) e t.value
  if v ≤ c then c - v else v - c

/-- The nearest decimal on the grid `10 ^ e` that rounds to the number, if there is one. An
exact tie goes to the even candidate. -/
def Target.onGrid (t : Target) (e : Int) : Option Digits :=
  let (scaled, unit) := alignTen t.denominator e t.value
  let below := unit / scaled
  let above := below + 1
  match t.admits below e, t.admits above e with
  | false, false => none
  | true, false => some ⟨below, e⟩
  | false, true => some ⟨above, e⟩
  | true, true =>
      let toBelow := t.distance below e
      let toAbove := t.distance above e
      if toBelow < toAbove || (toBelow = toAbove && below % 2 = 0) then some ⟨below, e⟩
      else some ⟨above, e⟩

/-- Drops the zeros at the end of the digits. -/
def Digits.trim (d : Digits) : Digits :=
  let zeros := ((Nat.toDigits 10 d.digits).reverse.takeWhile (· = '0')).length
  if d.digits = 0 then d else ⟨d.digits / tenTo zeros, d.exponent + zeros⟩

/-- The fewest digits that read back as a positive number with these parts. Seventeen always
suffice, so the last case is never taken. -/
def shortest (p : Parts) : Digits :=
  let t := Target.ofParts p
  let tries := (List.range 17).map fun (n : Nat) => t.leading - n
  match tries.findSome? t.onGrid with
  | some d => d.trim
  | none => ⟨t.value / t.denominator, 0⟩

end TabPilot.Decimal
