import TabPilot.Word

set_option autoImplicit false

/-! # Exact views of a binary64 number

A finite `Float` is `± mantissa · 2 ^ exponent` with a natural mantissa; `parts` reads the
three from its bits. Everything below (whether a number is whole, its floor, its whole part)
is computed from that view in exact arithmetic.
-/

namespace TabPilot.Binary64

/-- A finite number written as `± mantissa · 2 ^ exponent`. -/
structure Parts where
  negative : Bool
  mantissa : Nat
  exponent : Int
  deriving Repr, DecidableEq

def isNegative (f : Float) : Bool := f.toBits.toNat / twoTo 63 = 1

/-- The parts of a finite number; `none` for infinities and for what is not a number. -/
def parts (f : Float) : Option Parts :=
  let bits := f.toBits.toNat
  let fraction : Nat := bits % twoTo 52
  let biased : Nat := bits / twoTo 52 % twoTo 11
  if biased = 2047 then none
  else if biased = 0 then some ⟨isNegative f, fraction, -1074⟩
  else some ⟨isNegative f, fraction + twoTo 52, (biased : Int) - 1075⟩

def isFinite (f : Float) : Bool := (parts f).isSome

/-- Whether `mantissa · 2 ^ exponent` is a whole number. -/
def Parts.isWhole (p : Parts) : Bool :=
  0 ≤ p.exponent || p.mantissa % twoTo (-p.exponent).toNat = 0

/-- The magnitude with everything after the point dropped. -/
def Parts.magnitude (p : Parts) : Nat :=
  if 0 ≤ p.exponent then p.mantissa * twoTo p.exponent.toNat
  else p.mantissa / twoTo (-p.exponent).toNat

/-- The number with everything after the point dropped. -/
def Parts.truncate (p : Parts) : Int :=
  if p.negative then -(p.magnitude : Int) else p.magnitude

/-- The greatest whole number that is not above the number. -/
def Parts.floor (p : Parts) : Int :=
  if p.negative && !p.isWhole then p.truncate - 1 else p.truncate

/-- The number nearest to an integer of 64 bits, signed or unsigned. -/
def ofInt (i : Int) : Float :=
  if i < 0 then -(UInt64.ofNat i.natAbs).toFloat else (UInt64.ofNat i.natAbs).toFloat

/-- The greatest whole number that is not above `f`, again as a binary64 number. A number of
magnitude `2 ^ 53` or more is whole already. -/
def floor (f : Float) : Float :=
  match parts f with
  | none => f
  | some p => if p.isWhole then f else ofInt p.floor

/-- The whole part of `f`, held within the signed 64-bit range; zero for what is not a
number. -/
def clampToInt64 (f : Float) : Int :=
  match parts f with
  | some p => max (-Word.signedLimit) (min (Word.signedLimit - 1) p.truncate)
  | none =>
      if f.toBits.toNat % twoTo 52 ≠ 0 then 0
      else if isNegative f then -Word.signedLimit else Word.signedLimit - 1

/-- The integer equal to `f`, if `f` is whole and of magnitude at most `2 ^ 53`, the range in
which binary64 holds every integer. -/
def exactInt? (f : Float) : Option Int :=
  match parts f with
  | some p => if p.isWhole && p.magnitude ≤ twoTo 53 then some p.truncate else none
  | none => none

end TabPilot.Binary64
