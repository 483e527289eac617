set_option autoImplicit false

/-! # Words

Powers of two, and the integers of 64 bits: a word holds an unsigned integer below `Word.count`,
or a signed one from `-Word.signedLimit` on and below `Word.signedLimit`. `Word.ofSigned` and
`Word.toSigned` go from one reading of a word to the other.
-/

namespace TabPilot

def twoTo (exponent : Nat) : Nat := Nat.pow 2 exponent

namespace Word

/-- The number of words of 64 bits, and the first integer that does not fit in one. -/
def count : Nat := 0x10000000000000000

/-- The first integer beyond the signed range. -/
def signedLimit : Int := 0x8000000000000000

def inSigned? (i : Int) : Option Int :=
  if -signedLimit ≤ i && i < signedLimit then some i else none

/-- The unsigned integer with the bits of a signed one. -/
def ofSigned (i : Int) : Nat := (i % count).toNat

/-- The signed integer with the bits of an unsigned one. -/
def toSigned (n : Nat) : Int := if (n : Int) < signedLimit then n else (n : Int) - count

end Word

end TabPilot
