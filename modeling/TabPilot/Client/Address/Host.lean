import TabPilot.Text.Split
import TabPilot.Wire.Json

set_option autoImplicit false

/-! # Hosts in URLs

Whether a text can be the host of a URL: a domain, an IPv4 address or, in brackets, an IPv6
address.
-/

namespace TabPilot.Address

inductive UrlFailure
  | noScheme
  | emptyHost
  | badDomain
  | badHostCharacter
  | badPort
  | badIpv4
  | badIpv6
  deriving Repr, DecidableEq

def UrlFailure.message : UrlFailure → String
  | .noScheme => "relative URL without a base"
  | .emptyHost => "empty host"
  | .badDomain => "invalid international domain name"
  | .badHostCharacter => "invalid domain character"
  | .badPort => "invalid port number"
  | .badIpv4 => "invalid IPv4 address"
  | .badIpv6 => "invalid IPv6 address"

def splitAt (c : Char) (cs : List Char) : List (List Char) := Text.splitOn [c] none cs

/-! ## IPv4 -/

/-- The value of digits in some base, if all are digits of that base. -/
def digitsIn? (base : Nat) (cs : List Char) : Option Nat :=
  cs.foldlM (fun n c =>
    (Wire.hexValue? c).bind fun d => if d < base then some (base * n + d) else none) 0

/-- The number that a part of an IPv4 address stands for, in base 8, 10 or 16. -/
def ipv4Number? (cs : List Char) : Option Nat :=
  match cs with
  | [] => none
  | '0' :: 'x' :: digits | '0' :: 'X' :: digits => digitsIn? 16 digits
  | '0' :: digit :: digits => digitsIn? 8 (digit :: digits)
  | digits => digitsIn? 10 digits

/-- The parts of a domain; one empty part at the end does not count. -/
def domainParts (domain : List Char) : List (List Char) :=
  let parts := splitAt '.' domain
  if parts.getLast? = some [] then parts.dropLast else parts

/-- Whether a domain is meant as an IPv4 address: its last part is a number. -/
def endsInNumber (domain : List Char) : Bool :=
  match (domainParts domain).getLast? with
  | some part => !part.isEmpty && (part.all Char.isDigit || (ipv4Number? part).isSome)
  | none => false

/-- Whether the numbers of an IPv4 address fit: one byte each, and the last one the bytes that
are left. -/
def fitsIpv4 (numbers : List Nat) : Bool :=
  match numbers.reverse with
  | [] => false
  | last :: others =>
      others.length < 4 && last < twoTo (8 * (4 - others.length)) && others.all (· < 256)

def isIpv4 (domain : List Char) : Bool :=
  match (domainParts domain).mapM ipv4Number? with
  | some numbers => fitsIpv4 numbers
  | none => false

/-! ## IPv6 -/

def isGroup (cs : List Char) : Bool :=
  !cs.isEmpty && cs.length ≤ 4 && cs.all fun c => (Wire.hexValue? c).isSome

/-- Whether a text is a decimal number of one byte without zeros before it. -/
def isByte (cs : List Char) : Bool :=
  !cs.isEmpty && cs.all Char.isDigit && (cs.length = 1 || cs.head? ≠ some '0')
    && Decimal.natOfDigits cs < 256

/-- Whether a text is an IPv4 address of four decimal numbers. -/
def isQuad (cs : List Char) : Bool :=
  let parts := splitAt '.' cs
  parts.length = 4 && parts.all isByte

/-- The number of groups that a text between colons stands for; the last one may be written as
four decimal numbers, which stand for two groups. -/
def groupCount? : List (List Char) → Option Nat
  | [] => some 0
  | [last] => if isGroup last then some 1 else if isQuad last then some 2 else none
  | part :: rest => if isGroup part then (groupCount? rest).map (· + 1) else none

/-- The number of groups in a part of an IPv6 address before or after a double colon. -/
def groupsIn? (cs : List Char) : Option Nat :=
  if cs.isEmpty then some 0 else groupCount? (splitAt ':' cs)

/-- Whether a text is an IPv6 address: eight groups, or fewer with a double colon for the others,
which stand before it without the short form for two. -/
def isIpv6 (cs : List Char) : Bool :=
  match Text.cutFirst? [':', ':'] cs with
  | none => groupsIn? cs = some 8
  | some (before, after) =>
      match groupsIn? before, groupsIn? after with
      | some m, some n => m + n ≤ 7 && !before.contains '.'
      | _, _ => false

/-! ## Hosts -/

/-- Whether a character may not stand in a host. -/
def isForbidden (c : Char) : Bool :=
  c = '\x00' || c = '\t' || c = '\n' || c = '\r' || " #/:<>?@[\\]^|".toList.contains c

def isForbiddenInDomain (c : Char) : Bool :=
  isForbidden c || c.toNat < 32 || c = '%' || c.toNat = 127 || c.toNat = 0xFFFD

/-- The byte that two hexadecimal digits stand for. -/
def hexByte? (bytes : List UInt8) : Option UInt8 :=
  match bytes with
  | high :: low :: _ =>
      match Wire.hexValue? (Char.ofNat high.toNat), Wire.hexValue? (Char.ofNat low.toNat) with
      | some h, some l => some (UInt8.ofNat (16 * h + l))
      | _, _ => none
  | _ => none

/-- The bytes of a text, with percent signs and the two digits after them decoded; `skipped`
bytes were decoded already. -/
def percentDecoded (skipped : Nat) : List UInt8 → List UInt8
  | [] => []
  | b :: rest =>
      match skipped with
      | skipped + 1 => percentDecoded skipped rest
      | 0 =>
          match if b = 0x25 then hexByte? rest else none with
          | some d => d :: percentDecoded 2 rest
          | none => b :: percentDecoded 0 rest

/-- What is wrong with a domain or an IPv4 address, if anything is. -/
def domainFailure? (host : List Char) : Option UrlFailure :=
  let bytes := percentDecoded 0 (String.ofList host).toUTF8.toList
  match String.fromUTF8? ⟨bytes.toArray⟩ with
  | none => some .badDomain
  | some decoded =>
      let domain := decoded.toList
      if domain.any isForbiddenInDomain then some .badDomain
      else if domain.isEmpty then some .emptyHost
      else if endsInNumber domain && !isIpv4 domain then some .badIpv4
      else none

/-- What is wrong with a host, if anything is; `special` says whether the scheme is one whose
hosts are domains. -/
def hostFailure? (special : Bool) (host : List Char) : Option UrlFailure :=
  match host with
  | '[' :: rest =>
      if rest.getLast? = some ']' && isIpv6 rest.dropLast then none else some .badIpv6
  | _ =>
      if special then domainFailure? host
      else if host.any isForbidden then some .badHostCharacter
      else none

end TabPilot.Address
