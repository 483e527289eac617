import TabPilot.Text.Split
import TabPilot.Decimal.Reader

set_option autoImplicit false

/-! # Request lines and headers

A connection is opened with an HTTP request. Its target is stricter than a URL: no character that
ought to be encoded may stand in it.
-/

namespace TabPilot.Address

inductive RequestFailure
  | badChar
  | badAuthority
  | badFormat
  | tooLong
  | longScheme
  deriving Repr, DecidableEq

def RequestFailure.message : RequestFailure → String
  | .badChar => "invalid uri character"
  | .badAuthority => "invalid authority"
  | .badFormat => "invalid format"
  | .tooLong => "uri too long"
  | .longScheme => "scheme too long"

/-- The target of a request: its scheme as it is written, and its authority. -/
structure RequestTarget where
  scheme : Option (List Char)
  authority : List Char

/-! ## The authority -/

/-- Whether a character may stand in the authority of a target. -/
def isTargetChar (c : Char) : Bool :=
  c.isAlphanum || "!#$&'()*+,-./:;=?@[]_~".toList.contains c

/-- What was seen of an authority: the colons since the last bracket or at sign, whether brackets
were opened and closed, and whether there is a percent sign since then. -/
structure AuthorityScan where
  colons : Nat
  opened : Bool
  closed : Bool
  percent : Bool

/-- Goes through an authority, up to the character that ends it. -/
def scanAuthority (s : AuthorityScan) : List Char → Except RequestFailure AuthorityScan
  | [] => .ok s
  | c :: rest =>
      if c = ':' then
        if 8 ≤ s.colons then .error .badAuthority
        else scanAuthority { s with colons := s.colons + 1 } rest
      else if c = '[' then
        if s.percent || s.opened then .error .badAuthority
        else scanAuthority { s with opened := true } rest
      else if c = ']' then
        if !s.opened || s.closed then .error .badAuthority
        else scanAuthority { s with closed := true, colons := 0, percent := false } rest
      else if c = '@' then scanAuthority { s with colons := 0, percent := false } rest
      else if c = '%' then scanAuthority { s with percent := true } rest
      else if isTargetChar c then scanAuthority s rest
      else .error .badChar

def takeAuthority (cs : List Char) : Except RequestFailure (List Char) :=
  let authority := cs.takeWhile fun c => c ≠ '/' && c ≠ '?' && c ≠ '#'
  match scanAuthority ⟨0, false, false, false⟩ authority with
  | .error e => .error e
  | .ok s =>
      if s.opened != s.closed || 1 < s.colons || authority.getLast? = some '@' || s.percent then
        .error .badAuthority
      else .ok authority

/-! ## The path -/

/-- Whether a character may stand in the path of a target. -/
def isPathChar (c : Char) : Bool :=
  127 ≤ c.toNat || (32 < c.toNat && !"#<>?\x60".toList.contains c)

/-- Whether a character may stand in the query of a target. -/
def isQueryChar (c : Char) : Bool := 127 ≤ c.toNat || (32 < c.toNat && !"\"#<>".toList.contains c)

/-- Whether a text is a path and perhaps a query; a fragment is not looked at. -/
def isPathAndQuery (cs : List Char) : Bool :=
  let path := cs.takeWhile fun c => c ≠ '?' && c ≠ '#'
  let query := (cs.drop path.length).takeWhile fun c => c ≠ '#'
  path.all isPathChar && query.tail.all isQueryChar

/-! ## The target -/

/-- The scheme at the start of a text and its length with what separates it from the rest. -/
def takeScheme (cs : List Char) : Except RequestFailure (Option (List Char)) :=
  let scheme := cs.takeWhile fun c => c.isAlphanum || c = '+' || c = '-' || c = '.'
  match cs.drop scheme.length with
  | ':' :: '/' :: '/' :: _ =>
      if 64 < scheme.length then .error .longScheme else .ok (some scheme)
  | _ => .ok none

def longestTarget : Nat := 65534

def RequestTarget.ofText (text : String) : Except RequestFailure RequestTarget := do
  if longestTarget < text.utf8ByteSize then throw .tooLong
  let cs := text.toList
  let scheme ← takeScheme cs
  let rest :=
    match scheme with
    | some scheme => cs.drop (scheme.length + 3)
    | none => cs
  let authority ← takeAuthority rest
  if scheme.isNone then
    if authority.length = rest.length then return ⟨none, authority⟩ else throw .badFormat
  else if authority.isEmpty then throw .badFormat
  else if isPathAndQuery (rest.drop authority.length) then return ⟨scheme, authority⟩
  else throw .badChar

/-- The port to connect to: the one written, or the usual one of the scheme. -/
def RequestTarget.port? (t : RequestTarget) : Option Nat :=
  let written :=
    match Text.cutLast? [':'] t.authority with
    | some (_, digits) =>
        let n := Decimal.natOfDigits digits
        if !digits.isEmpty && digits.all Char.isDigit && n < twoTo 16 then some n else none
    | none => none
  let usual :=
    match t.scheme with
    | some ['w', 's'] => some 80
    | some ['w', 's', 's'] => some 443
    | _ => none
  written.or usual

/-! ## Headers -/

def isHeaderName (name : String) : Bool :=
  let cs := name.toList
  !cs.isEmpty && cs.length < twoTo 16
    && cs.all fun c => c.isAlphanum || "!#$%&'*+-.^_\x60|~".toList.contains c

def isHeaderValue (value : String) : Bool :=
  value.toList.all fun c => (32 ≤ c.toNat && c.toNat < 127) || c = '\t'

end TabPilot.Address
