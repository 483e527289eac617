import TabPilot.Client.Address.Host

set_option autoImplicit false

/-! # URLs

`schemeOf` reads a text as an absolute URL and gives its scheme. The text is read as far as it can
be wrong: the scheme, and the host and the port if there are any.
-/

namespace TabPilot.Address

/-- What a scheme says about what follows it. -/
inductive SchemeKind
  /-- A host and a path. -/
  | special
  /-- A path, and a host only of another machine. -/
  | file
  /-- Anything. -/
  | other
  deriving Repr, DecidableEq

def SchemeKind.of (scheme : String) : SchemeKind :=
  if ["http", "https", "ws", "wss", "ftp"].contains scheme then .special
  else if scheme = "file" then .file
  else .other

def endsAuthority (special : Bool) (c : Char) : Bool :=
  c = '/' || c = '?' || c = '#' || (special && c = '\\')

/-- The host at the start of a text: up to a colon that is not in brackets. -/
def takeHost (special inBrackets : Bool) : List Char → List Char
  | [] => []
  | c :: rest =>
      if endsAuthority special c || (c = ':' && !inBrackets) then []
      else c :: takeHost special (c = '[' || (c ≠ ']' && inBrackets)) rest

/-- Whether a text starts with a port and nothing else before the path. -/
def isPort (cs : List Char) : Bool :=
  let digits := cs.takeWhile Char.isDigit
  let after := cs.drop digits.length
  Decimal.natOfDigits digits < twoTo 16 && (after.head?.all (endsAuthority true))

/-- What is wrong with the host and the port after it; `named` says whether a user's name stands
before it. -/
def hostAndPortFailure? (special named : Bool) (cs : List Char) : Option UrlFailure :=
  let host := takeHost special false cs
  let after := cs.drop host.length
  if host.isEmpty && (special || named || after.head? = some ':') then some .emptyHost
  else
    match hostFailure? special host with
    | some e => some e
    | none =>
        match after with
        | ':' :: port => if isPort port then none else some .badPort
        | _ => none

/-- What is wrong with what follows the slashes: a user's name, a host and a port. -/
def authorityFailure? (special : Bool) (cs : List Char) : Option UrlFailure :=
  let authority := cs.takeWhile fun c => !endsAuthority special c
  match Text.cutLast? ['@'] authority with
  | none => hostAndPortFailure? special false cs
  | some (user, _) =>
      let rest := cs.drop (user.length + 1)
      if user.isEmpty && rest.head?.any (endsAuthority special) then some .emptyHost
      else hostAndPortFailure? special (user ≠ [] && user ≠ [':']) rest

def isDrive (cs : List Char) : Bool :=
  match cs with
  | [letter, mark] => letter.isAlpha && (mark = ':' || mark = '|')
  | _ => false

def fileFailure? (cs : List Char) : Option UrlFailure :=
  match cs with
  | a :: b :: rest =>
      if (a = '/' || a = '\\') && (b = '/' || b = '\\') then
        let host := rest.takeWhile fun c => !endsAuthority true c
        if host.isEmpty || isDrive host then none else hostFailure? true host
      else none
  | _ => none

def restFailure? (kind : SchemeKind) (cs : List Char) : Option UrlFailure :=
  match kind with
  | .special => authorityFailure? true (cs.dropWhile fun c => c = '/' || c = '\\')
  | .file => fileFailure? cs
  | .other =>
      match cs with
      | '/' :: '/' :: rest => authorityFailure? false rest
      | _ => none

/-- Whether a character may stand in a scheme after its first letter. -/
def isSchemeChar (c : Char) : Bool := c.isAlphanum || c = '+' || c = '-' || c = '.'

/-- The characters of a URL: without controls and blanks at its ends, and without line ends and
tabs inside. -/
def cleaned (url : String) : List Char :=
  (Text.trimBy (fun c => c.toNat ≤ 32) url.toList).filter fun c =>
    c ≠ '\t' && c ≠ '\n' && c ≠ '\r'

def schemeOf (url : String) : Except UrlFailure String :=
  let cs := cleaned url
  let scheme := cs.takeWhile isSchemeChar
  if !(scheme.head?.any Char.isAlpha) then .error .noScheme
  else
    match cs.drop scheme.length with
    | ':' :: rest =>
        let name := Decimal.asciiLower (String.ofList scheme)
        match restFailure? (.of name) rest with
        | some e => .error e
        | none => .ok name
    | _ => .error .noScheme

end TabPilot.Address
