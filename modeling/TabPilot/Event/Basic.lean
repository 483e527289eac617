import TabPilot.Path.Access
import TabPilot.Pattern.Basic

set_option autoImplicit false

/-! # Events

An event is a message that the browser sends on its own account: a domain, a method and a
payload. `Criterion` says what a part of the payload has to be like.
-/

namespace TabPilot

structure Event where
  domain : String
  method : String
  payload : Value

inductive Criterion
  /-- The part is this very value. -/
  | equals (expected : Value)
  /-- The part is a string that the pattern matches at its start. -/
  | pattern (p : Pattern)

def Criterion.holds : Criterion → Value → Bool
  | .equals expected, v => expected.same v
  | .pattern p, .string s => p.matchesAtStart s
  | .pattern _, _ => false

namespace Event

def splitName (name : List Char) : Option (List Char × List Char) :=
  match name with
  | [] => none
  | c :: rest =>
      if c = '.' then some ([], rest)
      else (splitName rest).map fun (domain, method) => (c :: domain, method)

/-- The event of a qualified name; there is none unless both parts of the name are given. -/
def ofName? (name : String) (payload : Value) : Option Event :=
  match splitName name.toList with
  | some (domain, method) =>
      if domain.isEmpty || method.isEmpty then none
      else some ⟨String.ofList domain, String.ofList method, payload⟩
  | none => none

def name (e : Event) : String := e.domain ++ "." ++ e.method

def get? (e : Event) (path : String) : Option Value := e.payload.lookup (Path.parse path)

def meets (e : Event) (path : String) (c : Criterion) : Bool :=
  match e.get? path with
  | some v => c.holds v
  | none => false

def meetsAll (e : Event) (criteria : List (String × Criterion)) : Bool :=
  criteria.all fun (path, c) => e.meets path c

def toValue (e : Event) : Value := .ofMembers [("name", .string e.name), ("data", e.payload)]

end Event

end TabPilot
