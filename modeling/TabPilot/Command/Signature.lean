import TabPilot.Run.Failure

set_option autoImplicit false

/-! # What a command accepts -/

namespace TabPilot

inductive Arity
  | none | optional | required
  deriving Repr, DecidableEq

/-- What a command accepts: an argument or not, and which options; no list means any. -/
structure Signature where
  argument : Arity
  options : Option (List String)
  deriving Repr, DecidableEq

namespace Signature

def new (argument : Arity) (options : List String) : Signature := ⟨argument, some options⟩

def anyOptions (argument : Arity) : Signature := ⟨argument, none⟩

/-- The first option, in order of the names, that a command does not accept. -/
def strangeOption? (s : Signature) (options : Record Value) : Option String :=
  match s.options with
  | some accepted => options.names.find? fun name => !accepted.contains name
  | none => none

def refusal? (s : Signature) (shown : String) (hasArgument : Bool) (options : Record Value) :
    Option RunFailure :=
  match s.argument, hasArgument with
  | .none, true => some (.noArgument shown)
  | .required, false => some (.needsArgument shown)
  | _, _ => (s.strangeOption? options).map fun name => .badOption shown name

end Signature

end TabPilot
