import TabPilot.Event.Basic
import TabPilot.Event.Glob
import TabPilot.Error

set_option autoImplicit false

/-! # Callbacks of a domain

A registry holds the callbacks that were registered for the events of one domain, in order of
registration. Each is known by the domain's name and a number that is never used again.
-/

namespace TabPilot

/-- How a registered callback is known. -/
structure HandlerId where
  domain : String
  number : Nat
  deriving Repr, DecidableEq

def HandlerId.text (id : HandlerId) : String := s!"{id.domain}.event_{id.number}"

inductive EventMatcher
  | exactly (name : String)
  | glob (g : Glob)

def EventMatcher.fits : EventMatcher → String → Bool
  | .exactly expected, name => expected = name
  | .glob g, name => g.fits name

structure Registration (α : Type) where
  id : HandlerId
  matcher : EventMatcher
  callback : α

structure Registry (α : Type) where
  domain : String
  lastNumber : Nat
  registrations : List (Registration α)

namespace Registry

variable {α : Type}

def empty (domain : String) : Registry α := ⟨domain, 0, []⟩

def qualify (domain name : String) : Except Error String :=
  if (domain ++ ".").toList.isPrefixOf name.toList then .ok name
  else if name.toList.contains '.' then
    .error (.invalidArgument s!"Event '{name}' does not belong to domain {domain}")
  else .ok (domain ++ "." ++ name)

/-- Which events a qualified name or pattern means. -/
def matcherOf (qualified : String) : Except Error EventMatcher :=
  if qualified.toList.any fun c => c = '*' || c = '?' || c = '[' then
    match Glob.ofText qualified with
    | .ok g => .ok (.glob g)
    | .error e =>
        .error (.invalidArgument s!"Invalid event pattern '{qualified}': {e.message}")
  else .ok (.exactly qualified)

def on (r : Registry α) (name : String) (callback : α) : Except Error (Registry α × HandlerId) :=
  match qualify r.domain name with
  | .error e => .error e
  | .ok qualified =>
      match matcherOf qualified with
      | .error e => .error e
      | .ok matcher =>
          let number := r.lastNumber + 1
          let id : HandlerId := ⟨r.domain, number⟩
          .ok (⟨r.domain, number, r.registrations ++ [⟨id, matcher, callback⟩]⟩, id)

def holds (r : Registry α) (id : HandlerId) : Bool := r.registrations.any fun x => x.id = id

def remove (r : Registry α) (id : HandlerId) : Registry α :=
  { r with registrations := r.registrations.filter fun x => x.id ≠ id }

/-- The callbacks for an event of this name, in order of registration. -/
def listeners (r : Registry α) (name : String) : List α :=
  (r.registrations.filter fun x => x.matcher.fits name).map Registration.callback

end Registry

/-- Whether later callbacks still see an event. -/
inductive Propagation
  | continue
  | stop
  deriving Repr, DecidableEq

/-- Runs callbacks one after the other on a state, up to the first that stops. -/
def runCallbacks {α σ : Type} (run : α → σ → σ × Propagation) : List α → σ → σ
  | [], s => s
  | f :: rest, s =>
      match run f s with
      | (s, .continue) => runCallbacks run rest s
      | (s, .stop) => s

end TabPilot
