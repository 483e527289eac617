import TabPilot.Error
import TabPilot.Time

set_option autoImplicit false

/-! # Slots

A slot passes one value from a sender to a receiver. Either may go away first: a value for a
receiver that is gone comes back, and a receiver whose sender is gone learns that the connection
is closed.
-/

namespace TabPilot

/-- A slot: the value in it, and who is still there. -/
structure Slot (α : Type) where
  value : Option α
  sender : Bool
  receiver : Bool

namespace Slot

variable {α : Type}

def new : Slot α := ⟨none, true, true⟩

/-- Puts the value in, which uses the sender up; it is refused if the receiver is gone. -/
def fill (s : Slot α) (v : α) : Slot α × Bool :=
  if s.receiver then ({ s with value := some v, sender := false }, true)
  else ({ s with sender := false }, false)

def isAbandoned (s : Slot α) : Bool := !s.receiver

def dropSender (s : Slot α) : Slot α := { s with sender := false }

def dropReceiver (s : Slot α) : Slot α := { s with receiver := false }

/-- What the receiver finds: the value, a sender that is gone, or nothing yet. -/
def received? (s : Slot α) : Option (Except Error α) :=
  match s.value with
  | some v => some (.ok v)
  | none => if s.sender then none else some (.error .connectionClosed)

def late (what : String) (timeout : Duration) : Error :=
  .timeout s!"{what} after {timeout.millis}ms"

/-- What a receiver that waits since `since` finds; after the timeout it finds an error. -/
def outcome? (s : Slot α) (what : String) (since : Instant) (timeout : Duration) (now : Instant) :
    Option (Except Error α) :=
  match s.received? with
  | some r => some r
  | none => if since + timeout ≤ now then some (.error (late what timeout)) else none

end Slot

end TabPilot
