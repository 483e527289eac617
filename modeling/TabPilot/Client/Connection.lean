import TabPilot.Client.Inbound
import TabPilot.Time

set_option autoImplicit false

/-! # The connection to a debugger

A connection gives every request an id of its own and keeps the requests that have no outcome
yet as pending. Two tasks work on it: receiving takes messages from the inbox one by one, gives
replies to their requests and queues events; dispatching takes the queued events. When receiving
ends, because the inbox ended or because the connection is to stop, every pending request fails
and the connection is closed. Dispatching goes on until the queue is empty.
-/

namespace TabPilot

structure Reply where
  id : Nat
  method : String
  result : Value

def Reply.toValue (r : Reply) : Value :=
  .ofMembers [("message_id", .int r.id), ("method", .string r.method), ("result", r.result)]

structure Connection where
  lastId : Nat
  /-- The requests without outcome, with their methods. -/
  pending : List (Nat × String)
  /-- The outcomes that their requests have not taken yet. -/
  outcomes : List (Nat × Except Error Value)
  closed : Bool
  /-- The messages that have arrived and are not received yet. -/
  inbox : List Value
  /-- Whether no more messages will arrive. -/
  inboxEnded : Bool
  /-- The events that are received and not dispatched yet. -/
  events : List Event
  receiving : Bool
  dispatching : Bool
  /-- Whether somebody asked the connection to stop. -/
  stopping : Bool
  /-- The messages that were written and that the debugger has not read yet. -/
  outbox : List Value
  /-- Whether messages can still be written. -/
  writable : Bool
  replyTimeout : Duration

namespace Connection

def start (replyTimeout : Duration) : Connection :=
  ⟨0, [], [], false, [], false, [], true, true, false, [], true, replyTimeout⟩

/-! ## Requests -/

/-- Takes the next id. A closed connection has none to give. -/
def takeId? (c : Connection) : Except Error (Connection × Nat) :=
  if c.closed then .error .connectionClosed
  else .ok ({ c with lastId := c.lastId + 1 }, c.lastId + 1)

def enlist (c : Connection) (id : Nat) (method : String) : Connection :=
  { c with pending := c.pending ++ [(id, method)] }

/-- Ends a request, whatever has become of it. -/
def release (c : Connection) (id : Nat) : Connection :=
  { c with
    pending := c.pending.filter fun p => p.1 ≠ id
    outcomes := c.outcomes.filter fun o => o.1 ≠ id }

/-- Looks again whether the connection is open, once a request is pending: one that closed in
between has failed its pending requests already and would not fail this one. -/
def confirm (c : Connection) (id : Nat) : Connection × Except Error Unit :=
  if c.closed then (c.release id, .error .connectionClosed) else (c, .ok ())

/-- Takes a new id for a request; a request that expects a reply is pending from now on. -/
def register (c : Connection) (method : String) (expectsReply : Bool) :
    Connection × Except Error Nat :=
  match c.takeId? with
  | .error e => (c, .error e)
  | .ok (c, id) =>
      if expectsReply then
        let (c, confirmed) := (c.enlist id method).confirm id
        (c, confirmed.map fun _ => id)
      else (c, .ok id)

def message (id : Nat) (method : String) (params : Value) : Value :=
  let head := [("id", Value.int id), ("method", .string method)]
  .ofMembers (if params.isNull then head else head ++ [("params", params)])

def brokenPipe : Error := .transport "Failed to write message: broken pipe"

def write (c : Connection) (message : Value) : Except Error Connection :=
  if c.writable then .ok { c with outbox := c.outbox ++ [message] } else .error brokenPipe

/-- Registers a request and writes it. A request that cannot be written is released. -/
def send (c : Connection) (method : String) (params : Value) (expectsReply : Bool) :
    Connection × Except Error Nat :=
  match c.register method expectsReply with
  | (c, .error e) => (c, .error e)
  | (registered, .ok id) =>
      match registered.write (message id method params) with
      | .ok written => (written, .ok id)
      | .error e => (registered.release id, .error e)

/-- The id of a request as it is shown: with at least four digits. -/
def shownId (id : Nat) : String :=
  let digits := Nat.toDigits 10 id
  "[" ++ String.ofList (List.replicate (4 - digits.length) '0' ++ digits) ++ "]"

def lateReply (id : Nat) (method : String) (timeout : Duration) : Error :=
  .timeout s!"Timed out waiting for reply to {method} {shownId id} after {timeout.millis}ms"

/-- How a request that waits since `since` stands: answered, too late, or still open. -/
def outcome? (c : Connection) (id : Nat) (method : String) (since : Instant)
    (timeout : Duration) (now : Instant) : Option (Except Error Reply) :=
  match c.outcomes.lookup id with
  | some (.ok result) => some (.ok ⟨id, method, result⟩)
  | some (.error e) => some (.error e)
  | none =>
      if since + timeout ≤ now then some (.error (lateReply id method timeout)) else none

/-! ## Receiving -/

/-- Gives a pending request its outcome; it is pending no longer. -/
def resolve (c : Connection) (id : Nat) (outcome : Except Error Value) : Connection :=
  { c with
    pending := c.pending.filter fun p => p.1 ≠ id
    outcomes := c.outcomes ++ [(id, outcome)] }

def handle (c : Connection) (m : Value) : Connection × Option LogEntry :=
  match Inbound.ofMessage m with
  | .reply id members =>
      match c.pending.lookup id with
      | some method => (c.resolve id (Inbound.resultOf method members), none)
      | none => (c, some ⟨.warn, "Received reply for unknown request " ++ shownId id⟩)
  | .event e => ({ c with events := c.events ++ [e] }, none)
  | other => (c, other.note?)

def markClosed (c : Connection) : Connection := { c with closed := true }

/-- Every pending request fails, and receiving has ended. -/
def failPending (c : Connection) : Connection :=
  { c with
    receiving := false
    pending := []
    outcomes := c.outcomes ++ c.pending.map fun p => (p.1, .error .connectionClosed) }

/-- Receiving ends: first the connection is marked as closed, then every pending request
fails. -/
def close (c : Connection) : Connection := c.markClosed.failPending

/-- Whether there is nothing more to receive. A connection that is to stop handles no further
messages. -/
def isOver (c : Connection) : Bool := c.stopping || (c.inbox.isEmpty && c.inboxEnded)

def receive? (c : Connection) : Option (Connection × Option LogEntry) :=
  if !c.receiving then none
  else if c.isOver then some (c.close, none)
  else
    match c.inbox with
    | m :: rest => some ({ c with inbox := rest }.handle m)
    | [] => none

/-! ## Dispatching -/

def nextEvent? (c : Connection) : Option (Connection × Event) :=
  match c.events with
  | e :: rest => if c.dispatching then some ({ c with events := rest }, e) else none
  | [] => none

/-- Dispatching ends once receiving has ended and no event is left. -/
def settle? (c : Connection) : Option Connection :=
  if c.dispatching && !c.receiving && c.events.isEmpty then some { c with dispatching := false }
  else none

/-! ## Stopping -/

/-- Asks a connection to stop. Only the first who asks has to wait for the tasks; for everybody
else there is nothing to wait for. -/
def askToStop (c : Connection) : Connection × Bool :=
  if c.stopping then (c, false) else ({ c with stopping := true }, true)

/-- Closes the way to the debugger, after receiving has ended. -/
def shut (c : Connection) : Connection := { c with writable := false, inboxEnded := true }

end Connection

end TabPilot
