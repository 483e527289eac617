import TabPilot.Event.Basic
import TabPilot.Error
import TabPilot.Time

set_option autoImplicit false

/-! # Waiting for events

`Waiters` knows who waits for which event, and when which event came last. A registration is
alive from `register` to `withdraw`. The first event after it that has its name and meets its
criteria fills it, once; until then it stands in the table, under its name, in order of
registration.
-/

namespace TabPilot

/-- The name that stands for events of all names. -/
def anyEvent : String := "*"

/-- Somebody who waits for an event that meets some criteria. -/
structure Waiter where
  id : Nat
  criteria : List (String × Criterion)

/-- Who waits for which event, which waits were filled, and when events came last. -/
structure Waiters where
  lastAny : Instant
  lastByName : Record Instant
  table : List (String × List Waiter)
  filled : List (Nat × Event)
  nextId : Nat

structure PendingWait where
  name : String
  id : Nat
  started : Instant

structure EventWait where
  event : Event
  duration : Duration

def EventWait.toValue (w : EventWait) : Value :=
  .ofMembers [("event", w.event.toValue), ("duration", .int w.duration.millis)]

namespace Waiters

/-- Nobody waits, and no event has come since `now`. -/
def start (now : Instant) : Waiters := ⟨now, Record.empty, [], [], 0⟩

def waitersFor (w : Waiters) (name : String) : List Waiter := (w.table.lookup name).getD []

def waitingOn (w : Waiters) (name : String) : Nat := (w.waitersFor name).length

/-- When an event of a name came last, if that was not forgotten. -/
def lastSeen (w : Waiters) (name : String) : Option Instant := w.lastByName.get? name

def enlist (name : String) (waiter : Waiter) :
    List (String × List Waiter) → List (String × List Waiter)
  | [] => [(name, [waiter])]
  | (key, waiting) :: rest =>
      if key = name then (key, waiting ++ [waiter]) :: rest
      else (key, waiting) :: enlist name waiter rest

/-- Keeps those waiters under a name that pass a test; a name nobody waits for is dropped. -/
def keepUnder (name : String) (keep : Waiter → Bool) (table : List (String × List Waiter)) :
    List (String × List Waiter) :=
  table.filterMap fun (key, waiting) =>
    if key = name then
      let kept := waiting.filter keep
      if kept.isEmpty then none else some (key, kept)
    else some (key, waiting)

/-- Registers a wait for the next event of a name that meets some criteria. -/
def register (w : Waiters) (now : Instant) (name : String) (criteria : List (String × Criterion)) :
    Waiters × PendingWait :=
  ({ w with table := enlist name ⟨w.nextId, criteria⟩ w.table, nextId := w.nextId + 1 },
    ⟨name, w.nextId, now⟩)

/-- Fills the waits under a name that an event satisfies. -/
def deliver (w : Waiters) (e : Event) (name : String) : Waiters :=
  let ready := (w.waitersFor name).filter fun waiter => e.meetsAll waiter.criteria
  { w with
    table := keepUnder name (fun waiter => !e.meetsAll waiter.criteria) w.table
    filled := w.filled ++ ready.map fun waiter => (waiter.id, e) }

def record (w : Waiters) (now : Instant) (e : Event) : Waiters :=
  let noted := { w with lastAny := now, lastByName := w.lastByName.insert e.name now }
  (noted.deliver e e.name).deliver e anyEvent

def event? (w : Waiters) (p : PendingWait) : Option Event := w.filled.lookup p.id

def withdraw (w : Waiters) (p : PendingWait) : Waiters :=
  { w with
    table := keepUnder p.name (fun waiter => waiter.id ≠ p.id) w.table
    filled := w.filled.filter fun entry => entry.1 ≠ p.id }

def lateEvent (name : String) (timeout : Duration) : Error :=
  .timeout s!"Timed out waiting for event {name} after {timeout.millis}ms"

/-- How a wait that began at `since` stands: filled, too late, or still open. -/
def outcome? (w : Waiters) (p : PendingWait) (since : Instant) (timeout : Duration)
    (now : Instant) : Option (Except Error EventWait) :=
  match w.event? p with
  | some e => some (.ok ⟨e, now - p.started⟩)
  | none => if since + timeout ≤ now then some (.error (lateEvent p.name timeout)) else none

end Waiters

/-! ## Waiting for quiet -/

/-- A wait for a time without events: of the given names, or of any name if none is given. -/
structure IdleWait where
  idle : Duration
  names : List String
  timeout : Duration
  poll : Duration
  started : Instant

namespace IdleWait

def forget (names : List String) (seen : Record Instant) : Record Instant :=
  names.foldl Record.erase seen

/-- Begins a wait for quiet. Only events from now on count. -/
def start (i : IdleWait) (w : Waiters) : Waiters :=
  { w with lastByName := forget i.names w.lastByName }

/-- Whether it is quiet: every named event has come and is long enough ago. -/
def isQuiet (i : IdleWait) (w : Waiters) (now : Instant) : Bool :=
  if i.names.isEmpty then i.idle ≤ now - w.lastAny
  else i.names.all fun name =>
    match w.lastSeen name with
    | some seen => i.idle ≤ now - seen
    | none => false

def lateQuiet (timeout : Duration) : Error :=
  .timeout s!"Timed out waiting for events to stop coming in after {timeout.millis}ms"

def deadline (i : IdleWait) : Instant := i.started + i.timeout

/-- When to look again after looking at `now`. -/
def wake (i : IdleWait) (now : Instant) : Instant := (min (now + i.poll) i.deadline).tick

/-- Looks whether it is quiet: if so the wait ends, and so it does when time is up. -/
def look (i : IdleWait) (w : Waiters) (now : Instant) :
    Waiters × Option (Except Error Duration) :=
  if i.isQuiet w now then (i.start w, some (.ok (now - i.started)))
  else if i.deadline ≤ now then (w, some (.error (lateQuiet i.timeout)))
  else (w, none)

end IdleWait

end TabPilot
