import TabPilot.Event.Wait

set_option autoImplicit false

/-! # Waiting while events come in

A timeline is the time, the waiters, and the events that are still to come. Registered waits are
kept under tags until somebody waits for them or drops them. `Timeline.step` looks at a wait;
while there is no reason to look, the events that are due come in, and time moves to the next
event or to the time of the next look, whichever is earlier.
-/

namespace TabPilot

/-- The time, the waiters, the events to come, and the registered waits by their tags. -/
structure Timeline where
  now : Instant
  waiters : Waiters
  coming : List (Instant × Event)
  kept : List (String × PendingWait)

namespace Timeline

/-- The time zero, with nobody waiting. -/
def start (coming : List (Instant × Event)) : Timeline :=
  ⟨0, Waiters.start 0, coming, []⟩

def record (t : Timeline) (e : Event) : Timeline :=
  { t with waiters := t.waiters.record t.now e }

def isDue (t : Timeline) : Bool := t.coming.any fun entry => entry.1 ≤ t.now

def recordDue (t : Timeline) : Timeline :=
  let due := t.coming.filter fun entry => entry.1 ≤ t.now
  let later := t.coming.filter fun entry => t.now < entry.1
  due.foldl (fun t entry => t.record entry.2) { t with coming := later }

/-- The time of the next event, or the instant given if that is earlier. -/
def nextStop (t : Timeline) (latest : Instant) : Instant :=
  (t.coming.map Prod.fst).foldl min latest

/-- Takes notice of the events that are due, or lets time pass: up to an instant, or to the next
event if that is earlier. -/
def proceed (t : Timeline) (latest : Instant) : Timeline :=
  if t.isDue then t.recordDue else { t with now := t.nextStop latest }

/-! ## Waits -/

/-- Drops the wait that is kept under a tag; it is withdrawn. -/
def drop (t : Timeline) (tag : String) : Timeline :=
  match t.kept.lookup tag with
  | none => t
  | some p =>
      { t with
        waiters := t.waiters.withdraw p
        kept := t.kept.filter fun entry => entry.1 ≠ tag }

/-- Registers a wait for an event and keeps it under a tag, in the place of one kept there. -/
def register (t : Timeline) (tag name : String) (criteria : List (String × Criterion)) :
    Timeline × PendingWait :=
  let (waiters, p) := t.waiters.register t.now name criteria
  let t := { t with waiters }.drop tag
  ({ t with kept := (tag, p) :: t.kept }, p)

/-- Begins to wait for what is kept under a tag; it is kept there no longer. -/
def await? (t : Timeline) (tag : String) (timeout : Duration) : Option (Timeline × Wait) :=
  (t.kept.lookup tag).map fun p =>
    ({ t with kept := t.kept.filter fun entry => entry.1 ≠ tag }, .event p t.now timeout)

def beginWait (t : Timeline) (begin : Waiters → Waiters × Wait) : Timeline × Wait :=
  let (waiters, wait) := begin t.waiters
  ({ t with waiters }, wait)

/-- Looks at a wait; if there is no reason to look, events come in or time passes. Who waits
looks before the events of the same instant come in. -/
def step (t : Timeline) (wait : Wait) : Timeline × Wait.Standing :=
  match wait.look? t.waiters t.now with
  | some (waiters, standing) => ({ t with waiters }, standing)
  | none => (t.proceed wait.wake, .open wait)

end Timeline

end TabPilot
