import TabPilot.Event.Waiters

set_option autoImplicit false

/-! # Waits

A wait ends by events or by time. `Wait.look?` looks how it stands when there is a reason to:
its event has come, or it is time. `Wait.wake` says when it is time.
-/

namespace TabPilot

/-- Something that ends by events or by time. -/
inductive Wait
  /-- Ends with an event, or in vain. -/
  | event (p : PendingWait) (since : Instant) (timeout : Duration)
  /-- Ends with a time without events, or in vain; nobody looks before the instant `next`. -/
  | quiet (i : IdleWait) (next : Instant)

namespace Wait

inductive Standing
  | open (w : Wait)
  | ended (r : Except Error Value)

def forQuiet (i : IdleWait) (w : Waiters) : Waiters × Wait := (i.start w, .quiet i i.started)

def forEvent (name : String) (criteria : List (String × Criterion)) (timeout : Duration)
    (now : Instant) (w : Waiters) : Waiters × Wait :=
  let (w, p) := w.register now name criteria
  (w, .event p now timeout)

/-- Looks at a wait, if there is a reason to. It may have ended with an event, with the
milliseconds until it was quiet, or with an error; a registered wait that ended is withdrawn. -/
def look? (w : Waiters) (now : Instant) : Wait → Option (Waiters × Standing)
  | .event p since timeout =>
      (w.outcome? p since timeout now).map fun r => (w.withdraw p, .ended (r.map EventWait.toValue))
  | .quiet i next =>
      if now < next then none
      else
        match i.look w now with
        | (w, some r) => some (w, .ended (r.map fun d => .int d.millis))
        | (w, none) => some (w, .open (.quiet i (i.wake now)))

/-- When a wait is to be looked at if no event comes. -/
def wake : Wait → Instant
  | .event _ since timeout => (since + timeout).tick
  | .quiet _ next => next

end Wait

end TabPilot
