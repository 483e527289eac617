import TabPilot.Command.Core

set_option autoImplicit false

/-! # Commands that wait for events -/

namespace TabPilot.Events

def usualIdleTimeout : Nat := 30000

/-! ## Criteria -/

def members (i : Invocation) (name kind : String) : Except Error (List (String × Value)) :=
  match i.option? name with
  | none => .ok []
  | some (.object r) => .ok r.entries
  | some _ => .error (.invalidArgument s!"{name} must be an object of path: {kind} pairs")

def patternCriteria : List (String × Value) → Except Error (List (String × Criterion))
  | [] => .ok []
  | (path, v) :: rest =>
      let source := v.render
      match Pattern.compile source with
      | .ok p => (patternCriteria rest).map ((path, .pattern p) :: ·)
      | .error e =>
          .error (.invalidArgument s!"Invalid pattern for '{path}': {e.message source}")

/-- What an invocation asks of an event: parts that are equal to values, and parts that match
patterns. -/
def criteria (i : Invocation) : Except Error (List (String × Criterion)) := do
  let equal ← members i "match" "value"
  let patterns ← members i "match_regex" "pattern"
  let patterns ← patternCriteria patterns
  return equal.map (fun (path, v) => (path, .equals v)) ++ patterns

/-! ## Waiting -/

def waitFor : CommandBody := fun w i =>
  let asked : Except Error (String × Duration × List (String × Criterion) × TabId) := do
    let name ← i.requiredText
    let timeout ← i.millis "timeout" Core.usualTimeout
    let criteria ← criteria i
    let tab ← w.defaultTab
    return (name, timeout, criteria, tab)
  match asked with
  | .error e => (w, .error e)
  | .ok (name, timeout, criteria, tab) =>
      Core.beginWait w tab (Wait.forEvent name criteria timeout w.now)

/-- The names of the events that have to come and to stop coming. -/
def eventNames (i : Invocation) : Except Error (List String) :=
  match i.option? "events" with
  | none => .ok []
  | some (.array names) => .ok (names.map Value.render)
  | some (.string name) => .ok [name]
  | some v => .error (.invalidArgument s!"events must be a list of event names, got {v.json}")

/-- Waits until no events have come for some time. -/
def waitForIdle : CommandBody := fun w i =>
  let asked : Except Error (IdleWait × TabId) := do
    let idle ← (← i.required).asMillis "idle"
    let timeout ← i.millis "timeout" usualIdleTimeout
    let poll ← i.millis "poll_interval" Core.usualPoll
    let names ← eventNames i
    let tab ← w.defaultTab
    return (⟨idle, names, timeout, poll, w.now⟩, tab)
  match asked with
  | .error e => (w, .error e)
  | .ok (wait, tab) => Core.beginWait w tab (Wait.forQuiet wait)

def commands : CommandSet :=
  .closed "events"
    [⟨"wait_for", .new .required ["timeout", "match", "match_regex"], waitFor⟩,
      ⟨"wait_for_idle", .new .required ["events", "timeout", "poll_interval"], waitForIdle⟩]

end TabPilot.Events
