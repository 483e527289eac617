import Mathlib.Data.List.Basic
import TabPilot.Proofs.Connection.Traffic
import TabPilot.Rehearsal.Basic

set_option autoImplicit false

/-! # Dispatching among the other tasks

A tab's connection queues the events it receives, and a task of its own dispatches them: it takes
the next event, finds the callbacks of the event's domain, calls them one after the other until
one stops, and then tells the waiters. `Delivery` is a tab with the calls on its connection
(`Traffic`) and the errand the dispatching task is on. Between any two steps of that task everybody
else may come in: messages arrive and are handled, requests are made, answered and given up, the
debugger hangs up, somebody stops the connection, and callbacks and waits are registered and
removed.

The last lemma says that `Rehearsal.dispatch`, which dispatches an event at one go, is a run of
these steps.
-/

namespace TabPilot

/-- What the dispatching task is about to do. -/
inductive Delivery.Errand
  /-- To take the next event. -/
  | idle
  /-- To find the callbacks for an event. -/
  | taken (e : Event)
  /-- To call these callbacks for an event, and then to tell the waiters. -/
  | calling (e : Event) (callbacks : List Callback)

/-- A tab, the calls on its connection, and what its dispatching task is about to do. -/
structure Delivery where
  tab : Tab
  calls : Nat → Option Traffic.Call
  errand : Delivery.Errand

namespace Delivery

def Errand.event? : Errand → Option Event
  | .idle => none
  | .taken e | .calling e _ => some e

def traffic (s : Delivery) : Traffic := ⟨s.tab.connection, s.calls⟩

/-- The state after a step that concerns only the connection and the calls on it. -/
def withTraffic (s : Delivery) (t : Traffic) : Delivery :=
  { s with tab := { s.tab with connection := t.connection }, calls := t.calls }

/-- The state when the dispatching task turns to something else. -/
def turnTo (s : Delivery) (errand : Errand) : Delivery := { s with errand }

def tell (s : Delivery) (now : Instant) (e : Event) : Delivery :=
  { s with tab := { s.tab with waiters := s.tab.waiters.record now e } }

/-- The callbacks of a tab for an event: those of the event's domain, if there is such a domain
and it emits events. -/
def callbacksFor (t : Tab) (e : Event) : List Callback :=
  match t.registry? e.domain with
  | some registry => registry.listeners e.name
  | none => []

/-- What is left to call after an answer. -/
def remaining (callbacks : List Callback) : Propagation → List Callback
  | .continue => callbacks
  | .stop => []

inductive Label
  /-- Somebody else does something with the connection. -/
  | traffic (l : Traffic.Label)
  /-- Callbacks or waits are registered or removed. -/
  | change
  /-- The next event is taken. -/
  | take (e : Event)
  /-- The callbacks for an event are found. -/
  | find (e : Event) (callbacks : List Callback)
  /-- A callback is called for an event, and gives an answer. -/
  | call (e : Event) (f : Callback) (answer : Propagation)
  /-- The waiters are told of an event. -/
  | record (now : Instant) (e : Event)
  /-- Dispatching has ended. -/
  | settle

/-- Whether a step is one of those that dispatch an event. -/
def Label.isDeed : Label → Bool
  | .take _ | .find _ _ | .call _ _ _ | .record _ _ => true
  | .traffic _ | .change | .settle => false

def IsDispatching : Traffic.Label → Prop
  | .dispatch _ | .settle => True
  | _ => False

inductive Step : Delivery → Label → Delivery → Prop
  | traffic {s : Delivery} {t : Traffic} {l : Traffic.Label} (others : ¬ IsDispatching l)
      (step : Traffic.Step s.traffic l t) : Step s (.traffic l) (s.withTraffic t)
  | change {s : Delivery} {tab : Tab} (same : tab.connection = s.tab.connection) :
      Step s .change { s with tab }
  | take {s : Delivery} {t : Traffic} {e : Event} (idle : s.errand = .idle)
      (step : Traffic.Step s.traffic (.dispatch e) t) :
      Step s (.take e) ((s.withTraffic t).turnTo (.taken e))
  | find {s : Delivery} {e : Event} (taken : s.errand = .taken e) :
      Step s (.find e (callbacksFor s.tab e)) (s.turnTo (.calling e (callbacksFor s.tab e)))
  | call {s : Delivery} {e : Event} {f : Callback} {rest : List Callback} (answer : Propagation)
      (calling : s.errand = .calling e (f :: rest)) :
      Step s (.call e f answer) (s.turnTo (.calling e (remaining rest answer)))
  | record {s : Delivery} {e : Event} (now : Instant) (called : s.errand = .calling e []) :
      Step s (.record now e) ((s.tell now e).turnTo .idle)
  | settle {s : Delivery} {t : Traffic} (idle : s.errand = .idle)
      (step : Traffic.Step s.traffic .settle t) : Step s .settle (s.withTraffic t)

/-- What has happened so far, first things first. -/
abbrev History := List Label

/-- A history of steps from a tab with a new connection on, and the state after it. -/
inductive Run (replyTimeout : Duration) : History → Delivery → Prop
  | start {tab : Tab} (fresh : tab.connection = Connection.start replyTimeout) :
      Run replyTimeout [] ⟨tab, fun _ => none, .idle⟩
  | snoc {h : History} {s s' : Delivery} {l : Label} (before : Run replyTimeout h s)
      (step : Step s l s') : Run replyTimeout (h ++ [l]) s'

/-- A run up to a label of its history, and the step that shows the label. -/
theorem Run.split {replyTimeout : Duration} {past future : History} {l : Label} {s : Delivery}
    (run : Run replyTimeout (past ++ l :: future) s) :
    ∃ s₁ s₂, Run replyTimeout past s₁ ∧ Step s₁ l s₂ := by
  generalize hh : past ++ l :: future = h at run
  induction run generalizing future with
  | start => simp at hh
  | @snoc h s s' l' before step ih =>
      rcases History.at_end_or_before hh with ⟨-, rfl, rfl⟩ | ⟨future', -, hbefore⟩
      · exact ⟨s, s', before, step⟩
      · exact ih hbefore

/-! ## Dispatching at one go -/

/-- The answer of a callback does not depend on what it is called with. -/
def answerOf : Callback → Propagation
  | .probe _ true => .stop
  | _ => .continue

theorem runCallback_snd (e : Event) (f : Callback) (s : World × List HandlerRun) :
    (Rehearsal.runCallback e f s).2 = answerOf f := by
  cases f with
  | probe tag stops => cases stops <;> rfl
  | _ => rfl

theorem tabs_noteAll (w : World) (entry : Option LogEntry) : (w.noteAll entry).tabs = w.tabs := by
  cases entry <;> rfl

theorem tabs_runCallback (e : Event) (f : Callback) (s : World × List HandlerRun) :
    (Rehearsal.runCallback e f s).1.1.tabs = s.1.tabs := by
  cases f with
  | consoleLogger => exact tabs_noteAll _ _
  | reaction r => rfl
  | probe tag stops => rfl

/-- Calling callbacks at one go is a run of steps. -/
theorem Run.callbacks {replyTimeout : Duration} {h : History} {s : Delivery} {e : Event}
    (run : Run replyTimeout h s) {callbacks : List Callback}
    (calling : s.errand = .calling e callbacks) (seen : World × List HandlerRun) :
    ∃ more, Run replyTimeout (h ++ more) (s.turnTo (.calling e [])) ∧
      (∀ l ∈ more, l.isDeed = true) ∧
      (runCallbacks (Rehearsal.runCallback e) callbacks seen).1.tabs = seen.1.tabs := by
  induction callbacks generalizing h s seen with
  | nil =>
      have hturn : s.turnTo (.calling e []) = s := by rw [← calling, turnTo]
      exact ⟨[], by simpa [hturn] using run, List.forall_mem_nil _, rfl⟩
  | cons f rest ih =>
      have called := run.snoc (.call (answerOf f) calling)
      have htabs := tabs_runCallback e f seen
      have hanswer := runCallback_snd e f seen
      rw [runCallbacks]
      generalize Rehearsal.runCallback e f seen = after at htabs hanswer
      obtain ⟨seen', answer⟩ := after
      obtain rfl : answer = answerOf f := hanswer
      cases hf : answerOf f with
      | stop =>
          rw [hf] at called
          exact ⟨_, called, List.forall_mem_singleton.mpr rfl, htabs⟩
      | «continue» =>
          rw [hf] at called
          obtain ⟨more, run', hdeeds, htabs'⟩ := ih called rfl seen'
          rw [List.append_assoc, List.singleton_append] at run'
          exact ⟨_, run', List.forall_mem_cons.mpr ⟨rfl, hdeeds⟩, htabs'.trans htabs⟩

theorem tab?_modifyTab {w : World} {t : TabId} {tab : Tab} (there : w.tab? t = some tab)
    (f : Tab → Tab) : (w.modifyTab t f).tab? t = some (f tab) := by
  simp only [World.tab?] at there
  simp [World.tab?, World.modifyTab, there]

theorem tab?_dispatchEvent {r : Rehearsal} {t : TabId} {tab : Tab}
    (there : r.world.tab? t = some tab) (e : Event) {w : World} {handlers : List HandlerRun}
    (called : runCallbacks (Rehearsal.runCallback e) (callbacksFor tab e)
      (r.world, r.handlers) = (w, handlers)) (same : w.tabs = r.world.tabs) :
    (r.dispatchEvent t e).world.tab? t =
      some { tab with waiters := tab.waiters.record w.now e } := by
  have hthere : w.tab? t = some tab := by rw [World.tab?, same, ← World.tab?, there]
  have hdispatch : r.dispatchEvent t e =
      { r with world := w.modifyWaiters t fun x => x.record w.now e, handlers } := by
    cases hregistry : tab.registry? e.domain with
    | some registry =>
        simp only [callbacksFor, hregistry] at called
        simp only [Rehearsal.dispatchEvent, there, Option.bind_some, hregistry, called]
    | none =>
        simp only [callbacksFor, hregistry] at called
        simp only [Rehearsal.dispatchEvent, there, Option.bind_some, hregistry, called]
  rw [hdispatch]
  exact tab?_modifyTab hthere _

/-- **Dispatching at one go is a run.** Where nobody comes in between, the steps of dispatching
lead to where `Rehearsal.dispatch` leads. -/
theorem Run.dispatch {replyTimeout : Duration} {h : History} {s : Delivery}
    (run : Run replyTimeout h s) (idle : s.errand = .idle) {r : Rehearsal} {t : TabId}
    (there : r.world.tab? t = some s.tab) {c : Connection} {e : Event}
    (next : s.tab.connection.nextEvent? = some (c, e)) :
    ∃ more s', Run replyTimeout (h ++ more) s' ∧ s'.errand = .idle ∧
      (r.dispatch t).world.tab? t = some s'.tab := by
  have found := (run.snoc (.take idle (.dispatch next))).snoc (.find rfl)
  have hthere : (r.world.modifyConnection t fun _ => c).tab? t =
      some { s.tab with connection := c } := tab?_modifyTab there _
  obtain ⟨more, called, -, htabs⟩ :=
    found.callbacks rfl ((r.world.modifyConnection t fun _ => c), r.handlers)
  have hdispatch : r.dispatch t =
      { r with world := r.world.modifyConnection t fun _ => c }.dispatchEvent t e := by
    rw [Rehearsal.dispatch, there, Option.bind_some, next]
  generalize hseen : runCallbacks (Rehearsal.runCallback e) _
    ((r.world.modifyConnection t fun _ => c), r.handlers) = seen at htabs
  obtain ⟨w, handlers⟩ := seen
  have recorded := called.snoc (.record w.now rfl)
  rw [hdispatch, tab?_dispatchEvent hthere e hseen htabs]
  simp only [List.append_assoc] at recorded
  exact ⟨_, _, recorded, rfl, rfl⟩

end Delivery

end TabPilot
