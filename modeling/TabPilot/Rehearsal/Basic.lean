import TabPilot.Rehearsal.Activity
import TabPilot.Rehearsal.Debugger

set_option autoImplicit false

/-! # Rehearsals

A rehearsal is a session of a browser whose debuggers are scripted. It goes on by jobs: a
connection receives a message or dispatches an event, a handler takes a step, a debugger reads its
requests or sends what is due, the activity takes a step. `nextJob?` chooses among the jobs that
there are; when there are none, time passes until the next of them. Once the activity has its
turn it goes on as far as it can; then it is last, but first of all when time has passed.
-/

namespace TabPilot

/-- Something that a debugger is going to send. -/
structure Sending where
  due : Instant
  tab : TabId
  utterance : Utterance

/-- A session with scripted debuggers. -/
structure Rehearsal where
  catalogue : Catalogue
  world : World
  debuggers : List Debugger
  agenda : List Sending
  handlers : List HandlerRun
  activity : Activity
  /-- Whether it is the activity's turn. -/
  acting : Bool
  /-- The requests that arrived at the debuggers, latest first. -/
  requests : List (TabId × Value)

inductive Job
  /-- A connection receives a message, or stops to receive. -/
  | receive (t : TabId)
  /-- A connection dispatches an event. -/
  | dispatch (t : TabId)
  /-- A connection stops to dispatch. -/
  | settle (t : TabId)
  /-- A handler takes a step. -/
  | handle (index : Nat)
  /-- A debugger reads its requests. -/
  | listen (t : TabId)
  /-- A debugger sends what is due first. -/
  | send
  /-- The activity takes a step. -/
  | act

namespace Rehearsal

/-! ## Debuggers -/

def modifyDebugger (r : Rehearsal) (t : TabId) (f : Debugger → Debugger) : Rehearsal :=
  { r with debuggers := r.debuggers.modify t f }

/-- A message arrives at the near end of a pipe. A reader that gives up ends the inbox. -/
def arrive (r : Rehearsal) (t : TabId) (u : Utterance) : Rehearsal :=
  match r.debuggers[t]?, r.world.tab? t with
  | some d, some tab =>
      if !d.connected || tab.connection.inboxEnded then r
      else
        let (reader, messages) := d.reader.feed u.bytes
        let world := r.world.modifyConnection t fun c =>
          { c with inbox := c.inbox ++ messages, inboxEnded := reader.failure.isSome }
        let world := world.noteAll (reader.failure.map fun e =>
          ⟨.error, "Transport error: " ++ e.message⟩)
        { r with world }.modifyDebugger t fun d => { d with reader }
  | _, _ => r

def asRead (request : Value) : Value :=
  match Wire.decode (Wire.bytesOf request.json) with
  | .ok v => v
  | .error _ => request

/-- A debugger reads a request and plans what to send. -/
def hear (r : Rehearsal) (t : TabId) (request : Value) : Rehearsal :=
  match r.debuggers[t]? with
  | none => r
  | some d =>
      let (d, sendings) := d.respond r.world.now request
      { r.modifyDebugger t (fun _ => d) with
        agenda := r.agenda ++ sendings.map fun (due, u) => ⟨due, t, u⟩
        requests := (t, request) :: r.requests }

/-- A debugger reads all requests that were written to it. -/
def listen (r : Rehearsal) (t : TabId) : Rehearsal :=
  match r.world.tab? t with
  | none => r
  | some tab =>
      let world := r.world.modifyConnection t fun c => { c with outbox := [] }
      (tab.connection.outbox.map asRead).foldl (fun r request => r.hear t request) { r with world }

/-- A debugger goes away: what it was going to send is lost, and what was written to it too. -/
def hangUp (r : Rehearsal) (t : TabId) : Rehearsal :=
  match r.debuggers[t]?, r.world.tab? t with
  | some d, some tab =>
      let leftover :=
        if !d.connected || tab.connection.inboxEnded then none
        else d.reader.ending.map (LogEntry.mk .warn)
      let world := (r.world.noteAll leftover).modifyConnection t fun c =>
        { c with inboxEnded := true, writable := false, outbox := [] }
      { r with world, agenda := r.agenda.filter fun s => s.tab ≠ t }.modifyDebugger t fun d =>
        { d with connected := false }
  | _, _ => r

/-! ## The agenda -/

/-- The first of the sendings that are due earliest, and the others. -/
def takeEarliest? : List Sending → Option (Sending × List Sending)
  | [] => none
  | s :: rest =>
      match takeEarliest? rest with
      | some (first, others) =>
          if first.due < s.due then some (first, s :: others) else some (s, rest)
      | none => some (s, rest)

def sendNext (r : Rehearsal) : Rehearsal :=
  match takeEarliest? r.agenda with
  | some (s, agenda) => { r with agenda }.arrive s.tab s.utterance
  | none => r

/-! ## Events -/

def runCallback (e : Event) (f : Callback) (s : World × List HandlerRun) :
    (World × List HandlerRun) × Propagation :=
  let (w, handlers) := s
  match f with
  | .consoleLogger => ((w.noteAll (consoleLine? e), handlers), .continue)
  | .reaction r =>
      let (w, h) := w.react r e
      ((w, handlers ++ [h]), .continue)
  | .probe tag stops =>
      (({ w with seen := (tag, e.name) :: w.seen }, handlers), if stops then .stop else .continue)

/-- Dispatches an event: first to the callbacks of its domain, then to the waiters. -/
def dispatchEvent (r : Rehearsal) (t : TabId) (e : Event) : Rehearsal :=
  let callbacks :=
    match (r.world.tab? t).bind fun tab => tab.registry? e.domain with
    | some registry => registry.listeners e.name
    | none => []
  let (world, handlers) := runCallbacks (runCallback e) callbacks (r.world, r.handlers)
  let world := world.modifyWaiters t fun w => w.record world.now e
  { r with world, handlers }

def dispatch (r : Rehearsal) (t : TabId) : Rehearsal :=
  match (r.world.tab? t).bind fun tab => tab.connection.nextEvent? with
  | some (c, e) => { r with world := r.world.modifyConnection t fun _ => c }.dispatchEvent t e
  | none => r

def receive (r : Rehearsal) (t : TabId) : Rehearsal :=
  match (r.world.tab? t).bind fun tab => tab.connection.receive? with
  | some (c, entry) =>
      { r with world := (r.world.modifyConnection t fun _ => c).noteAll entry }
  | none => r

def settle (r : Rehearsal) (t : TabId) : Rehearsal :=
  { r with world := r.world.modifyConnection t fun c => c.settle?.getD c }

/-! ## Handlers -/

def isReady (w : World) (h : HandlerRun) : Bool :=
  h.thread.result?.isSome || !h.thread.isBlocked w

/-- Takes a handler one step on; one that has ended goes away, and its failure is logged. -/
def handle (r : Rehearsal) (index : Nat) : Rehearsal :=
  match r.handlers[index]? with
  | none => r
  | some h =>
      match h.thread.result? with
      | some (.ok ()) => { r with handlers := r.handlers.eraseIdx index }
      | some (.error fault) =>
          { r with
            world := r.world.note (World.handlerFailure h fault)
            handlers := r.handlers.eraseIdx index }
      | none =>
          let (world, thread) := h.thread.step r.catalogue r.world
          { r with world, handlers := r.handlers.set index { h with thread } }

/-! ## Jobs -/

def tabsWhere (r : Rehearsal) (test : Connection → Bool) : List TabId :=
  (List.range r.world.tabs.length).filter fun t =>
    (r.world.tab? t).any fun tab => test tab.connection

/-- The jobs that there are, the most urgent first. -/
def jobs (r : Rehearsal) : List Job :=
  let ready := (List.range r.handlers.length).filter fun i =>
    (r.handlers[i]?).any (isReady r.world)
  let listening := (r.tabsWhere fun c => !c.outbox.isEmpty).filter fun t =>
    (r.debuggers[t]?).any Debugger.connected
  (r.tabsWhere fun c => c.receive?.isSome).map .receive ++
    (r.tabsWhere fun c => c.nextEvent?.isSome).map .dispatch ++
    (r.tabsWhere fun c => c.settle?.isSome).map .settle ++
    ready.map .handle ++
    listening.map .listen ++
    (if r.agenda.any (fun s => s.due ≤ r.world.now) then [.send] else []) ++
    (if r.activity.isBlocked r.world then [] else [.act])

/-- The next job: the activity's if it is its turn, or else the most urgent one. -/
def nextJob? (r : Rehearsal) : Option Job :=
  if r.acting && !r.activity.isBlocked r.world then some .act else r.jobs.head?

def act (r : Rehearsal) : Rehearsal :=
  match r with
  | ⟨catalogue, world, debuggers, agenda, handlers, activity, _, requests⟩ =>
      let (world, activity) := activity.step catalogue world
      ⟨catalogue, world, debuggers, agenda, handlers, activity, true, requests⟩

/-- The turn goes to somebody else than the activity. -/
def others (r : Rehearsal) : Rehearsal := { r with acting := false }

def perform (r : Rehearsal) : Job → Rehearsal
  | .receive t => r.others.receive t
  | .dispatch t => r.others.dispatch t
  | .settle t => r.others.settle t
  | .handle index => r.others.handle index
  | .listen t => r.others.listen t
  | .send => r.others.sendNext
  | .act => r.act

def wakes (r : Rehearsal) : List Instant :=
  r.activity.wakes ++ r.handlers.filterMap (fun h => h.thread.wake?) ++
    r.agenda.map fun s => s.due.tick

/-- Lets time pass until there is something to do. -/
def pass (r : Rehearsal) : Rehearsal :=
  match r.wakes.min? with
  | some t => { r with world := { r.world with now := max r.world.now t }, acting := true }
  | none => r

/-- Does the most urgent job, or lets time pass. -/
def step (r : Rehearsal) : Rehearsal :=
  match r.nextJob? with
  | some job => r.perform job
  | none => r.pass

def outcome? (r : Rehearsal) : Option Outcome :=
  match r.activity with
  | .finished o => some o
  | _ => none

/-- The browser closes: it lets go of its tabs, which then stop one after the other. -/
def close (r : Rehearsal) : Rehearsal :=
  let tabs := (r.world.browser.map Browser.attached).getD []
  { r with
    world := { r.world with browser := some ⟨[], none⟩ }
    activity := .stopping tabs .asking
    acting := true }

end Rehearsal

end TabPilot
