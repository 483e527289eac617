import Mathlib
import TabPilot.Proofs.Command.Options
import TabPilot.Proofs.Connection.Correlation
import TabPilot.Proofs.Connection.Dispatching
import TabPilot.Proofs.Event.WakeUp

set_option autoImplicit false

/-! # Going to a page

`go` registers a wait for the page's load event, asks for the page, waits for the reply, and then
for the event. `Voyage` is such a command on its way, with the world around it, and `Voyage.Run` a
history of what happens meanwhile: replies and other messages come in, events are dispatched, others
make requests and wait for events, time passes, and the command is resumed, in any order. The main
statement, `arrives_and_leaves_no_waiter`, says that a page that loads in time is never missed,
whichever of the two comes first, and that the command leaves no wait behind, however it ends.
-/

namespace TabPilot

/-! ## Requests of others -/

namespace Traffic

def Label.caller? : Label → Option Nat
  | .begin id _ | .enlist id | .confirm id | .write id | .finish id _ => some id
  | _ => none

variable {s s' : Traffic} {l : Label} {id : Nat}

/-- What a connection holds of a request: whether it is pending, and its outcome. -/
def SameRequest (id : Nat) (c c' : Connection) : Prop :=
  c'.pending.lookup id = c.pending.lookup id ∧ c'.outcomes.lookup id = c.outcomes.lookup id

theorem lookup_concat_ne {α : Type} (entries : List (Nat × α)) {other : Nat} (v : α)
    (hne : other ≠ id) : (entries ++ [(other, v)]).lookup id = entries.lookup id := by
  rw [List.lookup_append, Record.lookup_cons_ite, if_neg (Ne.symm hne)]
  exact Option.or_none

theorem sameRequest_release (c : Connection) {other : Nat} (hne : other ≠ id) :
    SameRequest id c (c.release other) :=
  ⟨(Record.lookup_filter_ne other id c.pending).trans (if_neg (Ne.symm hne)),
    (Record.lookup_filter_ne other id c.outcomes).trans (if_neg (Ne.symm hne))⟩

theorem sameRequest_resolve (c : Connection) {other : Nat} (outcome : Except Error Value)
    (hne : other ≠ id) : SameRequest id c (c.resolve other outcome) :=
  ⟨(Record.lookup_filter_ne other id c.pending).trans (if_neg (Ne.symm hne)),
    lookup_concat_ne _ _ hne⟩

theorem SameRequests.sameRequest {c c' : Connection} (same : SameRequests c c') :
    SameRequest id c c' :=
  ⟨by rw [same.pending], by rw [same.outcomes]⟩

/-- A message that is no reply to a request leaves it alone. -/
theorem sameRequest_handle (c : Connection) {m : Value} (other : repliedId? m ≠ some id) :
    SameRequest id c (c.handle m).1 := by
  rcases handle_cases c m with
    ⟨id', members, method, rfl, -, hreplied, -, hconn⟩ | ⟨-, events, hconn⟩
  · rw [hconn]
    exact sameRequest_resolve c _ fun heq => other (heq ▸ hreplied)
  · rw [hconn]
    exact ⟨rfl, rfl⟩

/-- Nobody but its caller takes part in a request that a step does not resolve. -/
theorem Step.sameRequest (step : Step s l s') (others : l.caller? ≠ some id)
    (unresolved : ¬ l.Resolves id) : SameRequest id s.connection s'.connection := by
  have hne {other : Nat} (h : some other ≠ some id) : other ≠ id := fun heq => h (congrArg some heq)
  cases step with
  | refuse | arrive | endInbox | breakPipe | read | markClosed | shut => exact ⟨rfl, rfl⟩
  | begin r taken =>
      obtain ⟨-, rfl⟩ := takeId?_eq_ok taken
      exact ⟨rfl, rfl⟩
  | enlist there => exact ⟨lookup_concat_ne _ _ (hne others), rfl⟩
  | confirm there inTime =>
      obtain ⟨-, rfl⟩ := confirm_eq_ok inTime
      exact ⟨rfl, rfl⟩
  | tooLate there late =>
      rw [moveTo_connection, confirm_eq_error late]
      exact sameRequest_release _ (hne others)
  | write now there expects written | post there expects written =>
      exact (sameRequests_of_write written).sameRequest
  | failWrite e there => exact sameRequest_release _ (hne others)
  | collect now there found => exact sameRequest_release _ (hne others)
  | handle receiving isOpen goesOn next =>
      exact sameRequest_handle { s.connection with inbox := _ } unresolved
  | ask => exact (sameRequests_askToStop _).sameRequest
  | failPending receiving closed => exact absurd trivial unresolved
  | dispatch next => exact (sameRequests_of_nextEvent? next).sameRequest
  | settle settled => exact (sameRequests_of_settle? settled).sameRequest

/-- An outcome stays until its caller takes it. -/
theorem Step.outcome_stays (step : Step s l s') (others : l.caller? ≠ some id)
    {outcome : Except Error Value} (h : s.connection.outcomes.lookup id = some outcome) :
    s'.connection.outcomes.lookup id = some outcome := by
  have hkept (more : List (Nat × Except Error Value)) :
      (s.connection.outcomes ++ more).lookup id = some outcome := by
    rw [List.lookup_append, h, Option.some_or]
  by_cases hresolves : l.Resolves id
  · cases step with
    | handle receiving isOpen goesOn next =>
        rename_i m rest
        rcases handle_cases { s.connection with inbox := rest } m with
          ⟨id', members, method, rfl, -, -, -, hconn⟩ | ⟨-, events, hconn⟩
        · rw [withConnection, hconn]
          exact hkept _
        · rw [withConnection, hconn]
          exact h
    | failPending receiving closed => exact hkept _
    | tooLate | post | failWrite | collect => exact absurd (congrArg some hresolves) others
    | _ => exact hresolves.elim
  · rw [(step.sameRequest others hresolves).2]
    exact h

/-- A reply with a result gives a pending request its outcome. -/
theorem Step.outcome_of_reply {members : Record Value} {method : String} {result : Value}
    (step : Step s (.handle (.object members)) s')
    (pending : s.connection.pending.lookup id = some method)
    (unanswered : s.connection.outcomes.lookup id = none)
    (hasId : members.get? "id" = some (.int id)) (clean : members.get? "error" = none)
    (hasResult : members.get? "result" = some result) :
    s'.connection.outcomes.lookup id = some (.ok result) := by
  have hmessage : Inbound.ofMessage (.object members) = .reply id members := by
    simp [Inbound.ofMessage, hasId, Value.unsigned?]
  have hresult : Inbound.resultOf method members = .ok result := by
    simp [Inbound.resultOf, clean, hasResult]
  cases step with
  | handle receiving isOpen goesOn next =>
      simp only [withConnection, Connection.handle, hmessage, pending, hresult]
      show (s.connection.outcomes ++ [(id, Except.ok result)]).lookup id = _
      rw [List.lookup_append, unanswered, Option.none_or]
      simp

end Traffic

/-! ## Histories -/

/-- A navigation on its way: the world, what has happened to the waiters of its tab, and how far
the command has come. -/
structure Voyage where
  world : World
  waits : Waiters.History
  progress : Progress

namespace Voyage

/-- What a navigation has to itself: its tab, the id of its request, and its wait for the page to
load. -/
structure Ticket where
  tab : TabId
  request : Nat
  wait : PendingWait

inductive Action
  /-- A task takes a step on the tab's connection, or somebody who makes another request. -/
  | traffic (l : Traffic.Label)
  /-- The waiters of the tab are told of an event, or somebody else waits for one. -/
  | waiters (a : Waiters.Action)
  /-- Time passes, or something happens that has to do with neither. -/
  | elsewhere
  /-- The command is resumed. -/
  | resume

/-- What has happened so far and when, first things first. -/
abbrev History := List (Instant × Action)

/-- What the end of a command leaves in the history of the waiters: it gives up its wait. -/
def givenUp (p : PendingWait) : Progress → Waiters.History
  | .finished _ => [.drop p]
  | .waiting _ => []

/-- What may happen next. Who else has made requests is left open; they only have no hand in this
one, and nobody else ends its wait. -/
inductive Step (k : Ticket) (s : Voyage) : Action → Voyage → Prop
  | traffic {t : Tab} {c : Connection} {calls calls' : Nat → Option Traffic.Call}
      {l : Traffic.Label} (there : s.world.tab? k.tab = some t)
      (others : l.caller? ≠ some k.request)
      (step : Traffic.Step ⟨t.connection, calls⟩ l ⟨c, calls'⟩) :
      Step k s (.traffic l) { s with world := s.world.modifyConnection k.tab fun _ => c }
  | waiters {t : Tab} {w : Waiters} {a : Waiters.Action} (there : s.world.tab? k.tab = some t)
      (others : a.ends k.wait.id = false) (step : Waiters.Step s.waits t.waiters a w) :
      Step k s (.waiters a)
        ⟨s.world.modifyWaiters k.tab fun _ => w, s.waits ++ [a], s.progress⟩
  | elsewhere {w : World} {t t' : Tab} (later : s.world.now ≤ w.now)
      (there : s.world.tab? k.tab = some t) (there' : w.tab? k.tab = some t')
      (connection : t'.connection = t.connection) (waiters : t'.waiters = t.waiters) :
      Step k s .elsewhere { s with world := w }
  | resume {op : Operation} {w : World} {progress : Progress} (waiting : s.progress = .waiting op)
      (resumed : op.resume? s.world = some (w, progress)) :
      Step k s .resume ⟨w, s.waits ++ givenUp k.wait progress, progress⟩

inductive Run (k : Ticket) (s₀ : Voyage) : History → Voyage → Prop
  | start : Run k s₀ [] s₀
  | snoc {h : History} {s s' : Voyage} {a : Action} (before : Run k s₀ h s) (step : Step k s a s') :
      Run k s₀ (h ++ [(s.world.now, a)]) s'

/-- What is needed for a navigation that waits for its page: a tab whose connection and waiters
have come to where they are by steps of theirs. -/
structure Starts (w : World) (i : Invocation) (n : Core.Navigation) (t : Tab)
    (waits : Waiters.History) : Prop where
  asked : Core.Asks w i n
  waitsForLoad : n.waits = true
  there : w.tab? n.tab = some t
  connection : ∃ replyTimeout h calls, Traffic.Run replyTimeout h ⟨t.connection, calls⟩
  waiters : Waiters.Run waits t.waiters

def ticket (w : World) (n : Core.Navigation) (t : Tab) : Ticket :=
  ⟨n.tab, t.connection.lastId + 1, ⟨Core.loadEvent, t.waiters.nextId, w.now⟩⟩

def begin (w : World) (i : Invocation) (n : Core.Navigation) (t : Tab) (waits : Waiters.History) :
    Voyage :=
  ⟨(Core.go w i).1, waits ++ .register ⟨(ticket w n t).wait, []⟩ ::
    givenUp (ticket w n t).wait (Core.go w i).2, (Core.go w i).2⟩

/-! ## What a history shows -/

/-- Whether an action decides what becomes of a request: it resolves it, or the command is
resumed, which takes an outcome or gives the request up. -/
def Action.Decides (request : Nat) : Action → Prop
  | .traffic l => l.Resolves request
  | .resume => True
  | .waiters _ | .elsewhere => False

/-- A request is decided by a reply with a result, which is handled at some time. -/
def Replied (request : Nat) (h : History) (time : Instant) (result : Value) : Prop :=
  ∃ past members future, h = past ++ (time, .traffic (.handle (.object members))) :: future ∧
    (∀ entry ∈ past, ¬ entry.2.Decides request) ∧ members.get? "id" = some (.int request) ∧
    members.get? "error" = none ∧ members.get? "result" = some result

/-- The waiters are told at some time that a page has loaded. -/
def Loaded (h : History) (time : Instant) : Prop :=
  ∃ e : Event, e.name = Core.loadEvent ∧ (time, .waiters (.record e)) ∈ h

/-- What others did with the waiters, and the events these were told of. -/
def others (h : History) : Waiters.History :=
  h.filterMap fun entry =>
    match entry.2 with
    | .waiters a => some a
    | _ => none

/-- A command comes to an end without having to wait any more. -/
inductive Finishes : World → Progress → Except Error Value → Prop
  | finished {w : World} {r : Except Error Value} : Finishes w (.finished r) r
  | resumed {w w' : World} {op : Operation} {progress : Progress} {r : Except Error Value}
      (resumed : op.resume? w = some (w', progress)) (rest : Finishes w' progress r) :
      Finishes w (.waiting op) r

section

variable {h : History} {time time' : Instant} {a : Action} {request : Nat} {result : Value}

theorem replied_snoc (replied : Replied request (h ++ [(time', a)]) time result) :
    Replied request h time result ∨
      (∀ entry ∈ h, ¬ entry.2.Decides request) ∧ time = time' ∧
        ∃ members, a = .traffic (.handle (.object members)) ∧
          members.get? "id" = some (.int request) ∧ members.get? "error" = none ∧
          members.get? "result" = some result := by
  obtain ⟨past, members, future, heq, hpast, hreply⟩ := replied
  rcases History.at_end_or_before heq.symm with ⟨-, rfl, hlast⟩ | ⟨future', -, hbefore⟩
  · cases hlast
    exact .inr ⟨hpast, rfl, members, rfl, hreply⟩
  · exact .inl ⟨past, members, future', hbefore.symm, hpast, hreply⟩

/-- What is decided is not decided again. -/
theorem Replied.of_snoc (replied : Replied request (h ++ [(time', a)]) time result)
    (decided : (∃ entry ∈ h, entry.2.Decides request) ∨ ∀ m, a ≠ .traffic (.handle m)) :
    Replied request h time result := by
  rcases replied_snoc replied with hold | ⟨hnone, -, members, rfl, -⟩
  · exact hold
  · rcases decided with ⟨entry, hmem, hdecides⟩ | hother
    · exact absurd hdecides (hnone entry hmem)
    · exact absurd rfl (hother _)

theorem Replied.mem (replied : Replied request h time result) :
    ∃ entry ∈ h, entry.1 = time := by
  obtain ⟨past, members, future, rfl, -⟩ := replied
  exact ⟨_, List.mem_append_right _ List.mem_cons_self, rfl⟩

theorem loaded_snoc (loaded : Loaded (h ++ [(time', a)]) time) :
    Loaded h time ∨ time = time' := by
  obtain ⟨e, he, hmem⟩ := loaded
  rcases List.mem_append.mp hmem with hold | hnew
  · exact .inl ⟨e, he, hold⟩
  · rw [List.mem_singleton] at hnew
    exact .inr (congrArg Prod.fst hnew)

theorem others_snoc : others (h ++ [(time', a)]) =
    others h ++ match a with
      | .waiters a => [a]
      | _ => [] := by
  rw [others, List.filterMap_append]
  cases a <;> rfl

end

/-! ## The wait of the command -/

/-- How things stand with the waiters after a history of theirs, for a command that registered a
wait after `before`, since when the others did `theirs`. -/
structure Held (p : PendingWait) (before theirs : Waiters.History) (alive : Prop)
    (H : Waiters.History) (w : Waiters) : Prop where
  run : Waiters.Run H w
  /-- The wait has seen all events since, whether or not it is still alive. -/
  own : ∃ x ∈ Waiters.watches H, x.registration = ⟨p, []⟩ ∧ (x.isAlive = true ↔ alive) ∧
    Waiters.recorded x.since = Waiters.recorded theirs
  /-- But for this wait, the waiters are those of the others. -/
  rest : ∀ name, (Waiters.openFor H name).filter (fun r => r.wait.id ≠ p.id) =
    Waiters.openFor (before ++ theirs) name

namespace Held

variable {p : PendingWait} {before theirs H : Waiters.History} {alive : Prop} {w w' : Waiters}
  {a : Waiters.Action}

theorem of_iff (held : Held p before theirs alive H w) {alive' : Prop} (iff : alive ↔ alive') :
    Held p before theirs alive' H w := propext iff ▸ held

theorem begun_eq_nextId (step : Waiters.Step H w a w') : ∀ y ∈ a.begun, y.id = w.nextId := by
  intro y hy
  cases step with
  | register now name criteria =>
      obtain rfl := List.mem_singleton.mp hy
      rfl
  | _ => cases hy

/-- What the command itself does at the waiters does not concern the others. -/
theorem rest_own {name : String} {id : Nat} (own : ∀ y ∈ a.begun, y.id = id)
    (spares : ∀ r : Waiters.Registration, r.wait.id ≠ id → a.spares r = true) :
    (Waiters.openFor (H ++ [a]) name).filter (fun r => r.wait.id ≠ id) =
      (Waiters.openFor H name).filter fun r => r.wait.id ≠ id := by
  have hbegun : ((a.begun.map Waiters.Watch.registration).filter
      fun r => r.wait.name == name).filter (fun r => r.wait.id ≠ id) = [] := by
    refine List.filter_eq_nil_iff.mpr fun r hr => ?_
    obtain ⟨y, hy, rfl⟩ := List.mem_map.mp (List.mem_filter.mp hr).1
    simpa [Waiters.Watch.id] using own y hy
  rw [Waiters.openFor_snoc, List.filter_append, hbegun, List.append_nil, List.filter_filter]
  refine List.filter_congr fun r _ => ?_
  by_cases hid : r.wait.id = id
  · simp [hid]
  · simp [hid, spares r hid]

theorem register (run : Waiters.Run H w) (now : Instant) (name : String) :
    Held (w.register now name []).2 H [] True (H ++ [.register ⟨(w.register now name []).2, []⟩])
      (w.register now name []).1 where
  run := run.snoc (.register now name [])
  own := by
    refine ⟨⟨⟨(w.register now name []).2, []⟩, []⟩, ?_, rfl, iff_of_true rfl trivial, rfl⟩
    rw [Waiters.watches_snoc]
    exact List.mem_append_right _ List.mem_cons_self
  rest other := by
    rw [List.append_nil, rest_own (fun y hy => ?_) fun r _ => rfl]
    · refine List.filter_eq_self.mpr fun r hr => decide_eq_true ?_
      -- The id is new.
      obtain ⟨x, hx, -, rfl, -⟩ := Waiters.mem_openFor.mp hr
      exact Nat.ne_of_lt (run.kept.fresh x hx)
    · obtain rfl := List.mem_singleton.mp hy
      rfl

/-- The others go on among themselves. -/
theorem snoc (held : Held p before theirs alive H w) (spared : a.ends p.id = false)
    (step : Waiters.Step H w a w') : Held p before (theirs ++ [a]) alive (H ++ [a]) w' where
  run := held.run.snoc step
  own := by
    obtain ⟨x, hx, hreg, halive, hsince⟩ := held.own
    refine ⟨x.andThen a, ?_, hreg, ?_, ?_⟩
    · rw [Waiters.watches_snoc]
      exact List.mem_append_left _ (List.mem_map_of_mem hx)
    · have hid : x.id = p.id := by rw [Waiters.Watch.id, hreg]
      rw [Waiters.Watch.isAlive_andThen, hid, spared, Bool.not_false, Bool.and_true]
      exact halive
    · rw [Waiters.Watch.andThen, Waiters.recorded, Waiters.recorded, List.filterMap_append,
        List.filterMap_append]
      exact congrArg (· ++ _) hsince
  rest name := by
    have hbegun : ((a.begun.map Waiters.Watch.registration).filter
        fun r => r.wait.name == name).filter (fun r => r.wait.id ≠ p.id) =
        (a.begun.map Waiters.Watch.registration).filter fun r => r.wait.name == name := by
      refine List.filter_eq_self.mpr fun r hr => decide_eq_true ?_
      -- Whoever registers gets another id than the wait has, which is an older one.
      obtain ⟨y, hy, rfl⟩ := List.mem_map.mp (List.mem_filter.mp hr).1
      obtain ⟨x, hx, hreg, -⟩ := held.own
      have hid : x.id = p.id := by rw [Waiters.Watch.id, hreg]
      have hlt := held.run.kept.fresh x hx
      have hnew : y.registration.wait.id = w.nextId := begun_eq_nextId step y hy
      omega
    rw [← List.append_assoc, Waiters.openFor_snoc, Waiters.openFor_snoc, List.filter_append,
      hbegun, ← held.rest name, List.filter_comm]

/-- The command gives up its wait. -/
theorem drop (held : Held p before theirs alive H w) (isAlive : alive) {alive' : Prop}
    (ended : ¬ alive') : Held p before theirs alive' (H ++ [.drop p]) (w.withdraw p) where
  run := by
    obtain ⟨x, hx, hreg, halive, -⟩ := held.own
    have hwait : x.registration.wait = p := by rw [hreg]
    have hstep := Waiters.Step.drop (w := w) hx (halive.mpr isAlive)
    rw [hwait] at hstep
    exact held.run.snoc hstep
  own := by
    obtain ⟨x, hx, hreg, -, hsince⟩ := held.own
    refine ⟨x.andThen (.drop p), ?_, hreg, ?_, ?_⟩
    · rw [Waiters.watches_snoc]
      exact List.mem_append_left _ (List.mem_map_of_mem hx)
    · have hid : p.id = x.id := by rw [Waiters.Watch.id, hreg]
      simp [Waiters.Watch.isAlive_andThen, Waiters.Action.ends, hid, ended]
    · rw [Waiters.Watch.andThen, Waiters.recorded, List.filterMap_append]
      exact (List.append_nil _).trans hsince
  rest name := by
    rw [← held.rest name]
    refine rest_own (fun y hy => by cases hy) fun r hr => ?_
    simp [Waiters.Action.spares, Waiters.Action.ends, Waiters.Action.event?, Ne.symm hr]

/-- As long as the wait is alive, it holds the first event of its name. -/
theorem event?_eq (held : Held p before theirs alive H w) (isAlive : alive)
    (named : p.name ≠ anyEvent) :
    w.event? p = (Waiters.recorded theirs).find? fun e => e.name = p.name := by
  obtain ⟨x, hx, hreg, halive, hsince⟩ := held.own
  have hanswer := held.run.kept.answered x hx (halive.mpr isAlive)
  have hwants : x.registration.wants = fun e => decide (e.name = p.name) := by
    funext e
    rw [hreg]
    simp [Waiters.Registration.wants, Waiters.reaches, Event.meetsAll, named, eq_comm]
  rw [hreg] at hanswer
  rw [hanswer, Waiters.Watch.answer?, hwants, hsince]

/-- Once the wait has ended, only the others wait. -/
theorem waitersFor_eq (held : Held p before theirs alive H w) (ended : ¬ alive) (name : String) :
    w.waitersFor name =
      (Waiters.openFor (before ++ theirs) name).map Waiters.Registration.waiter := by
  rw [held.run.kept.waiting, ← held.rest name]
  congr 1
  refine (List.filter_eq_self.mpr fun r hr => decide_eq_true ?_).symm
  obtain ⟨y, hy, hopen, rfl, -⟩ := Waiters.mem_openFor.mp hr
  obtain ⟨x, hx, hreg, halive, -⟩ := held.own
  intro hid
  have hsame : y = x := held.run.kept.eq_of_id_eq hy hx (by
    rw [Waiters.Watch.id, hid, Waiters.Watch.id, hreg])
  rw [hsame] at hopen
  exact ended (halive.mp (Waiters.Watch.isOpen_iff.mp hopen).1)

end Held

/-! ## What the command does -/

section

variable {w w' : World} {t : Tab} {tab : TabId} {p : PendingWait} {method url : String}
  {timeout since : Duration} {progress : Progress}

/-- A request that is sent is pending under the next id, or the call has failed. -/
theorem call_cases (method : String) (params : Value) (there : w.tab? tab = some t)
    (next : AfterReply) :
    (∃ c e, w.call tab method params none next =
        (w.modifyConnection tab fun _ => c).failCall tab next e) ∨
      ∃ c, w.call tab method params none next =
          (w.modifyConnection tab fun _ => c, .waiting (.reply
            ⟨tab, t.connection.lastId + 1, method, w.now, c.replyTimeout⟩ next)) ∧
        c.pending = t.connection.pending ++ [(t.connection.lastId + 1, method)] ∧
        c.outcomes = t.connection.outcomes := by
  rw [World.call, there]
  simp only
  -- The request can fail while an id is taken or while the message is written.
  cases htake : t.connection.takeId? with
  | error e =>
      have hsend : t.connection.send method params true = (t.connection, .error e) := by
        simp [Connection.send, Connection.register, htake]
      rw [hsend]
      exact .inl ⟨_, e, rfl⟩
  | ok taken =>
      obtain ⟨c, id⟩ := taken
      obtain ⟨rfl, rfl⟩ := Traffic.takeId?_eq_ok htake
      have hopen : t.connection.closed = false := by
        rw [Connection.takeId?] at htake
        split at htake
        · cases htake
        · next h => simpa using h
      rw [Connection.send, Traffic.register_of_takeId method true htake hopen]
      simp only [if_true]
      cases hwrite : Connection.write _
          (Connection.message (t.connection.lastId + 1) method params) with
      | error e => exact .inl ⟨_, e, rfl⟩
      | ok written =>
          have hsame := Traffic.sameRequests_of_write hwrite
          exact .inr ⟨written, rfl, hsame.pending, hsame.outcomes⟩

/-- A navigation that has failed gives up its wait. -/
theorem failCall_navigation (e : Error) :
    w.failCall tab (.navigation url (some p) timeout) e =
      (w.modifyWaiters tab fun waiters => waiters.withdraw p, .error e) := rfl

def released (w : World) (tab : TabId) (id : Nat) : World :=
  w.modifyConnection tab fun c => c.release id

/-- What a navigation does once its request is decided: it begins to wait for the event with a
reply that is no failure, or it fails and gives up its wait. -/
theorem resume_reply {id : Nat} {limit : Duration} (there : w.tab? tab = some t)
    (resumed : Operation.resume? w (.reply ⟨tab, id, method, since, limit⟩
      (.navigation url (some p) timeout)) = some (w', progress)) :
    (∃ v, t.connection.outcomes.lookup id = some (.ok v) ∧ World.navigationError? v = none ∧
        w' = released w tab id ∧ progress = .waiting (.wait tab (.event p w.now timeout)
          (some (Reply.toValue ⟨id, method, v⟩)))) ∨
      (∃ e, progress = .error e) ∧
        w' = (released w tab id).modifyWaiters tab (fun waiters => waiters.withdraw p) ∧
        ∀ v, t.connection.outcomes.lookup id = some (.ok v) → World.navigationError? v ≠ none := by
  simp only [Operation.resume?, there, Option.map_eq_some_iff] at resumed
  obtain ⟨outcome, houtcome, hresumed⟩ := resumed
  rw [Connection.outcome?] at houtcome
  -- An answer is looked for first, and only then how late it is.
  cases hlookup : t.connection.outcomes.lookup id with
  | none =>
      simp only [hlookup] at houtcome
      split at houtcome
      · cases houtcome
        cases hresumed
        exact .inr ⟨⟨_, rfl⟩, rfl, fun _ h => by cases h⟩
      · cases houtcome
  | some decided =>
      cases decided with
      | error e =>
          simp only [hlookup, Option.some.injEq] at houtcome
          subst houtcome
          cases hresumed
          exact .inr ⟨⟨_, rfl⟩, rfl, fun _ h => by cases h⟩
      | ok v =>
          simp only [hlookup, Option.some.injEq] at houtcome
          subst houtcome
          simp only [World.afterReply] at hresumed
          cases hfailed : World.navigationError? v with
          | some text =>
              simp only [hfailed] at hresumed
              cases hresumed
              refine .inr ⟨⟨_, rfl⟩, rfl, fun v' hv' => ?_⟩
              cases hv'
              rw [hfailed]
              exact Option.some_ne_none _
          | none =>
              simp only [hfailed] at hresumed
              cases hresumed
              exact .inl ⟨v, rfl, hfailed, rfl, rfl⟩

/-- How a wait for the page ends: with the event, or too late. -/
theorem resume_wait {v : Value} (there : w.tab? tab = some t)
    (resumed : Operation.resume? w (.wait tab (.event p since timeout) (some v)) =
      some (w', progress)) :
    w' = w.modifyWaiters tab (fun _ => t.waiters.withdraw p) ∧
      (progress = .ok v ∨
        (∃ e, progress = .error e) ∧ t.waiters.event? p = none ∧ since + timeout ≤ w.now) := by
  simp only [Operation.resume?, there, Wait.look?, Option.map_map,
    Option.map_eq_some_iff] at resumed
  obtain ⟨outcome, houtcome, hresumed⟩ := resumed
  rw [Waiters.outcome?] at houtcome
  cases hevent : t.waiters.event? p with
  | some e =>
      simp only [hevent, Option.some.injEq] at houtcome
      subst houtcome
      cases hresumed
      exact ⟨rfl, .inl rfl⟩
  | none =>
      simp only [hevent] at houtcome
      split at houtcome
      · next late =>
          cases houtcome
          cases hresumed
          exact ⟨rfl, .inr ⟨⟨_, rfl⟩, rfl, late⟩⟩
      · cases houtcome

/-- A wait whose event has come ends at once. -/
theorem finishes_of_event {v : Value} {e : Event} (there : w.tab? tab = some t)
    (filled : t.waiters.event? p = some e) :
    Finishes w (.waiting (.wait tab (.event p since timeout) (some v))) (.ok v) := by
  have hresumed : (Operation.wait tab (.event p since timeout) (some v)).resume? w =
      some (w.modifyWaiters tab fun _ => t.waiters.withdraw p, .ok v) := by
    simp only [Operation.resume?, there, Wait.look?, Waiters.outcome?, filled]
    rfl
  exact .resumed hresumed .finished

/-- A navigation with a reply that is no failure, and whose event has come, ends at once. -/
theorem finishes_of_reply {id : Nat} {limit : Duration} {v : Value} {e : Event}
    (there : w.tab? tab = some t) (answered : t.connection.outcomes.lookup id = some (.ok v))
    (clean : World.navigationError? v = none) (filled : t.waiters.event? p = some e) :
    Finishes w (.waiting (.reply ⟨tab, id, method, since, limit⟩
      (.navigation url (some p) timeout))) (.ok (Reply.toValue ⟨id, method, v⟩)) := by
  have hresumed : (Operation.reply ⟨tab, id, method, since, limit⟩
      (.navigation url (some p) timeout)).resume? w = some (released w tab id,
        .waiting (.wait tab (.event p w.now timeout) (some (Reply.toValue ⟨id, method, v⟩)))) := by
    simp only [Operation.resume?, there, Connection.outcome?, answered, Option.map_some,
      World.afterReply, clean]
    rfl
  exact .resumed hresumed
    (finishes_of_event (t := { t with connection := t.connection.release id })
      (Delivery.tab?_modifyTab there _) filled)

end

/-! ## What always holds -/

def Ticket.reply (k : Ticket) (result : Value) : Value :=
  Reply.toValue ⟨k.request, "Page.navigate", result⟩

/-- The outcome of a request as long as its caller waits for it. -/
structure Undecided (k : Ticket) (h : History) (c : Connection) : Prop where
  pending : (∀ entry ∈ h, ¬ entry.2.Decides k.request) →
    c.pending.lookup k.request = some "Page.navigate" ∧ c.outcomes.lookup k.request = none
  answered : ∀ time result, Replied k.request h time result →
    c.outcomes.lookup k.request = some (.ok result)

/-- How far a navigation has come, at some time after some history, and what it may end with: once
it was sent, it has succeeded at the end, or time is up and no page has loaded before. -/
inductive Course (k : Ticket) (n : Core.Navigation) (sent : Prop) (h : History) (now : Instant)
    (c : Connection) : Progress → Prop
  | asked {since : Instant} {limit : Duration} (undecided : Undecided k h c) :
      Course k n sent h now c (.waiting (.reply ⟨k.tab, k.request, "Page.navigate", since, limit⟩
        (.navigation n.url (some k.wait) n.timeout)))
  | loading {since : Instant} {result : Value} (decided : ∃ entry ∈ h, entry.2.Decides k.request)
      (replied : ∀ time result', Replied k.request h time result' →
        result' = result ∧ time ≤ since) :
      Course k n sent h now c (.waiting (.wait k.tab (.event k.wait since n.timeout)
        (some (k.reply result))))
  | ended {r : Except Error Value}
      (decided : sent → ∃ entry ∈ h, entry.2.Decides k.request)
      (met : sent → ∀ time result, Replied k.request h time result →
        World.navigationError? result = none → r = .ok (k.reply result) ∨
          time + n.timeout ≤ now ∧ ∀ loaded, Loaded h loaded → time + n.timeout ≤ loaded) :
      Course k n sent h now c (.finished r)

/-- What holds of a navigation that began after the waiters' history `waits`. -/
structure Kept (k : Ticket) (n : Core.Navigation) (sent : Prop) (waits : Waiters.History)
    (h : History) (s : Voyage) (t : Tab) : Prop where
  there : s.world.tab? k.tab = some t
  past : ∀ entry ∈ h, entry.1 ≤ s.world.now
  held : Held k.wait waits (others h) (∃ op, s.progress = .waiting op) s.waits t.waiters
  course : Course k n sent h s.world.now t.connection s.progress

/-! ### The course of the command -/

section

variable {k : Ticket} {n : Core.Navigation} {sent : Prop} {h : History} {now time now' : Instant}
  {c c' : Connection} {progress : Progress} {a : Action}

/-- Something else happens. -/
theorem Course.snoc (course : Course k n sent h now c progress) (after : now ≤ time)
    (later : now ≤ now') (undecided : Undecided k h c → Undecided k (h ++ [(time, a)]) c') :
    Course k n sent (h ++ [(time, a)]) now' c' progress := by
  have hold (decided : ∃ entry ∈ h, entry.2.Decides k.request) :
      ∃ entry ∈ h ++ [(time, a)], entry.2.Decides k.request := by
    obtain ⟨entry, hmem, hdecides⟩ := decided
    exact ⟨entry, List.mem_append_left _ hmem, hdecides⟩
  cases course with
  | asked hundecided => exact .asked (undecided hundecided)
  | loading decided replied =>
      exact .loading (hold decided) fun time' result' hreplied =>
        replied time' result' (hreplied.of_snoc (.inl decided))
  | ended decided met =>
      refine .ended (fun hsent => hold (decided hsent)) ?_
      intro hsent time' result hreplied clean
      rcases met hsent time' result (hreplied.of_snoc (.inl (decided hsent))) clean with
        hok | ⟨hup, hnone⟩
      · exact .inl hok
      · refine .inr ⟨Nat.le_trans hup later, fun loaded hloaded => ?_⟩
        rcases loaded_snoc hloaded with hbefore | rfl
        · exact hnone loaded hbefore
        · exact Nat.le_trans hup after

theorem Undecided.snoc (undecided : Undecided k h c)
    (silent : ∀ m, a ≠ .traffic (.handle m)) : Undecided k (h ++ [(time, a)]) c where
  pending hnone := undecided.pending fun entry hmem => hnone entry (List.mem_append_left _ hmem)
  answered time' result hreplied :=
    undecided.answered time' result (hreplied.of_snoc (.inr silent))

theorem Undecided.traffic (undecided : Undecided k h c) {calls calls' : Nat → Option Traffic.Call}
    {l : Traffic.Label} (others : l.caller? ≠ some k.request)
    (step : Traffic.Step ⟨c, calls⟩ l ⟨c', calls'⟩) :
    Undecided k (h ++ [(time, .traffic l)]) c' where
  pending hnone := by
    have hidle : ¬ l.Resolves k.request := hnone _ (List.mem_append_right _ List.mem_cons_self)
    obtain ⟨hpending, houtcome⟩ := undecided.pending fun entry hmem =>
      hnone entry (List.mem_append_left _ hmem)
    obtain ⟨hsame, hsame'⟩ := step.sameRequest others hidle
    exact ⟨hsame.trans hpending, hsame'.trans houtcome⟩
  answered time' result hreplied := by
    rcases replied_snoc hreplied with hold | ⟨hnone, -, members, heq, hid, herror, hresult⟩
    · exact step.outcome_stays others (undecided.answered time' result hold)
    · obtain ⟨hpending, houtcome⟩ := undecided.pending hnone
      cases heq
      exact step.outcome_of_reply hpending houtcome hid herror hresult

end

namespace Kept

variable {k : Ticket} {n : Core.Navigation} {sent : Prop} {waits : Waiters.History} {h : History}
  {s s' : Voyage} {t : Tab}

theorem past_snoc {a : Action} {now : Instant} (kept : Kept k n sent waits h s t)
    (later : s.world.now ≤ now) : ∀ entry ∈ h ++ [(s.world.now, a)], entry.1 ≤ now := by
  intro entry hmem
  rcases List.mem_append.mp hmem with hold | hnew
  · exact Nat.le_trans (kept.past entry hold) later
  · rw [List.mem_singleton.mp hnew]
    exact later

theorem traffic (kept : Kept k n sent waits h s t) {c : Connection}
    {calls calls' : Nat → Option Traffic.Call} {l : Traffic.Label}
    (others : l.caller? ≠ some k.request)
    (step : Traffic.Step ⟨t.connection, calls⟩ l ⟨c, calls'⟩) :
    Kept k n sent waits (h ++ [(s.world.now, .traffic l)])
      { s with world := s.world.modifyConnection k.tab fun _ => c }
      { t with connection := c } where
  there := Delivery.tab?_modifyTab kept.there _
  past := kept.past_snoc (Nat.le_refl _)
  held := by
    rw [others_snoc, List.append_nil]
    exact kept.held
  course := kept.course.snoc (Nat.le_refl _) (Nat.le_refl _) fun undecided =>
    undecided.traffic others step

theorem elsewhere (kept : Kept k n sent waits h s t) {w : World} {t' : Tab}
    (later : s.world.now ≤ w.now) (there : w.tab? k.tab = some t')
    (connection : t'.connection = t.connection) (waiters : t'.waiters = t.waiters) :
    Kept k n sent waits (h ++ [(s.world.now, .elsewhere)]) { s with world := w } t' where
  there := there
  past := kept.past_snoc later
  held := by
    rw [others_snoc, List.append_nil, waiters]
    exact kept.held
  course := by
    rw [connection]
    exact kept.course.snoc (Nat.le_refl _) later fun undecided => undecided.snoc nofun

theorem waiters (kept : Kept k n sent waits h s t) {w : Waiters} {a : Waiters.Action}
    (spared : a.ends k.wait.id = false) (step : Waiters.Step s.waits t.waiters a w) :
    Kept k n sent waits (h ++ [(s.world.now, .waiters a)])
      ⟨s.world.modifyWaiters k.tab fun _ => w, s.waits ++ [a], s.progress⟩
      { t with waiters := w } where
  there := Delivery.tab?_modifyTab kept.there _
  past := kept.past_snoc (Nat.le_refl _)
  held := by
    rw [others_snoc]
    exact kept.held.snoc spared step
  course := kept.course.snoc (Nat.le_refl _) (Nat.le_refl _) fun undecided => undecided.snoc nofun

/-! ### The command is resumed -/

/-- A wait for the page that has loaded is filled. -/
theorem exists_event (kept : Kept k n sent waits h s t) {op : Operation}
    (waiting : s.progress = .waiting op) (name : k.wait.name = Core.loadEvent) {time : Instant}
    (loaded : Loaded h time) : ∃ e, t.waiters.event? k.wait = some e := by
  obtain ⟨e, hname, hmem⟩ := loaded
  have hothers : .record e ∈ others h := List.mem_filterMap.mpr ⟨_, hmem, rfl⟩
  have hrecorded : e ∈ Waiters.recorded (others h) := List.mem_filterMap.mpr ⟨_, hothers, rfl⟩
  rw [kept.held.event?_eq ⟨op, waiting⟩ (by rw [name]; decide), ← Option.isSome_iff_exists,
    List.find?_isSome]
  exact ⟨e, hrecorded, decide_eq_true (hname.trans name.symm)⟩

/-- The command has ended. -/
theorem giveUp (kept : Kept k n sent waits h s t) {op : Operation}
    (waiting : s.progress = .waiting op) {w : World} {t' : Tab} {r : Except Error Value}
    (same : w.now = s.world.now) (there : w.tab? k.tab = some t')
    (waiters : t'.waiters = t.waiters.withdraw k.wait)
    (course : Course k n sent (h ++ [(s.world.now, .resume)]) w.now t'.connection (.finished r)) :
    Kept k n sent waits (h ++ [(s.world.now, .resume)])
      ⟨w, s.waits ++ givenUp k.wait (.finished r), .finished r⟩ t' where
  there := there
  past := kept.past_snoc (Nat.le_of_eq same.symm)
  held := by
    rw [others_snoc, List.append_nil, waiters]
    exact kept.held.drop ⟨op, waiting⟩ nofun
  course := course

theorem resume (kept : Kept k n sent waits h s t) (name : k.wait.name = Core.loadEvent)
    {op : Operation} (waiting : s.progress = .waiting op) {w : World} {progress : Progress}
    (resumed : op.resume? s.world = some (w, progress)) :
    ∃ t', Kept k n sent waits (h ++ [(s.world.now, .resume)])
      ⟨w, s.waits ++ givenUp k.wait progress, progress⟩ t' := by
  have hdecided : ∃ entry ∈ h ++ [(s.world.now, Action.resume)], entry.2.Decides k.request :=
    ⟨_, List.mem_append_right _ List.mem_cons_self, trivial⟩
  have hcourse := kept.course
  rw [waiting] at hcourse
  cases hcourse with
  | @asked since limit undecided =>
      have hanswered {time : Instant} {result : Value}
          (hreplied : Replied k.request (h ++ [(s.world.now, .resume)]) time result) :=
        undecided.answered time result (hreplied.of_snoc (.inr nofun))
      -- With the reply the command waits on, now for the event; without it, it ends.
      rcases resume_reply kept.there resumed with
        ⟨result, hresult, clean, rfl, rfl⟩ | ⟨⟨e, rfl⟩, rfl, hfailed⟩
      · refine ⟨{ t with connection := t.connection.release k.request }, ?_⟩
        refine ⟨Delivery.tab?_modifyTab kept.there _, kept.past_snoc (Nat.le_refl _), ?_, ?_⟩
        · rw [others_snoc, List.append_nil, givenUp, List.append_nil]
          exact kept.held.of_iff (iff_of_true ⟨_, waiting⟩ ⟨_, rfl⟩)
        · refine .loading hdecided fun time result' hreplied => ⟨?_, ?_⟩
          · exact Except.ok.inj (Option.some.inj ((hanswered hreplied).symm.trans hresult))
          · obtain ⟨entry, hmem, rfl⟩ := (hreplied.of_snoc (.inr nofun)).mem
            exact kept.past entry hmem
      · refine ⟨_, kept.giveUp waiting rfl (Delivery.tab?_modifyTab
          (Delivery.tab?_modifyTab kept.there _) _) rfl ?_⟩
        refine .ended (fun _ => hdecided) fun _ time result hreplied clean => ?_
        exact absurd clean (hfailed result (hanswered hreplied))
  | @loading since result decided replied =>
      obtain ⟨rfl, hend⟩ := resume_wait kept.there resumed
      have hthere := Delivery.tab?_modifyTab kept.there
        fun tab => { tab with waiters := t.waiters.withdraw k.wait }
      -- The event is there, or the time since the reply is up.
      rcases hend with rfl | ⟨⟨e, rfl⟩, hnone, hlate⟩
      · refine ⟨_, kept.giveUp waiting rfl hthere rfl ?_⟩
        refine .ended (fun _ => hdecided) fun _ time result' hreplied _ => .inl ?_
        rw [(replied time result' (hreplied.of_snoc (.inr nofun))).1]
      · refine ⟨_, kept.giveUp waiting rfl hthere rfl ?_⟩
        refine .ended (fun _ => hdecided) fun _ time result' hreplied _ => ?_
        have hbefore := (replied time result' (hreplied.of_snoc (.inr nofun))).2
        have hup : time + n.timeout ≤ s.world.now :=
          Nat.le_trans (Nat.add_le_add_right hbefore _) hlate
        refine .inr ⟨hup, fun loaded hloaded => ?_⟩
        rcases loaded_snoc hloaded with hearlier | rfl
        · obtain ⟨e, he⟩ := kept.exists_event waiting name hearlier
          rw [he] at hnone
          cases hnone
        · exact hup

theorem step (kept : Kept k n sent waits h s t) (name : k.wait.name = Core.loadEvent) {a : Action}
    (step : Step k s a s') : ∃ t', Kept k n sent waits (h ++ [(s.world.now, a)]) s' t' := by
  -- There is one tab of the number.
  have hsame {t' : Tab} (there : s.world.tab? k.tab = some t') : t' = t :=
    Option.some.inj (there.symm.trans kept.there)
  cases step with
  | traffic there others step =>
      obtain rfl := hsame there
      exact ⟨_, kept.traffic others step⟩
  | waiters there spared step =>
      obtain rfl := hsame there
      exact ⟨_, kept.waiters spared step⟩
  | elsewhere later there there' connection waiters =>
      obtain rfl := hsame there
      exact ⟨_, kept.elsewhere later there' connection waiters⟩
  | resume waiting resumed => exact kept.resume name waiting resumed

end Kept

/-! ### A navigation begins -/

section

variable {w : World} {i : Invocation} {n : Core.Navigation} {t : Tab} {waits : Waiters.History}

/-- What `go` does: it registers its wait and sends its request. -/
theorem go_eq (starts : Starts w i n t waits) :
    ∃ (w₀ : World) (params : Value), w₀.now = w.now ∧ w₀.tab? n.tab = some t ∧
      Core.go w i = (w₀.modifyWaiters n.tab fun _ =>
        (t.waiters.register w.now Core.loadEvent []).1).call n.tab "Page.navigate" params none
          (.navigation n.url (some (ticket w n t).wait) n.timeout) := by
  obtain ⟨hnow, htabs⟩ : (Core.navigationParams w n).1.now = w.now ∧
      (Core.navigationParams w n).1.tabs = w.tabs := by
    unfold Core.navigationParams
    cases n.referrer <;> exact ⟨rfl, rfl⟩
  have hthere : (Core.navigationParams w n).1.tab? n.tab = some t := by
    rw [World.tab?, htabs]
    exact starts.there
  refine ⟨_, (Core.navigationParams w n).2, hnow, hthere, ?_⟩
  unfold Core.go
  simp only [Core.navigationOf_eq_ok_iff.mpr starts.asked, starts.waitsForLoad, hthere]
  rw [hnow]
  rfl

/-- Nothing is known of the next id. -/
theorem lookup_next_id (starts : Starts w i n t waits) :
    t.connection.pending.lookup (t.connection.lastId + 1) = none ∧
      t.connection.outcomes.lookup (t.connection.lastId + 1) = none := by
  obtain ⟨replyTimeout, h, calls, hrun⟩ := starts.connection
  have hsound := hrun.sound
  have hnobody : ¬ Traffic.Awaits ⟨t.connection, calls⟩ (t.connection.lastId + 1) := by
    rintro ⟨r, stage, hcall, -⟩
    have hle := hsound.le_lastId hcall
    exact absurd hle (Nat.not_succ_le_self _)
  constructor
  · refine List.lookup_eq_none_iff.mpr fun entry hentry => bne_iff_ne.mpr ?_
    rintro heq
    exact hnobody (heq ▸ hsound.pending_awaits entry.1 (List.mem_map_of_mem hentry))
  · refine List.lookup_eq_none_iff.mpr fun entry hentry => bne_iff_ne.mpr ?_
    rintro heq
    exact hnobody (heq ▸ hsound.outcome_awaits entry hentry)

theorem kept_begin (starts : Starts w i n t waits) :
    ∃ t', Kept (ticket w n t) n (∃ op, (Core.go w i).2 = .waiting op) waits []
      (begin w i n t waits) t' := by
  obtain ⟨w₀, params, hnow, hthere, hgo⟩ := go_eq starts
  have hthere' := Delivery.tab?_modifyTab hthere
    fun tab => { tab with waiters := (t.waiters.register w.now Core.loadEvent []).1 }
  have hheld := Held.register starts.waiters w.now Core.loadEvent
  have hregistered (more : Waiters.History) :
      waits ++ .register ⟨(ticket w n t).wait, []⟩ :: more =
        (waits ++ [.register ⟨(ticket w n t).wait, []⟩]) ++ more := by simp
  rw [begin, hregistered, hgo]
  -- When the request fails at once, the wait is given up in the same turn.
  rcases call_cases "Page.navigate" params hthere'
    (.navigation n.url (some (ticket w n t).wait) n.timeout) with
    ⟨c, e, hcall⟩ | ⟨c, hcall, hpending, houtcomes⟩
  · rw [World.modifyWaiters, hcall, failCall_navigation]
    refine ⟨_, Delivery.tab?_modifyTab (Delivery.tab?_modifyTab hthere' _) _, nofun, ?_, ?_⟩
    · exact hheld.drop trivial nofun
    · exact .ended nofun nofun
  · rw [World.modifyWaiters, hcall]
    obtain ⟨hpendingNone, houtcomeNone⟩ := lookup_next_id starts
    refine ⟨_, Delivery.tab?_modifyTab hthere' _, nofun, ?_, ?_⟩
    · rw [givenUp, List.append_nil]
      exact hheld.of_iff (iff_of_true trivial ⟨_, rfl⟩)
    · refine .asked ⟨fun _ => ⟨?_, ?_⟩, ?_⟩
      · show c.pending.lookup (t.connection.lastId + 1) = _
        rw [hpending]
        show (t.connection.pending ++ [(t.connection.lastId + 1, "Page.navigate")]).lookup _ = _
        rw [List.lookup_append, hpendingNone, Option.none_or, Record.lookup_cons_ite, if_pos rfl]
      · show c.outcomes.lookup (t.connection.lastId + 1) = _
        rw [houtcomes]
        exact houtcomeNone
      · rintro time result ⟨past, members, future, hnil, -⟩
        simp at hnil

variable {h : History} {s : Voyage}

theorem Run.kept (starts : Starts w i n t waits)
    (run : Run (ticket w n t) (begin w i n t waits) h s) :
    ∃ t', Kept (ticket w n t) n (∃ op, (Core.go w i).2 = .waiting op) waits h s t' := by
  induction run with
  | start => exact kept_begin starts
  | snoc before step ih =>
      obtain ⟨t', kept⟩ := ih
      exact kept.step rfl step

/-- Once its request is answered without failure and its page has loaded in time, a navigation is
at its successful end or can go there at once. -/
theorem Kept.finishes {k : Ticket} {t' : Tab} {answered loaded : Instant} {result : Value}
    {sent : Prop} (kept : Kept k n sent waits h s t') (name : k.wait.name = Core.loadEvent)
    (hsent : sent) (replied : Replied k.request h answered result)
    (clean : World.navigationError? result = none) (hasLoaded : Loaded h loaded)
    (inTime : loaded < answered + n.timeout) :
    Finishes s.world s.progress (.ok (k.reply result)) := by
  have hcourse := kept.course
  generalize hprogress : s.progress = progress at hcourse ⊢
  cases hcourse with
  | asked undecided =>
      obtain ⟨e, filled⟩ := kept.exists_event hprogress name hasLoaded
      exact finishes_of_reply kept.there (undecided.answered answered result replied) clean filled
  | loading decided replied' =>
      obtain ⟨e, filled⟩ := kept.exists_event hprogress name hasLoaded
      rw [(replied' answered result replied).1]
      exact finishes_of_event kept.there filled
  | ended decided met =>
      rcases met hsent answered result replied clean with rfl | ⟨-, hlate⟩
      · exact .finished
      · exact absurd (hlate loaded hasLoaded) (Nat.not_le_of_lt inTime)

/-- Whether an action leaves those alone who wait for the page to load after a history, and adds
nobody. -/
def Aside (waits : Waiters.History) (a : Waiters.Action) : Prop :=
  (∀ y ∈ a.begun, y.registration.wait.name ≠ Core.loadEvent) ∧
    ∀ r ∈ Waiters.openFor waits Core.loadEvent, a.spares r = true

theorem openFor_of_aside {before theirs : Waiters.History}
    (aside : ∀ a ∈ theirs, Aside before a) :
    Waiters.openFor (before ++ theirs) Core.loadEvent = Waiters.openFor before Core.loadEvent := by
  induction theirs using List.reverseRecOn with
  | nil => rw [List.append_nil]
  | append_singleton theirs a ih =>
      obtain ⟨hbegun, hspares⟩ := aside a (List.mem_append_right _ List.mem_cons_self)
      have hnobody : (a.begun.map Waiters.Watch.registration).filter
          (fun r => r.wait.name == Core.loadEvent) = [] := by
        refine List.filter_eq_nil_iff.mpr fun r hr => ?_
        obtain ⟨y, hy, rfl⟩ := List.mem_map.mp hr
        simpa using hbegun y hy
      rw [← List.append_assoc, Waiters.openFor_snoc, hnobody, List.append_nil,
        ih fun a' ha' => aside a' (List.mem_append_left _ ha')]
      exact List.filter_eq_self.mpr hspares

/-- **A navigation does not miss its page and leaves no waiter.** For every `go` that waits for
its page and whatever happens from its beginning on, in whatever order:

* if its request was sent and is decided by a reply with a result that is no failure, and the
  waiters are told of a loaded page before the timeout has passed since, be it before the reply,
  then the command ends with this reply, without having to wait any more, and with nothing else;
* when it has ended, however it has, those who wait for a page to load are those the others have
  left there, as if the command had not been; these are as many as before if the others neither
  waited for it meanwhile nor stopped doing so, with an event or without. -/
theorem arrives_and_leaves_no_waiter (starts : Starts w i n t waits)
    (run : Run (ticket w n t) (begin w i n t waits) h s) :
    (∀ answered loaded result, (∃ op, (Core.go w i).2 = .waiting op) →
      Replied (ticket w n t).request h answered result → World.navigationError? result = none →
      Loaded h loaded → loaded < answered + n.timeout →
      Finishes s.world s.progress (.ok ((ticket w n t).reply result))) ∧
    ∀ r, s.progress = .finished r → ∃ t', s.world.tab? n.tab = some t' ∧
      t'.waiters.waitersFor Core.loadEvent =
        (Waiters.openFor (waits ++ others h) Core.loadEvent).map Waiters.Registration.waiter ∧
      ((∀ a ∈ others h, Aside waits a) →
        t'.waiters.waitingOn Core.loadEvent = t.waiters.waitingOn Core.loadEvent) := by
  obtain ⟨t', kept⟩ := run.kept starts
  refine ⟨fun answered loaded result hsent replied clean hasLoaded inTime =>
    kept.finishes rfl hsent replied clean hasLoaded inTime, fun r hended => ?_⟩
  have hwaiting := kept.held.waitersFor_eq (by rw [hended]; nofun) Core.loadEvent
  refine ⟨t', kept.there, hwaiting, fun aside => ?_⟩
  rw [Waiters.waitingOn, Waiters.waitingOn, hwaiting, openFor_of_aside aside,
    starts.waiters.kept.waiting]

end

/-! ### Two who wait for one page -/

section

/-- Somebody else waits for a page to load. -/
def otherWait : Waiters.Registration := ⟨⟨Core.loadEvent, 0, 0⟩, []⟩

/-- A new tab in which somebody waits for a page to load. -/
def watchedTab : Tab :=
  ⟨"T", "about:blank", .start 1000, [], ((Waiters.start 0).register 0 Core.loadEvent []).1⟩

def watchedWorld : World :=
  { World.empty with tabs := [watchedTab], browser := some ⟨[0], some "T"⟩ }

/-- The call of `go 'x' { referrer: null, timeout: 5000 }`. -/
def visiting : Invocation :=
  ⟨some (.string "x"), ⟨[("referrer", .null), ("timeout", .int 5000)]⟩, 0⟩

def visit : Core.Navigation := ⟨"x", 0, .absent, true, 5000000000⟩

theorem starts_visiting : Starts watchedWorld visiting visit watchedTab [.register otherWait] where
  asked := {
    url := rfl
    tab := rfl
    referrer := .absent rfl
    waits := .omitted (.inl rfl)
    timeout := .given rfl rfl (by decide +kernel) (by decide +kernel) }
  waitsForLoad := rfl
  there := rfl
  connection := ⟨1000, [], _, .start⟩
  waiters := .snoc (.start 0) (.register 0 Core.loadEvent [])

def askedTab : Tab :=
  { watchedTab with
    waiters := (watchedTab.waiters.register 0 Core.loadEvent []).1
    connection := { watchedTab.connection with
      lastId := 1
      pending := [(1, "Page.navigate")]
      outbox := [Connection.message 1 "Page.navigate" (.ofMembers [("url", .string "x")])] } }

def askedFor : Voyage :=
  ⟨{ watchedWorld with tabs := [askedTab] },
    [.register otherWait, .register ⟨⟨Core.loadEvent, 1, 0⟩, []⟩],
    .waiting (.reply ⟨0, 1, "Page.navigate", 0, 1000⟩
      (.navigation "x" (some ⟨Core.loadEvent, 1, 0⟩) 5000000000))⟩

theorem begin_visiting :
    begin watchedWorld visiting visit watchedTab [.register otherWait] = askedFor := by
  have hgo : Core.go watchedWorld visiting = (askedFor.world, askedFor.progress) := by
    unfold Core.go
    rw [Core.navigationOf_eq_ok_iff.mpr starts_visiting.asked]
    rfl
  rw [begin, hgo]
  rfl

/-- The page loads, then the reply comes, and then the command goes on. -/
def loadedFirst : History :=
  let e : Event := ⟨"Page", "loadEventFired", .object Record.empty⟩
  let m : Value := .object ⟨[("id", .int 1), ("result", .object Record.empty)]⟩
  [(0, .waiters (.record e)), (0, .traffic (.arrive m)), (0, .traffic (.handle m)), (0, .resume),
    (0, .resume)]

theorem run_loadedFirst : ∃ s, Run (ticket watchedWorld visit watchedTab)
    (begin watchedWorld visiting visit watchedTab [.register otherWait]) loadedFirst s ∧
    s.progress = .ok ((ticket watchedWorld visit watchedTab).reply (.object Record.empty)) ∧
    (s.world.tab? visit.tab).map (fun t => t.waiters.waitingOn Core.loadEvent) = some 0 := by
  let e : Event := ⟨"Page", "loadEventFired", .object Record.empty⟩
  let m : Value := .object ⟨[("id", .int 1), ("result", .object Record.empty)]⟩
  have nobody : Nat → Option Traffic.Call := fun _ => none
  rw [begin_visiting]
  have begun : Run (ticket watchedWorld visit watchedTab) askedFor [] askedFor := .start
  have loaded := begun.snoc (.waiters (t := askedTab) rfl rfl (.record 0 e))
  have arrived := loaded.snoc
    (@Step.traffic _ _ _ _ nobody nobody (.arrive m) rfl nofun (.arrive m))
  have handled := arrived.snoc
    (@Step.traffic _ _ _ _ nobody nobody (.handle m) rfl nofun (.handle rfl rfl rfl rfl))
  have resumed := handled.snoc (.resume rfl rfl)
  have ended := resumed.snoc (.resume rfl rfl)
  exact ⟨_, ended, rfl, rfl⟩

/-- A page that loads before the reply has come is not missed, and neither is it by the other who
waits for it. -/
theorem arrives_and_leaves_no_waiter_loaded_first :
    Starts watchedWorld visiting visit watchedTab [.register otherWait] ∧
    ∃ s, Run (ticket watchedWorld visit watchedTab)
      (begin watchedWorld visiting visit watchedTab [.register otherWait]) loadedFirst s ∧
      Finishes s.world s.progress
        (.ok ((ticket watchedWorld visit watchedTab).reply (.object Record.empty))) ∧
      ∃ t', s.world.tab? 0 = some t' ∧ t'.waiters.waitersFor Core.loadEvent = [] := by
  obtain ⟨s, run, hended, -⟩ := run_loadedFirst
  obtain ⟨harrives, hleaves⟩ := arrives_and_leaves_no_waiter starts_visiting run
  refine ⟨starts_visiting, s, run, ?_, ?_⟩
  · refine harrives 0 0 (.object Record.empty) ?_ ?_ rfl ?_ (by decide)
    · exact ⟨_, congrArg Voyage.progress begin_visiting⟩
    · refine ⟨loadedFirst.take 2, _, [(0, .resume), (0, .resume)], rfl, ?_, rfl, rfl, rfl⟩
      intro entry hentry
      rcases List.mem_cons.mp hentry with rfl | hentry
      · exact not_false
      · rw [List.mem_singleton.mp hentry]
        exact not_false
    · exact ⟨_, rfl, List.mem_cons_self⟩
  · obtain ⟨t', hthere, hwaiting, -⟩ := hleaves _ hended
    exact ⟨t', hthere, hwaiting.trans rfl⟩

/-- The event takes the other one away as well, so that the number is not what it was. -/
theorem number_of_waiters_changes :
    ¬ ∀ (w : World) (i : Invocation) (n : Core.Navigation) (t : Tab) (waits : Waiters.History)
        (h : History) (s : Voyage), Starts w i n t waits →
      Run (ticket w n t) (begin w i n t waits) h s → ∀ r, s.progress = .finished r →
      ∃ t', s.world.tab? n.tab = some t' ∧
        t'.waiters.waitingOn Core.loadEvent = t.waiters.waitingOn Core.loadEvent := by
  intro hclaim
  obtain ⟨s, run, hended, hnumber⟩ := run_loadedFirst
  obtain ⟨t', hthere, hsame⟩ := hclaim _ _ _ _ _ _ _ starts_visiting run _ hended
  have hone : watchedTab.waiters.waitingOn Core.loadEvent = 1 := rfl
  rw [hthere, Option.map_some, hsame, hone] at hnumber
  cases hnumber

end

end Voyage

end TabPilot
