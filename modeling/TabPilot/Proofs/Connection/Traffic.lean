import Mathlib.Logic.Function.Basic
import TabPilot.Client.Connection
import TabPilot.Proofs.History

set_option autoImplicit false

/-! # Many requests on one connection

`Connection` says what one request, one message or one shutdown does to a connection. Here they
meet: any number of callers send requests while messages come in, time runs out and somebody
stops the connection, in any order. `Traffic` is a connection together with the calls made on it,
`Traffic.Step` is one access of one of the tasks to the shared connection, and `Traffic.Run` is a
history of such accesses from a fresh connection on.

A step is finer than a function of `Connection` wherever another task can come in between:
`Connection.register` takes an id, makes the request pending and looks again in three steps, and
`Connection.close` marks the connection and fails what is pending in two. The lemmas at the end
say that the functions are these steps taken one right after the other.
-/

namespace TabPilot

structure Traffic.Request where
  method : String
  params : Value
  expectsReply : Bool
  timeout : Duration

inductive Traffic.Stage
  /-- It has an id and is to be made pending. -/
  | numbered
  /-- It is pending and is to look again whether the connection is open. -/
  | enlisted
  /-- It is to be written. -/
  | sending
  /-- It was written, and its caller waits for the reply. -/
  | waiting (since : Instant)
  /-- Its caller has got an outcome. -/
  | ended

structure Traffic.Call where
  request : Traffic.Request
  stage : Traffic.Stage

structure Traffic where
  connection : Connection
  calls : Nat → Option Traffic.Call

namespace Traffic

inductive Label
  /-- A request was refused since the connection is closed; it has no id. -/
  | refuse (e : Error)
  /-- A request got an id. -/
  | begin (id : Nat) (r : Request)
  /-- A request that expects a reply is pending from now on. -/
  | enlist (id : Nat)
  /-- A request was not too late. -/
  | confirm (id : Nat)
  /-- A request that expects a reply was written. -/
  | write (id : Nat)
  /-- A caller gets an outcome. -/
  | finish (id : Nat) (outcome : Except Error (Option Reply))
  /-- A message has arrived. -/
  | arrive (m : Value)
  /-- No more messages will arrive. -/
  | endInbox
  /-- Nothing can be written any more. -/
  | breakPipe
  /-- The debugger reads what was written. -/
  | read
  /-- A message is handled. -/
  | handle (m : Value)
  /-- Somebody asks the connection to stop. -/
  | ask
  /-- Receiving is over, and the connection is marked as closed. -/
  | markClosed
  /-- What is pending fails, and receiving has ended. -/
  | failPending
  /-- An event is dispatched. -/
  | dispatch (e : Event)
  /-- Dispatching has ended. -/
  | settle
  /-- The way to the debugger is closed. -/
  | shut

def start (replyTimeout : Duration) : Traffic := ⟨Connection.start replyTimeout, fun _ => none⟩

/-- The traffic after a step that changes the connection and the stage of one call. -/
def moveTo (s : Traffic) (c : Connection) (id : Nat) (r : Request) (stage : Stage) : Traffic :=
  ⟨c, Function.update s.calls id (some ⟨r, stage⟩)⟩

@[simp] theorem moveTo_connection (s : Traffic) (c : Connection) (id : Nat) (r : Request)
    (stage : Stage) : (s.moveTo c id r stage).connection = c := rfl

@[simp] theorem moveTo_calls_self (s : Traffic) (c : Connection) (id : Nat) (r : Request)
    (stage : Stage) : (s.moveTo c id r stage).calls id = some ⟨r, stage⟩ :=
  Function.update_self id _ _

theorem moveTo_calls_of_ne (s : Traffic) (c : Connection) {id other : Nat} (r : Request)
    (stage : Stage) (hne : other ≠ id) : (s.moveTo c id r stage).calls other = s.calls other :=
  Function.update_of_ne hne _ _

/-- The traffic after a step that changes only the connection. -/
def withConnection (s : Traffic) (c : Connection) : Traffic := { s with connection := c }

/-- One access of one task to the connection. -/
inductive Step : Traffic → Label → Traffic → Prop
  | refuse {s : Traffic} {e : Error} (refused : s.connection.takeId? = .error e) :
      Step s (.refuse e) s
  | begin {s : Traffic} {c : Connection} {id : Nat} (r : Request)
      (taken : s.connection.takeId? = .ok (c, id)) :
      Step s (.begin id r) (s.moveTo c id r (if r.expectsReply then .numbered else .sending))
  | enlist {s : Traffic} {id : Nat} {r : Request} (there : s.calls id = some ⟨r, .numbered⟩) :
      Step s (.enlist id) (s.moveTo (s.connection.enlist id r.method) id r .enlisted)
  | confirm {s : Traffic} {c : Connection} {id : Nat} {r : Request}
      (there : s.calls id = some ⟨r, .enlisted⟩)
      (inTime : s.connection.confirm id = (c, .ok ())) :
      Step s (.confirm id) (s.moveTo c id r .sending)
  | tooLate {s : Traffic} {c : Connection} {id : Nat} {r : Request} {e : Error}
      (there : s.calls id = some ⟨r, .enlisted⟩)
      (late : s.connection.confirm id = (c, .error e)) :
      Step s (.finish id (.error e)) (s.moveTo c id r .ended)
  | write {s : Traffic} {c : Connection} {id : Nat} {r : Request} (now : Instant)
      (there : s.calls id = some ⟨r, .sending⟩) (expects : r.expectsReply = true)
      (written : s.connection.write (Connection.message id r.method r.params) = .ok c) :
      Step s (.write id) (s.moveTo c id r (.waiting now))
  | post {s : Traffic} {c : Connection} {id : Nat} {r : Request}
      (there : s.calls id = some ⟨r, .sending⟩) (expects : r.expectsReply = false)
      (written : s.connection.write (Connection.message id r.method r.params) = .ok c) :
      Step s (.finish id (.ok none)) (s.moveTo c id r .ended)
  /-- A write may fail at any time and for any reason. -/
  | failWrite {s : Traffic} {id : Nat} {r : Request} (e : Error)
      (there : s.calls id = some ⟨r, .sending⟩) :
      Step s (.finish id (.error e)) (s.moveTo (s.connection.release id) id r .ended)
  /-- A caller looks how its request stands, at whatever time, and it is answered or too late. -/
  | collect {s : Traffic} {id : Nat} {r : Request} {since : Instant} (now : Instant)
      {outcome : Except Error Reply} (there : s.calls id = some ⟨r, .waiting since⟩)
      (found : s.connection.outcome? id r.method since r.timeout now = some outcome) :
      Step s (.finish id (outcome.map some)) (s.moveTo (s.connection.release id) id r .ended)
  | arrive {s : Traffic} (m : Value) :
      Step s (.arrive m)
        (s.withConnection { s.connection with inbox := s.connection.inbox ++ [m] })
  | endInbox {s : Traffic} :
      Step s .endInbox (s.withConnection { s.connection with inboxEnded := true })
  | breakPipe {s : Traffic} :
      Step s .breakPipe (s.withConnection { s.connection with writable := false })
  | read {s : Traffic} : Step s .read (s.withConnection { s.connection with outbox := [] })
  | handle {s : Traffic} {m : Value} {rest : List Value}
      (receiving : s.connection.receiving = true) (isOpen : s.connection.closed = false)
      (goesOn : s.connection.isOver = false) (next : s.connection.inbox = m :: rest) :
      Step s (.handle m) (s.withConnection ({ s.connection with inbox := rest }.handle m).1)
  | ask {s : Traffic} : Step s .ask (s.withConnection s.connection.askToStop.1)
  | markClosed {s : Traffic} (receiving : s.connection.receiving = true)
      (isOpen : s.connection.closed = false) (ended : s.connection.isOver = true) :
      Step s .markClosed (s.withConnection s.connection.markClosed)
  | failPending {s : Traffic} (receiving : s.connection.receiving = true)
      (closed : s.connection.closed = true) :
      Step s .failPending (s.withConnection s.connection.failPending)
  | dispatch {s : Traffic} {c : Connection} {e : Event}
      (next : s.connection.nextEvent? = some (c, e)) : Step s (.dispatch e) (s.withConnection c)
  | settle {s : Traffic} {c : Connection} (settled : s.connection.settle? = some c) :
      Step s .settle (s.withConnection c)
  | shut {s : Traffic} (ended : s.connection.receiving = false) :
      Step s .shut (s.withConnection s.connection.shut)

/-- What has happened so far, first things first. -/
abbrev History := List Label

inductive Run (replyTimeout : Duration) : History → Traffic → Prop
  | start : Run replyTimeout [] (start replyTimeout)
  | snoc {h : History} {s s' : Traffic} {e : Label} (before : Run replyTimeout h s)
      (step : Step s e s') : Run replyTimeout (h ++ [e]) s'

/-! ## Runs -/

/-- A run up to a label of its history, and the step that shows the label. -/
theorem Run.split {replyTimeout : Duration} {past future : History} {e : Label} {s : Traffic}
    (run : Run replyTimeout (past ++ e :: future) s) :
    ∃ s₁ s₂, Run replyTimeout past s₁ ∧ Step s₁ e s₂ := by
  generalize hh : past ++ e :: future = h at run
  induction run generalizing future with
  | start => simp at hh
  | @snoc h s s' e' before step ih =>
      rcases History.at_end_or_before hh with ⟨-, rfl, rfl⟩ | ⟨future', -, hbefore⟩
      · exact ⟨s, s', before, step⟩
      · exact ih hbefore

/-! ## The functions of a connection, step by step -/

/-- A request that has its id and is to be written, written in one go: the run goes on to where
`Connection.write` and, if that fails, `Connection.release` lead. -/
theorem Run.write_or_release {replyTimeout : Duration} {h : History} {s : Traffic}
    (run : Run replyTimeout h s) {id : Nat} {r : Request}
    (there : s.calls id = some ⟨r, .sending⟩) :
    ∃ e s', Run replyTimeout (h ++ [e]) s' ∧ s'.connection =
      match s.connection.write (Connection.message id r.method r.params) with
      | .ok written => written
      | .error _ => s.connection.release id := by
  cases hwrite : s.connection.write (Connection.message id r.method r.params) with
  | error e => exact ⟨_, _, run.snoc (.failWrite e there), rfl⟩
  | ok written =>
      by_cases hexpects : r.expectsReply = true
      · exact ⟨_, _, run.snoc (.write 0 there hexpects hwrite), rfl⟩
      · have hsilent : r.expectsReply = false := by simpa using hexpects
        exact ⟨_, _, run.snoc (.post there hsilent hwrite), rfl⟩

/-- What `Connection.register` does to an open connection. -/
theorem register_of_takeId {c c' : Connection} {id : Nat} (method : String) (expectsReply : Bool)
    (taken : c.takeId? = .ok (c', id)) (isOpen : c'.closed = false) :
    c.register method expectsReply =
      (if expectsReply then c'.enlist id method else c', .ok id) := by
  have henlisted : (c'.enlist id method).closed = false := isOpen
  cases expectsReply <;>
    simp [Connection.register, taken, Connection.confirm, henlisted, Except.map]

/-- A request that is registered in one go: the run goes on to where `Connection.register`
leads. -/
theorem Run.register {replyTimeout : Duration} {h : History} {s : Traffic}
    (run : Run replyTimeout h s) (r : Request) {c : Connection} {id : Nat}
    (taken : s.connection.takeId? = .ok (c, id)) (isOpen : c.closed = false) :
    ∃ more s', Run replyTimeout (h ++ more) s' ∧ s'.calls id = some ⟨r, .sending⟩ ∧
      s'.connection = if r.expectsReply then c.enlist id r.method else c := by
  have begun := run.snoc (.begin r taken)
  -- A request that expects no reply is not made pending, so its first step is its only one.
  by_cases hexpects : r.expectsReply = true
  · have enlisted := begun.snoc (e := .enlist id) (.enlist (r := r) (by simp [hexpects]))
    have hopen : (c.enlist id r.method).closed = false := isOpen
    have confirmed := enlisted.snoc (e := .confirm id) (.confirm (r := r) (by simp)
      (c := c.enlist id r.method) (by simp [Connection.confirm, hopen]))
    exact ⟨_, _, by simpa using confirmed, by simp, by simp [hexpects]⟩
  · have hsilent : r.expectsReply = false := by simpa using hexpects
    exact ⟨_, _, begun, by simp [hsilent], by simp [hsilent]⟩

/-- **Sending in one go is a run.** Where nobody comes in between, the steps of a request lead
to where `Connection.send` leads. -/
theorem Run.send {replyTimeout : Duration} {h : History} {s : Traffic}
    (run : Run replyTimeout h s) (r : Request) :
    ∃ more s', Run replyTimeout (h ++ more) s' ∧
      s'.connection = (s.connection.send r.method r.params r.expectsReply).1 := by
  cases htake : s.connection.takeId? with
  | error e =>
      refine ⟨[], s, by simpa using run, ?_⟩
      simp [Connection.send, Connection.register, htake]
  | ok taken =>
      obtain ⟨c, id⟩ := taken
      have hopen : c.closed = false := by
        unfold Connection.takeId? at htake
        split at htake
        · cases htake
        · next hclosed =>
            cases htake
            simpa using hclosed
      obtain ⟨more, s₁, run₁, hcall, hconn⟩ := run.register r htake hopen
      obtain ⟨e, s₂, run₂, hlast⟩ := run₁.write_or_release hcall
      refine ⟨more ++ [e], s₂, by simpa using run₂, ?_⟩
      rw [hlast, hconn, Connection.send, register_of_takeId r.method r.expectsReply htake hopen]
      cases hwrite : Connection.write _ (Connection.message id r.method r.params) <;> simp [hwrite]

/-- **Receiving in one go is a run.** Where nobody comes in between, the steps of receiving lead
to where `Connection.receive?` leads. -/
theorem Run.receive {replyTimeout : Duration} {h : History} {s : Traffic}
    (run : Run replyTimeout h s) {c : Connection} {entry : Option LogEntry}
    (isOpen : s.connection.closed = false) (received : s.connection.receive? = some (c, entry)) :
    ∃ more s', Run replyTimeout (h ++ more) s' ∧ s'.connection = c := by
  unfold Connection.receive? at received
  split at received
  · cases received
  next hreceiving =>
    have receiving : s.connection.receiving = true := by simpa using hreceiving
    -- Either receiving is over, which takes two steps, or the next message is handled.
    split at received
    · next hover =>
        cases received
        have marked := run.snoc (.markClosed receiving isOpen hover)
        have failed := marked.snoc (.failPending receiving rfl)
        exact ⟨_, _, by simpa using failed, rfl⟩
    · next hover =>
        split at received
        · next m rest hinbox =>
            have handled := run.snoc (.handle receiving isOpen (by simpa using hover) hinbox)
            exact ⟨_, _, handled, congrArg Prod.fst (Option.some.inj received)⟩
        · cases received

end Traffic

end TabPilot
