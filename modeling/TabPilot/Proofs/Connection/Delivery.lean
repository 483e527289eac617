import Mathlib.Data.List.Forall2
import TabPilot.Proofs.Connection.Correlation
import TabPilot.Proofs.Connection.Dispatching
import TabPilot.Proofs.Event.EventNames

set_option autoImplicit false

/-! # Every event is delivered once, in order

Which messages announce an event is said by `Announces`. The main statement,
`events_are_delivered_in_order`, is about every run of `Delivery`: whatever else goes on, the
announced events are dispatched once each and in the order in which their messages were handled,
each in a `Round` of its own; nothing else is dispatched; and nothing that was handled is lost when
receiving ends.
-/

namespace TabPilot.Delivery

/-! ## What announces an event -/

/-- A message announces an event: it is an object without an id, and its method is a string with
text on both sides of its first dot. -/
def Announces (m : Value) (e : Event) : Prop :=
  ∃ members : Record Value, m = .object members ∧ members.get? "id" = none ∧
    members.get? "method" = some (.string e.name) ∧ e.domain ≠ "" ∧ e.method ≠ "" ∧
    '.' ∉ e.domain.toList ∧ e.payload = (members.get? "params").getD (.object Record.empty)

/-- The events that messages announce, in the order of the messages. -/
inductive Announced : List Value → List Event → Prop
  | nil : Announced [] []
  | event {m : Value} {e : Event} {ms : List Value} {es : List Event} (announces : Announces m e)
      (rest : Announced ms es) : Announced (m :: ms) (e :: es)
  | other {m : Value} {ms : List Value} {es : List Event} (silent : ∀ e, ¬ Announces m e)
      (rest : Announced ms es) : Announced (m :: ms) es

theorem ofMessage_eq_event_iff {m : Value} {e : Event} :
    Inbound.ofMessage m = .event e ↔ Announces m e := by
  constructor
  · intro h
    cases m with
    | object members =>
        simp only [Inbound.ofMessage] at h
        split at h
        · split at h <;> cases h
        · next name hid hmethod =>
            split at h
            · next e' hname =>
                cases h
                obtain ⟨rfl, hdomain, hmethod', hnot, hpayload⟩ :=
                  Event.ofName?_eq_some_iff.mp hname
                exact ⟨members, rfl, hid, hmethod, hdomain, hmethod', hnot, hpayload⟩
            · cases h
        · split at h <;> cases h
    | _ => cases h
  · rintro ⟨members, rfl, hid, hmethod, hdomain, hmethod', hnot, hpayload⟩
    have hname := Event.ofName?_eq_some_iff.mpr ⟨rfl, hdomain, hmethod', hnot, hpayload⟩
    simp only [Inbound.ofMessage, hid, hmethod, hname]

def announced? (m : Value) : Option Event :=
  match Inbound.ofMessage m with
  | .event e => some e
  | _ => none

theorem announced?_eq_some_iff {m : Value} {e : Event} :
    announced? m = some e ↔ Announces m e := by
  rw [← ofMessage_eq_event_iff, announced?]
  split
  · next e' he => simp [he]
  · next hno => simpa using fun h => hno e h

theorem announced_filterMap (ms : List Value) : Announced ms (ms.filterMap announced?) := by
  induction ms with
  | nil => exact .nil
  | cons m ms ih =>
      cases hm : announced? m with
      | some e =>
          rw [List.filterMap_cons_some hm]
          exact .event (announced?_eq_some_iff.mp hm) ih
      | none =>
          rw [List.filterMap_cons_none hm]
          refine .other (fun e he => ?_) ih
          rw [announced?_eq_some_iff.mpr he] at hm
          cases hm

/-! ## What a history shows -/

def handled (h : History) : List Value :=
  h.filterMap fun
    | .traffic (.handle m) => some m
    | _ => none

/-- The events that the waiters were told of, in order. -/
def delivered (h : History) : List Event :=
  h.filterMap fun
    | .record _ e => some e
    | _ => none

/-- What the dispatching task did, in order. -/
def deeds (h : History) : History := h.filter Label.isDeed

/-- Callbacks are called in their order, each once, up to the first that stops. -/
def Called (e : Event) (callbacks : List Callback) (calls : History) : Prop :=
  calls = callbacks.map (.call e · .continue) ∨
    ∃ passed f later, callbacks = passed ++ f :: later ∧
      calls = passed.map (.call e · .continue) ++ [.call e f .stop]

/-- What dispatching does for one event: it takes it, finds and calls its callbacks, and tells
the waiters whether or not a callback stopped. -/
def Round (e : Event) (deeds : History) : Prop :=
  ∃ callbacks calls now, Called e callbacks calls ∧
    deeds = .take e :: .find e callbacks :: (calls ++ [.record now e])

/-- What dispatching does: a round for each of some events, one after the other, and then a part
of a round for the event that is in hand. -/
def InRounds (deeds : History) (done : List Event) (inHand : Option Event) : Prop :=
  ∃ rounds current, deeds = rounds.flatten ++ current ∧ List.Forall₂ Round done rounds ∧
    match inHand with
    | some e => ∃ rest, Round e (current ++ rest)
    | none => current = []

/-! ## The queue of events -/

/-- The event that a step on the connection adds to the queue, if any. -/
def arrivedBy : Traffic.Label → List Event
  | .handle m => (announced? m).toList
  | _ => []

/-- What everybody but the dispatching task does to the queue: they add to it at its end, and only
as long as receiving goes on. -/
structure Grows (c c' : Connection) (arrived : List Event) : Prop where
  events : c'.events = c.events ++ arrived
  dispatching : c'.dispatching = c.dispatching
  afterEnd : c.receiving = false → c'.receiving = false ∧ arrived = []

theorem grows_of_same {c c' : Connection} (events : c'.events = c.events)
    (dispatching : c'.dispatching = c.dispatching) (receiving : c'.receiving = c.receiving) :
    Grows c c' [] :=
  ⟨by rw [events, List.append_nil], dispatching, fun h => ⟨receiving.trans h, rfl⟩⟩

theorem grows_release (c : Connection) (id : Nat) : Grows c (c.release id) [] :=
  grows_of_same rfl rfl rfl

theorem grows_write {c c' : Connection} {m : Value} (h : c.write m = .ok c') : Grows c c' [] := by
  unfold Connection.write at h
  split at h <;> cases h
  exact grows_of_same rfl rfl rfl

theorem grows_askToStop (c : Connection) : Grows c c.askToStop.1 [] := by
  unfold Connection.askToStop
  split <;> exact grows_of_same rfl rfl rfl

/-- Handling a message queues the event that it announces. -/
theorem grows_handle {c : Connection} (receiving : c.receiving = true) (rest : List Value)
    (m : Value) : Grows c ({ c with inbox := rest }.handle m).1 (announced? m).toList := by
  cases hm : Inbound.ofMessage m with
  | event e =>
      have hopen : ¬ c.receiving = false := by simp [receiving]
      simp only [Connection.handle, announced?, hm]
      exact ⟨rfl, rfl, fun hover => absurd hover hopen⟩
  | reply id members =>
      simp only [Connection.handle, announced?, hm]
      split <;> exact grows_of_same rfl rfl rfl
  | _ =>
      simp only [Connection.handle, announced?, hm]
      exact grows_of_same rfl rfl rfl

theorem Step.grows {s s' : Traffic} {l : Traffic.Label} (step : Traffic.Step s l s')
    (others : ¬ IsDispatching l) : Grows s.connection s'.connection (arrivedBy l) := by
  cases step with
  | refuse refused => exact grows_of_same rfl rfl rfl
  | begin r taken =>
      obtain ⟨-, rfl⟩ := Traffic.takeId?_eq_ok taken
      exact grows_of_same rfl rfl rfl
  | enlist there => exact grows_of_same rfl rfl rfl
  | confirm there inTime =>
      obtain ⟨-, rfl⟩ := Traffic.confirm_eq_ok inTime
      exact grows_of_same rfl rfl rfl
  | tooLate there late =>
      rw [Traffic.moveTo_connection, Traffic.confirm_eq_error late]
      exact grows_release _ _
  | write now there expects written => exact grows_write written
  | post there expects written => exact grows_write written
  | failWrite e there => exact grows_release _ _
  | collect now there found => exact grows_release _ _
  | handle receiving isOpen goesOn next => exact grows_handle receiving _ _
  | ask => exact grows_askToStop _
  | failPending receiving closed =>
      exact ⟨(List.append_nil _).symm, rfl, fun _ => ⟨rfl, rfl⟩⟩
  | dispatch next => exact absurd trivial others
  | settle settled => exact absurd trivial others
  | arrive | endInbox | breakPipe | read | markClosed | shut => exact grows_of_same rfl rfl rfl

theorem nextEvent?_eq_some_iff {c c' : Connection} {e : Event} :
    c.nextEvent? = some (c', e) ↔
      c.dispatching = true ∧ ∃ rest, c.events = e :: rest ∧ c' = { c with events := rest } := by
  unfold Connection.nextEvent?
  cases c.events with
  | nil => simp
  | cons first rest =>
      cases c.dispatching with
      | false => simp
      | true => simp [and_comm, eq_comm]

theorem eq_of_settle? {c c' : Connection} (h : c.settle? = some c') :
    c.receiving = false ∧ c.events = [] ∧ c' = { c with dispatching := false } := by
  unfold Connection.settle? at h
  split at h
  · next hsettled =>
      cases h
      simp only [Bool.and_eq_true, Bool.not_eq_true', List.isEmpty_iff] at hsettled
      exact ⟨hsettled.1.2, hsettled.2, rfl⟩
  · cases h

/-! ## Rounds -/

/-- The calls that were made, and the callbacks that are left to call. -/
def Calling (e : Event) (callbacks : List Callback) (calls : History) (left : List Callback) :
    Prop :=
  (∃ passed, callbacks = passed ++ left ∧ calls = passed.map (.call e · .continue)) ∨
    left = [] ∧ Called e callbacks calls

theorem Calling.called {e : Event} {callbacks : List Callback} {calls : History}
    (h : Calling e callbacks calls []) : Called e callbacks calls := by
  rcases h with ⟨passed, rfl, rfl⟩ | ⟨-, h⟩
  · rw [List.append_nil]
    exact .inl rfl
  · exact h

theorem Calling.call {e : Event} {callbacks : List Callback} {calls : History} {f : Callback}
    {left : List Callback} (h : Calling e callbacks calls (f :: left)) (answer : Propagation) :
    Calling e callbacks (calls ++ [.call e f answer]) (remaining left answer) := by
  obtain ⟨passed, rfl, rfl⟩ : ∃ passed, callbacks = passed ++ f :: left ∧
      calls = passed.map (.call e · .continue) := by
    rcases h with h | ⟨hnil, -⟩
    · exact h
    · cases hnil
  cases answer with
  | «continue» => exact .inl ⟨passed ++ [f], by simp [remaining], by simp⟩
  | stop => exact .inr ⟨rfl, .inr ⟨passed, f, left, rfl, rfl⟩⟩

/-- The part of a round that was done when the dispatching task is about to do something. -/
inductive Begun : Errand → History → Prop
  | idle : Begun .idle []
  | taken (e : Event) : Begun (.taken e) [.take e]
  | calling {e : Event} {callbacks left : List Callback} {calls : History}
      (calling : Calling e callbacks calls left) :
      Begun (.calling e left) (.take e :: .find e callbacks :: calls)

/-- What was begun can be done to its end. -/
theorem Begun.round {errand : Errand} {current : History} (h : Begun errand current) :
    match errand.event? with
    | some e => ∃ rest, Round e (current ++ rest)
    | none => current = [] := by
  cases h with
  | idle => rfl
  | taken e => exact ⟨[.find e [], .record 0 e], [], [], 0, .inl rfl, rfl⟩
  | @calling e callbacks left calls calling =>
      rcases calling with ⟨passed, rfl, rfl⟩ | ⟨rfl, called⟩
      · refine ⟨left.map (.call e · .continue) ++ [.record 0 e], passed ++ left,
          (passed ++ left).map (.call e · .continue), 0, .inl rfl, ?_⟩
        simp
      · exact ⟨[.record 0 e], callbacks, calls, 0, called, rfl⟩

/-! ## What every run keeps -/

/-- What holds after a history: every announced event is delivered, in hand or queued, in the order
of its message; the dispatching task did its rounds; and it has ended only with nothing left. -/
structure Kept (h : History) (s : Delivery) : Prop where
  order : (handled h).filterMap announced? =
    delivered h ++ s.errand.event?.toList ++ s.tab.connection.events
  rounds : ∃ rounds current, deeds h = rounds.flatten ++ current ∧
    List.Forall₂ Round (delivered h) rounds ∧ Begun s.errand current
  ended : s.tab.connection.dispatching = false →
    s.tab.connection.receiving = false ∧ s.errand = .idle ∧ s.tab.connection.events = []
  settled : .settle ∈ h → s.tab.connection.dispatching = false

theorem kept_start {replyTimeout : Duration} {tab : Tab}
    (fresh : tab.connection = Connection.start replyTimeout) :
    Kept [] ⟨tab, fun _ => none, .idle⟩ where
  order := by rw [fresh]; rfl
  rounds := ⟨[], [], rfl, .nil, .idle⟩
  ended hended := by rw [fresh] at hended; cases hended
  settled hsettled := absurd hsettled List.not_mem_nil

section

variable {h : History} {s s' : Delivery}

theorem handled_snoc (l : Label) : handled (h ++ [l]) = handled h ++ handled [l] :=
  List.filterMap_append

theorem delivered_snoc (l : Label) : delivered (h ++ [l]) = delivered h ++ delivered [l] :=
  List.filterMap_append

theorem deeds_snoc (l : Label) : deeds (h ++ [l]) = deeds h ++ deeds [l] :=
  List.filter_append _ _

theorem settle_mem_snoc {l : Label} (other : l ≠ .settle) (hmem : Label.settle ∈ h ++ [l]) :
    .settle ∈ h := by
  rcases List.mem_append.mp hmem with hmem | hmem
  · exact hmem
  · exact absurd (List.mem_singleton.mp hmem).symm other

theorem announced_by (l : Traffic.Label) :
    (handled [.traffic l]).filterMap announced? = arrivedBy l := by
  cases l with
  | handle m =>
      show [m].filterMap announced? = (announced? m).toList
      cases hm : announced? m <;> simp [hm]
  | _ => rfl

/-- Others may add to the queue. -/
theorem Kept.grow (kept : Kept h s) {l : Label} (noDeed : deeds [l] = [])
    (silent : delivered [l] = []) (other : l ≠ .settle) (errand : s'.errand = s.errand)
    (grows : Grows s.tab.connection s'.tab.connection ((handled [l]).filterMap announced?)) :
    Kept (h ++ [l]) s' where
  order := by
    rw [handled_snoc, List.filterMap_append, kept.order, delivered_snoc, silent, errand,
      grows.events, List.append_nil, List.append_assoc (delivered h ++ _)]
  rounds := by rw [deeds_snoc, delivered_snoc, noDeed, silent, errand]; simpa using kept.rounds
  ended hended := by
    obtain ⟨hreceiving, hidle, hevents⟩ := kept.ended (grows.dispatching.symm.trans hended)
    obtain ⟨hover, hnone⟩ := grows.afterEnd hreceiving
    exact ⟨hover, errand.trans hidle, by rw [grows.events, hevents, hnone]; rfl⟩
  settled hmem := grows.dispatching.trans (kept.settled (settle_mem_snoc other hmem))

/-- The next event is taken from the queue. -/
theorem Kept.take (kept : Kept h s) (idle : s.errand = .idle) {e : Event} {c : Connection}
    (next : s.tab.connection.nextEvent? = some (c, e)) (calls : Nat → Option Traffic.Call) :
    Kept (h ++ [.take e]) ((s.withTraffic ⟨c, calls⟩).turnTo (.taken e)) := by
  obtain ⟨hdispatching, rest, hevents, rfl⟩ := nextEvent?_eq_some_iff.mp next
  obtain ⟨rounds, current, hdeeds, hrounds, hbegun⟩ := kept.rounds
  have hgoing : ¬ s.tab.connection.dispatching = false := by simp [hdispatching]
  rw [idle] at hbegun
  cases hbegun with
  | idle =>
      exact
        { order := by
            have horder := kept.order
            rw [idle, hevents] at horder
            rw [handled_snoc, delivered_snoc]
            simpa [handled, delivered, Errand.event?, turnTo, withTraffic] using horder
          rounds := by
            refine ⟨rounds, [.take e], ?_, by simpa [delivered] using hrounds, .taken e⟩
            rw [deeds_snoc, hdeeds, List.append_nil]
            rfl
          ended := fun hended => absurd hended hgoing
          settled := fun hmem =>
            absurd (kept.settled (settle_mem_snoc (by simp) hmem)) hgoing }

/-- The dispatching task goes on with the event in hand. -/
theorem Kept.goOn (kept : Kept h s) {l : Label} {errand : Errand} (deed : l.isDeed = true)
    (unheard : handled [l] = []) (silent : delivered [l] = [])
    (busy : s.errand ≠ .idle) (same : errand.event? = s.errand.event?)
    (begun : ∀ current, Begun s.errand current → Begun errand (current ++ [l])) :
    Kept (h ++ [l]) (s.turnTo errand) where
  order := by
    rw [handled_snoc, unheard, List.append_nil, delivered_snoc, silent, List.append_nil,
      kept.order, ← same]
    rfl
  rounds := by
    obtain ⟨rounds, current, hdeeds, hrounds, hbegun⟩ := kept.rounds
    refine ⟨rounds, current ++ [l], ?_, ?_, begun current hbegun⟩
    · have hdeed : deeds [l] = [l] := by simp [deeds, deed]
      rw [deeds_snoc, hdeeds, hdeed, List.append_assoc]
    · rwa [delivered_snoc, silent, List.append_nil]
  ended hended := absurd (kept.ended hended).2.1 busy
  settled hmem := by
    refine kept.settled (settle_mem_snoc ?_ hmem)
    rintro rfl
    cases deed

/-- The waiters are told, which ends a round. -/
theorem Kept.record (kept : Kept h s) (now : Instant) {e : Event}
    (called : s.errand = .calling e []) :
    Kept (h ++ [.record now e]) ((s.tell now e).turnTo .idle) where
  order := by
    have horder := kept.order
    rw [called] at horder
    rw [handled_snoc, delivered_snoc]
    simpa [handled, delivered, Errand.event?, turnTo, tell] using horder
  rounds := by
    obtain ⟨rounds, current, hdeeds, hrounds, hbegun⟩ := kept.rounds
    rw [called] at hbegun
    cases hbegun with
    | @calling e callbacks left calls calling =>
        refine ⟨rounds ++ [.take e :: .find e callbacks :: (calls ++ [.record now e])], [], ?_, ?_,
          .idle⟩
        · rw [deeds_snoc, hdeeds]
          simp [deeds, Label.isDeed]
        · rw [delivered_snoc]
          exact List.rel_append hrounds (.cons ⟨callbacks, calls, now, calling.called, rfl⟩ .nil)
  ended hended := by
    have hidle := (kept.ended hended).2.1
    rw [called] at hidle
    cases hidle
  settled hmem := kept.settled (settle_mem_snoc (by simp) hmem)

/-- Dispatching ends, with nothing left. -/
theorem Kept.settle (kept : Kept h s) (idle : s.errand = .idle) {c : Connection}
    (settled : s.tab.connection.settle? = some c) (calls : Nat → Option Traffic.Call) :
    Kept (h ++ [.settle]) (s.withTraffic ⟨c, calls⟩) := by
  obtain ⟨hreceiving, hevents, rfl⟩ := eq_of_settle? settled
  have hhandled : handled (h ++ [.settle]) = handled h := by simp [handled]
  have hdelivered : delivered (h ++ [.settle]) = delivered h := by simp [delivered]
  have hdeeds : deeds (h ++ [.settle]) = deeds h := by simp [deeds, Label.isDeed]
  exact
    { order := by rw [hhandled, hdelivered]; exact kept.order
      rounds := by rw [hdeeds, hdelivered]; exact kept.rounds
      ended := fun _ => ⟨hreceiving, idle, hevents⟩
      settled := fun _ => rfl }

theorem Kept.step (kept : Kept h s) {l : Label} (step : Step s l s') : Kept (h ++ [l]) s' := by
  cases step with
  | @traffic t l others step =>
      refine kept.grow rfl rfl (by simp) rfl ?_
      rw [announced_by]
      exact Step.grows step others
  | @change tab same =>
      refine kept.grow rfl rfl (by simp) rfl ?_
      exact grows_of_same (by rw [same]) (by rw [same]) (by rw [same])
  | take idle step =>
      cases step with
      | dispatch next => exact kept.take idle next _
  | @find e taken =>
      refine kept.goOn rfl rfl rfl (by simp [taken]) (by rw [taken]; rfl) fun current hbegun => ?_
      rw [taken] at hbegun
      cases hbegun with
      | taken e => exact .calling (.inl ⟨[], rfl, rfl⟩)
  | @call e f rest answer calling =>
      refine kept.goOn rfl rfl rfl (by simp [calling]) (by rw [calling]; rfl)
        fun current hbegun => ?_
      rw [calling] at hbegun
      cases hbegun with
      | calling calling => exact .calling (calling.call answer)
  | record now called => exact kept.record now called
  | settle idle step =>
      cases step with
      | settle settled => exact kept.settle idle settled _

end

theorem Run.kept {replyTimeout : Duration} {h : History} {s : Delivery}
    (run : Run replyTimeout h s) : Kept h s := by
  induction run with
  | start fresh => exact kept_start fresh
  | snoc before step ih => exact ih.step step

/-! ## Nothing is lost -/

/-- The dispatching task can always finish what it is about. -/
theorem Run.finishErrand {replyTimeout : Duration} {h : History} {s : Delivery}
    (run : Run replyTimeout h s) :
    ∃ more s', Run replyTimeout (h ++ more) s' ∧ (∀ l ∈ more, l.isDeed = true) ∧
      s'.errand = .idle ∧ s'.tab.connection = s.tab.connection := by
  have call {h : History} {s : Delivery} {e : Event} {callbacks : List Callback}
      (run : Run replyTimeout h s) (calling : s.errand = .calling e callbacks) :
      ∃ more s', Run replyTimeout (h ++ more) s' ∧ (∀ l ∈ more, l.isDeed = true) ∧
        s'.errand = .idle ∧ s'.tab.connection = s.tab.connection := by
    obtain ⟨more, called, hdeeds, -⟩ := run.callbacks calling (World.empty, [])
    have recorded := called.snoc (.record 0 rfl)
    rw [List.append_assoc] at recorded
    refine ⟨_, _, recorded, ?_, rfl, rfl⟩
    exact List.forall_mem_append.mpr ⟨hdeeds, List.forall_mem_singleton.mpr rfl⟩
  cases herrand : s.errand with
  | idle => exact ⟨[], s, by simpa using run, List.forall_mem_nil _, herrand, rfl⟩
  | taken e =>
      obtain ⟨more, s', run', hdeeds, hidle, hsame⟩ := call (run.snoc (.find herrand)) rfl
      rw [List.append_assoc, List.singleton_append] at run'
      exact ⟨_, s', run', List.forall_mem_cons.mpr ⟨rfl, hdeeds⟩, hidle, hsame⟩
  | calling e callbacks => exact call run herrand

/-- It can go on until nothing is left to dispatch, whatever else has happened. -/
theorem Run.drain {replyTimeout : Duration} {h : History} {s : Delivery}
    (run : Run replyTimeout h s) (dispatching : s.tab.connection.dispatching = true) :
    ∃ more s', Run replyTimeout (h ++ more) s' ∧ (∀ l ∈ more, l.isDeed = true) ∧
      s'.errand = .idle ∧ s'.tab.connection.events = [] := by
  generalize hevents : s.tab.connection.events = events
  induction events generalizing h s with
  | nil =>
      obtain ⟨more, s', run', hdeeds, hidle, hsame⟩ := run.finishErrand
      exact ⟨more, s', run', hdeeds, hidle, by rw [hsame, hevents]⟩
  | cons e rest ih =>
      obtain ⟨done, s₁, run₁, hdone, hidle, hsame⟩ := run.finishErrand
      have hnext : s₁.tab.connection.nextEvent? =
          some ({ s.tab.connection with events := rest }, e) :=
        nextEvent?_eq_some_iff.mpr (by rw [hsame]; exact ⟨dispatching, rest, hevents, rfl⟩)
      have taken := run₁.snoc (.take hidle (.dispatch hnext))
      obtain ⟨more, s', run', hmore, hend⟩ := ih taken dispatching rfl
      rw [List.append_assoc, List.append_assoc, List.singleton_append] at run'
      refine ⟨_, s', run', ?_, hend⟩
      exact List.forall_mem_append.mpr ⟨hdone, List.forall_mem_cons.mpr ⟨rfl, hmore⟩⟩

theorem Run.finishes {replyTimeout : Duration} {h : History} {s : Delivery}
    (run : Run replyTimeout h s) :
    ∃ more s', Run replyTimeout (h ++ more) s' ∧ (∀ l ∈ more, l.isDeed = true) ∧
      s'.errand = .idle ∧ s'.tab.connection.events = [] := by
  cases hdispatching : s.tab.connection.dispatching with
  | true => exact run.drain hdispatching
  | false =>
      obtain ⟨-, hidle, hevents⟩ := run.kept.ended hdispatching
      exact ⟨[], s, by simpa using run, List.forall_mem_nil _, hidle, hevents⟩

theorem handled_append_deeds {h more : History} (deeds : ∀ l ∈ more, l.isDeed = true) :
    handled (h ++ more) = handled h := by
  have hnone : handled more = [] := by
    refine List.filterMap_eq_nil_iff.mpr fun l hl => ?_
    have hdeed := deeds l hl
    cases l <;> first | rfl | cases hdeed
  rw [handled, List.filterMap_append, ← handled, ← handled, hnone, List.append_nil]

/-- With nothing in hand and nothing queued, all that was announced is delivered. -/
theorem Kept.all {h : History} {s : Delivery} (kept : Kept h s) (idle : s.errand = .idle)
    (empty : s.tab.connection.events = []) : Announced (handled h) (delivered h) := by
  have horder := kept.order
  rw [idle, empty] at horder
  have hall : (handled h).filterMap announced? = delivered h := by
    simpa [Errand.event?] using horder
  rw [← hall]
  exact announced_filterMap _

/-- **Every announced event is delivered once, in order.** After any history,

* the events whose messages were handled are, in the order of these messages, those the waiters
  were told of, then the one that is in hand, then those that are queued;
* the dispatching task did one round for each of them, one after the other: it took the event,
  found the callbacks of the event's domain, called them up to the first that stopped, and told
  the waiters;
* once dispatching has ended all of them are delivered, and until then the dispatching task can
  always go on by itself until they are, whether or not receiving has ended. -/
theorem events_are_delivered_in_order {replyTimeout : Duration} {h : History} {s : Delivery}
    (run : Run replyTimeout h s) :
    Announced (handled h)
        (delivered h ++ s.errand.event?.toList ++ s.tab.connection.events) ∧
      InRounds (deeds h) (delivered h) s.errand.event? ∧
      (∀ past future e callbacks, h = past ++ .find e callbacks :: future →
        ∃ s₁, Run replyTimeout past s₁ ∧
          callbacks = ((s₁.tab.registry? e.domain).map fun r => r.listeners e.name).getD []) ∧
      (∀ past future now e, h = past ++ .record now e :: future →
        ∃ s₁ s₂, Run replyTimeout past s₁ ∧ Run replyTimeout (past ++ [.record now e]) s₂ ∧
          s₂.tab.waiters = s₁.tab.waiters.record now e) ∧
      (.settle ∈ h → Announced (handled h) (delivered h)) ∧
      ∃ more s', Run replyTimeout (h ++ more) s' ∧ (∀ l ∈ more, l.isDeed = true) ∧
        handled (h ++ more) = handled h ∧ Announced (handled h) (delivered (h ++ more)) := by
  have kept := run.kept
  refine ⟨?_, ?_, ?_, ?_, ?_, ?_⟩
  · rw [← kept.order]
    exact announced_filterMap _
  · obtain ⟨rounds, current, hdeeds, hrounds, hbegun⟩ := kept.rounds
    exact ⟨rounds, current, hdeeds, hrounds, hbegun.round⟩
  · rintro past future e callbacks rfl
    obtain ⟨s₁, s₂, run₁, step⟩ := run.split
    refine ⟨s₁, run₁, ?_⟩
    cases step with
    | find taken => cases hregistry : s₁.tab.registry? e.domain <;> simp [callbacksFor, hregistry]
  · rintro past future now e rfl
    obtain ⟨s₁, s₂, run₁, step⟩ := run.split
    refine ⟨s₁, s₂, run₁, run₁.snoc step, ?_⟩
    cases step with
    | record now called => rfl
  · intro hsettled
    obtain ⟨-, hidle, hempty⟩ := kept.ended (kept.settled hsettled)
    exact kept.all hidle hempty
  · -- Whatever is left can be delivered without another message.
    obtain ⟨more, s', run', hdeeds, hidle, hempty⟩ := run.finishes
    have hhandled : handled (h ++ more) = handled h := handled_append_deeds hdeeds
    refine ⟨more, s', run', hdeeds, hhandled, ?_⟩
    rw [← hhandled]
    exact run'.kept.all hidle hempty

/-- An event that is dispatched after the debugger has hung up, and whose first callback keeps it
from the second. -/
theorem events_are_delivered_in_order_stopped :
    let m : Value := .ofMembers [("method", .string "Page.loaded")]
    let e : Event := ⟨"Page", "loaded", .object Record.empty⟩
    let first : Callback := .probe "first" true
    let second : Callback := .probe "second" false
    ∃ h s, Run 1000 h s ∧ handled h = [m] ∧
      deeds h = [.take e, .find e [first, second], .call e first .stop, .record 0 e] ∧
      Announced [m] [e] := by
  intro m e first second
  let pages : Registry Callback :=
    ⟨"Page", 2, [⟨⟨"Page", 1⟩, .exactly "Page.loaded", first⟩,
      ⟨⟨"Page", 2⟩, .exactly "Page.loaded", second⟩]⟩
  let tab : Tab := ⟨"T", "about:blank", .start 1000, [⟨"Page", some pages⟩], .start 0⟩
  have start : Run 1000 [] ⟨tab, fun _ => none, .idle⟩ := .start rfl
  have arrived := start.snoc (.traffic (l := .arrive m) not_false (.arrive m))
  have received := arrived.snoc (.traffic (l := .handle m) not_false (.handle rfl rfl rfl rfl))
  have hungUp := received.snoc (.traffic (l := .endInbox) not_false .endInbox)
  have closed := hungUp.snoc (.traffic (l := .markClosed) not_false (.markClosed rfl rfl rfl))
  have failed := closed.snoc (.traffic (l := .failPending) not_false (.failPending rfl rfl))
  have taken := failed.snoc (.take (e := e) rfl (.dispatch rfl))
  have found := taken.snoc (.find rfl)
  have called := found.snoc (@Step.call _ e first [second] .stop rfl)
  have recorded := called.snoc (.record 0 rfl)
  have settled := recorded.snoc (.settle rfl (.settle rfl))
  obtain ⟨-, -, -, -, hall, -⟩ := events_are_delivered_in_order settled
  exact ⟨_, _, settled, rfl, rfl, hall (by simp)⟩

end TabPilot.Delivery
