import TabPilot.Proofs.Connection.Delivery
import TabPilot.Rehearsal.Activity

set_option autoImplicit false

/-! # Stopping a connection

Any number of callers may stop a connection, at any time and several at once. The first to ask
waits until receiving has ended, closes the way to the debugger, and waits until dispatching has
ended; whoever asks later waits for nothing. `Shutdown` is a `Delivery` with such callers, and
`Shutdown.Step` a step of one of them or of somebody else.

The main statement, `first_stop_is_complete`, says what the first caller can rely on once it is
back. Nobody else can rely on that: `later_stop_is_not_complete` is a run in which a second caller
is back while everything still goes on. The last lemma says that `Activity.stopStep` is a run of
these steps.
-/

namespace TabPilot

/-- How far a caller that stops a connection has come. -/
inductive Shutdown.Caller
  | busy (phase : StopPhase)
  /-- It has returned, after it waited for the tasks or without. -/
  | back (waited : Bool)

/-- The deliveries on a tab, and the callers that stop its connection. -/
structure Shutdown where
  delivery : Delivery
  callers : Nat → Shutdown.Caller

namespace Shutdown

def connection (s : Shutdown) : Connection := s.delivery.tab.connection

def move (s : Shutdown) (c : Connection) (i : Nat) (caller : Caller) : Shutdown :=
  ⟨s.delivery.withTraffic (s.delivery.traffic.withConnection c),
    Function.update s.callers i caller⟩

@[simp] theorem move_callers_self (s : Shutdown) (c : Connection) (i : Nat) (caller : Caller) :
    (s.move c i caller).callers i = caller :=
  Function.update_self i _ _

theorem move_callers_of_ne (s : Shutdown) (c : Connection) {i j : Nat} (caller : Caller)
    (hne : j ≠ i) : (s.move c i caller).callers j = s.callers j :=
  Function.update_of_ne hne _ _

/-- Whether a step on the connection is one of those that stop it. -/
def IsStopping : Delivery.Label → Prop
  | .traffic .ask | .traffic .shut => True
  | _ => False

inductive Step : Shutdown → Delivery.History → Shutdown → Prop
  | other {s : Shutdown} {d : Delivery} {l : Delivery.Label} (others : ¬ IsStopping l)
      (step : Delivery.Step s.delivery l d) : Step s [l] { s with delivery := d }
  | ask {s : Shutdown} {i : Nat} (asking : s.callers i = .busy .asking) :
      Step s [.traffic .ask] (s.move s.connection.askToStop.1 i
        (if s.connection.askToStop.2 then .busy .closing else .back false))
  | shut {s : Shutdown} {i : Nat} (closing : s.callers i = .busy .closing)
      (ended : s.connection.receiving = false) :
      Step s [.traffic .shut] (s.move s.connection.shut i (.busy .draining))
  | leave {s : Shutdown} {i : Nat} (draining : s.callers i = .busy .draining)
      (ended : s.connection.dispatching = false) :
      Step s [] (s.move s.connection i (.back true))

/-- A history of steps from a tab with a new connection on, which nobody has asked to stop yet, and
the state after it. -/
inductive Run (replyTimeout : Duration) : Delivery.History → Shutdown → Prop
  | start {tab : Tab} (fresh : tab.connection = Connection.start replyTimeout) :
      Run replyTimeout [] ⟨⟨tab, fun _ => none, .idle⟩, fun _ => .busy .asking⟩
  | snoc {h more : Delivery.History} {s s' : Shutdown} (before : Run replyTimeout h s)
      (step : Step s more s') : Run replyTimeout (h ++ more) s'

/-! ## The runs beneath -/

/-- Without its callers, a run of a shutdown is a run of deliveries. -/
theorem Run.delivery {replyTimeout : Duration} {h : Delivery.History} {s : Shutdown}
    (run : Run replyTimeout h s) : Delivery.Run replyTimeout h s.delivery := by
  induction run with
  | start fresh => exact .start fresh
  | snoc before step ih =>
      cases step with
      | other others step => exact ih.snoc step
      | ask asking => exact ih.snoc (.traffic not_false .ask)
      | shut closing ended => exact ih.snoc (.traffic not_false (.shut ended))
      | leave draining ended =>
          rw [List.append_nil]
          exact ih

end Shutdown

/-- A step of a delivery is a step on the connection, or leaves it and its calls alone. -/
theorem Delivery.Step.traffic_cases {s s' : Delivery} {l : Delivery.Label}
    (step : Delivery.Step s l s') :
    s'.traffic = s.traffic ∨ ∃ l', Traffic.Step s.traffic l' s'.traffic := by
  cases step with
  | traffic others step => exact .inr ⟨_, step⟩
  | @change tab same =>
      refine .inl ?_
      rw [Delivery.traffic, Delivery.traffic, same]
  | take idle step => exact .inr ⟨_, step⟩
  | find | call | record => exact .inl rfl
  | settle idle step => exact .inr ⟨_, step⟩

/-- Without the dispatching task's errand, a run of deliveries is a run of traffic. -/
theorem Delivery.Run.traffic {replyTimeout : Duration} {h : Delivery.History} {s : Delivery}
    (run : Delivery.Run replyTimeout h s) : ∃ h', Traffic.Run replyTimeout h' s.traffic := by
  induction run with
  | start fresh =>
      refine ⟨[], ?_⟩
      rw [Delivery.traffic, fresh]
      exact .start
  | snoc before step ih =>
      obtain ⟨h', run'⟩ := ih
      rcases step.traffic_cases with hsame | ⟨l, hstep⟩
      · exact ⟨h', hsame ▸ run'⟩
      · exact ⟨_, run'.snoc hstep⟩

/-! ## What never comes back -/

/-- A connection after a step of anybody but a caller that asks it to stop: what has ended stays
so. -/
structure Connection.Onward (c c' : Connection) : Prop where
  stopping : c'.stopping = c.stopping
  receiving : c.receiving = false → c'.receiving = false
  dispatching : c.dispatching = false → c'.dispatching = false
  writable : c.writable = false → c'.writable = false

theorem Connection.Onward.of_same {c c' : Connection} (stopping : c'.stopping = c.stopping)
    (receiving : c'.receiving = c.receiving) (dispatching : c'.dispatching = c.dispatching)
    (writable : c'.writable = c.writable) : Connection.Onward c c' :=
  ⟨stopping, receiving.trans, dispatching.trans, writable.trans⟩

theorem Connection.Onward.handle (c : Connection) (rest : List Value) (m : Value) :
    Connection.Onward c ({ c with inbox := rest }.handle m).1 := by
  unfold Connection.handle
  split
  · split <;> exact .of_same rfl rfl rfl rfl
  all_goals exact .of_same rfl rfl rfl rfl

theorem Traffic.Step.onward {s s' : Traffic} {l : Traffic.Label} (step : Traffic.Step s l s')
    (others : l ≠ .ask) : Connection.Onward s.connection s'.connection := by
  cases step with
  | begin r taken =>
      obtain ⟨-, rfl⟩ := Traffic.takeId?_eq_ok taken
      exact .of_same rfl rfl rfl rfl
  | confirm there inTime =>
      obtain ⟨-, rfl⟩ := Traffic.confirm_eq_ok inTime
      exact .of_same rfl rfl rfl rfl
  | tooLate there late =>
      rw [Traffic.moveTo_connection, Traffic.confirm_eq_error late]
      exact .of_same rfl rfl rfl rfl
  | write now there expects written | post there expects written =>
      unfold Connection.write at written
      split at written <;> cases written
      exact .of_same rfl rfl rfl rfl
  | handle receiving isOpen goesOn next => exact .handle _ _ _
  | ask => exact absurd rfl others
  | failPending receiving closed => exact ⟨rfl, fun _ => rfl, id, id⟩
  | dispatch next =>
      obtain ⟨-, rest, -, rfl⟩ := Delivery.nextEvent?_eq_some_iff.mp next
      exact .of_same rfl rfl rfl rfl
  | settle settled =>
      obtain ⟨-, -, rfl⟩ := Delivery.eq_of_settle? settled
      exact ⟨rfl, id, fun _ => rfl, id⟩
  | breakPipe | shut => exact ⟨rfl, id, id, fun _ => rfl⟩
  | refuse | enlist | failWrite | collect | arrive | endInbox | read | markClosed =>
      exact .of_same rfl rfl rfl rfl

theorem Delivery.Step.onward {s s' : Delivery} {l : Delivery.Label}
    (step : Delivery.Step s l s') (others : l ≠ .traffic .ask) :
    Connection.Onward s.tab.connection s'.tab.connection := by
  cases step with
  | @traffic t l dispatching step => exact step.onward (by rintro rfl; exact others rfl)
  | change same => exact .of_same (by rw [same]) (by rw [same]) (by rw [same]) (by rw [same])
  | take idle step | settle idle step => exact step.onward nofun
  | find | call | record => exact .of_same rfl rfl rfl rfl

namespace Shutdown

/-! ## What every run keeps -/

def Caller.IsFirst : Caller → Prop
  | .busy .closing | .busy .draining | .back true => True
  | .busy .asking | .back false => False

def Caller.Fits (c : Connection) : Caller → Prop
  | .busy .asking => True
  | .busy .closing | .back false => c.stopping = true
  | .busy .draining => c.stopping = true ∧ c.receiving = false ∧ c.writable = false
  | .back true => c.stopping = true ∧ c.receiving = false ∧ c.writable = false ∧
      c.dispatching = false

theorem Caller.Fits.onward {c c' : Connection} {caller : Caller} (fits : caller.Fits c)
    (onward : c.Onward c') : caller.Fits c' := by
  have hstopping (asked : c.stopping = true) : c'.stopping = true := onward.stopping.trans asked
  cases caller with
  | busy phase =>
      cases phase with
      | asking => trivial
      | closing => exact hstopping fits
      | draining =>
          obtain ⟨hasked, hreceiving, hwritable⟩ := fits
          exact ⟨hstopping hasked, onward.receiving hreceiving, onward.writable hwritable⟩
  | back waited =>
      cases waited with
      | false => exact hstopping fits
      | true =>
          obtain ⟨hasked, hreceiving, hwritable, hdispatching⟩ := fits
          exact ⟨hstopping hasked, onward.receiving hreceiving, onward.writable hwritable,
            onward.dispatching hdispatching⟩

/-- As long as a connection was not asked to stop, everybody is yet to ask. -/
theorem Caller.Fits.eq_asking {c : Connection} {caller : Caller} (fits : caller.Fits c)
    (running : c.stopping = false) : caller = .busy .asking := by
  have hnot : ¬ c.stopping = true := by simp [running]
  match caller, fits with
  | .busy .asking, _ => rfl
  | .busy .closing, hasked => exact absurd hasked hnot
  | .busy .draining, hfits => exact absurd hfits.1 hnot
  | .back false, hasked => exact absurd hasked hnot
  | .back true, hfits => exact absurd hfits.1 hnot

/-- The callers and the connection fit together. -/
structure Orderly (s : Shutdown) : Prop where
  fits : ∀ i, (s.callers i).Fits s.connection
  one : ∀ i j, (s.callers i).IsFirst → (s.callers j).IsFirst → i = j
  first : s.connection.stopping = true → ∃ i, (s.callers i).IsFirst

theorem Orderly.other {s : Shutdown} (orderly : Orderly s) {d : Delivery}
    (onward : s.connection.Onward d.tab.connection) : Orderly { s with delivery := d } where
  fits i := (orderly.fits i).onward onward
  one := orderly.one
  first asked := orderly.first (onward.stopping.symm.trans asked)

/-- A caller goes on, without becoming the first or ceasing to be it. -/
theorem Orderly.move {s : Shutdown} (orderly : Orderly s) {c : Connection}
    (onward : s.connection.Onward c) {i : Nat} {caller : Caller} (fits : caller.Fits c)
    (same : caller.IsFirst ↔ (s.callers i).IsFirst) : Orderly (s.move c i caller) := by
  have hfirst (j : Nat) : ((s.move c i caller).callers j).IsFirst ↔ (s.callers j).IsFirst := by
    by_cases hj : j = i
    · subst hj
      rw [move_callers_self, same]
    · rw [move_callers_of_ne s c caller hj]
  exact
    { fits := (Function.forall_update_iff s.callers fun _ x => x.Fits c).mpr
        ⟨fits, fun j _ => (orderly.fits j).onward onward⟩
      one := fun j k hj hk => orderly.one j k ((hfirst j).mp hj) ((hfirst k).mp hk)
      first := fun asked => by
        obtain ⟨j, hj⟩ := orderly.first (onward.stopping.symm.trans asked)
        exact ⟨j, (hfirst j).mpr hj⟩ }

theorem Orderly.ask {s : Shutdown} (orderly : Orderly s) {i : Nat}
    (asking : s.callers i = .busy .asking) :
    Orderly (s.move s.connection.askToStop.1 i
      (if s.connection.askToStop.2 then .busy .closing else .back false)) := by
  unfold Connection.askToStop
  split
  · next hasked => exact orderly.move (.of_same rfl rfl rfl rfl) hasked (by rw [asking]; rfl)
  · next hrunning =>
      -- Nobody has asked before, so the caller that asks now is the only one that is not asking.
      have hothers (j : Nat) : s.callers j = .busy .asking :=
        (orderly.fits j).eq_asking (by simpa using hrunning)
      have hfirst (c : Connection) (j : Nat)
          (h : ((s.move c i (.busy .closing)).callers j).IsFirst) : j = i := by
        by_contra hne
        rw [move_callers_of_ne s c _ hne, hothers] at h
        exact h
      exact
        { fits := (Function.forall_update_iff s.callers fun _ x => x.Fits _).mpr
            ⟨rfl, fun j _ => by rw [hothers]; trivial⟩
          one := fun j k hj hk => (hfirst _ j hj).trans (hfirst _ k hk).symm
          first := fun _ => ⟨i, by rw [if_pos rfl, move_callers_self]; trivial⟩ }

theorem Orderly.step {s s' : Shutdown} (orderly : Orderly s) {more : Delivery.History}
    (step : Step s more s') : Orderly s' := by
  cases step with
  | other others step => exact orderly.other (step.onward (by rintro rfl; exact others trivial))
  | ask asking => exact orderly.ask asking
  | @shut i closing ended =>
      have hasked := orderly.fits i
      rw [closing] at hasked
      have honward : s.connection.Onward s.connection.shut := ⟨rfl, id, id, fun _ => rfl⟩
      have hdraining : (Caller.busy .draining).Fits s.connection.shut := ⟨hasked, ended, rfl⟩
      exact orderly.move honward hdraining (by rw [closing]; rfl)
  | @leave i draining ended =>
      have hfits := orderly.fits i
      rw [draining] at hfits
      obtain ⟨hasked, hreceiving, hwritable⟩ := hfits
      have hback : (Caller.back true).Fits s.connection := ⟨hasked, hreceiving, hwritable, ended⟩
      exact orderly.move (.of_same rfl rfl rfl rfl) hback (by rw [draining]; rfl)

theorem Run.orderly {replyTimeout : Duration} {h : Delivery.History} {s : Shutdown}
    (run : Run replyTimeout h s) : Orderly s := by
  induction run with
  | @start tab fresh =>
      exact
        { fits := fun _ => trivial
          one := fun _ _ hfirst => hfirst.elim
          first := fun asked => by
            rw [connection, fresh] at asked
            cases asked }
  | snoc before step ih => exact ih.step step

/-! ## What the first caller can rely on -/

/-- Nothing goes on any more on a connection: it is closed in both directions, its tasks have
ended, every event that was announced is delivered, and what is pending, if anything, is about to
look again and to be refused. -/
structure Complete (h : Delivery.History) (d : Delivery) : Prop where
  closed : d.tab.connection.closed = true
  unwritable : d.tab.connection.writable = false
  receiving : d.tab.connection.receiving = false
  dispatching : d.tab.connection.dispatching = false
  delivered : Delivery.Announced (Delivery.handled h) (Delivery.delivered h)
  pending : ∀ id ∈ d.traffic.pendingIds, ∃ r, d.calls id = some ⟨r, .enlisted⟩

/-- **The first to stop a connection is back only when everything is over.** There is at most one
such caller, and there is one as soon as anybody else is back. -/
theorem first_stop_is_complete {replyTimeout : Duration} {h : Delivery.History} {s : Shutdown}
    (run : Run replyTimeout h s) :
    (∀ i, s.callers i = .back true → Complete h s.delivery) ∧
      (∀ i j, (s.callers i).IsFirst → (s.callers j).IsFirst → i = j) ∧
      ∀ i, s.callers i = .back false → ∃ j, (s.callers j).IsFirst := by
  have orderly := run.orderly
  refine ⟨fun i hback => ?_, orderly.one, fun i hback => ?_⟩
  · have hfits := orderly.fits i
    rw [hback] at hfits
    obtain ⟨-, hreceiving, hwritable, hdispatching⟩ := hfits
    obtain ⟨h', traffic⟩ := run.delivery.traffic
    obtain ⟨hclosed, hpending⟩ := traffic.sound.afterEnd hreceiving
    obtain ⟨-, hidle, hevents⟩ := run.delivery.kept.ended hdispatching
    exact ⟨hclosed, hwritable, hreceiving, hdispatching, run.delivery.kept.all hidle hevents,
      hpending⟩
  · have hfits := orderly.fits i
    rw [hback] at hfits
    exact orderly.first hfits

/-- Whoever stops a connection that was asked before is back at once, here while a request is
pending, an event is queued, and both tasks go on. -/
theorem later_stop_is_not_complete :
    ∃ h s, Run 1000 h s ∧ s.callers 2 = .back false ∧ s.connection.closed = false ∧
      s.connection.receiving = true ∧ s.connection.dispatching = true ∧
      s.delivery.traffic.pendingIds = [1] ∧
      s.connection.events = [⟨"Page", "loaded", .object Record.empty⟩] := by
  let m : Value := .ofMembers [("method", .string "Page.loaded")]
  let tab : Tab := ⟨"T", "about:blank", .start 1000, [], .start 0⟩
  have begun := (@Run.start 1000 tab rfl).snoc
    (.other (l := .traffic (.begin 1 ⟨"Page.enable", .null, true, 1000⟩)) not_false
      (.traffic not_false (.begin _ rfl)))
  have pending := begun.snoc (.other (l := .traffic (.enlist 1)) not_false
    (.traffic not_false (.enlist rfl)))
  have arrived := pending.snoc (.other (l := .traffic (.arrive m)) not_false
    (.traffic not_false (.arrive m)))
  have queued := arrived.snoc (.other (l := .traffic (.handle m)) not_false
    (.traffic not_false (.handle rfl rfl rfl rfl)))
  have first := queued.snoc (@Step.ask _ 1 rfl)
  have later := first.snoc (@Step.ask _ 2 rfl)
  exact ⟨_, _, later, rfl, rfl, rfl, rfl, rfl, rfl⟩

/-! ## Stopping tabs one after the other -/

/-- The activity of a caller that stops a tab and then others. -/
def Caller.activity (t : TabId) (rest : List TabId) : Caller → Activity
  | .busy phase => .stopping (t :: rest) phase
  | .back _ => .stopping rest .asking

/-- **Stopping is a run.** A step of an activity that stops a tab leads to where a step of a
caller leads. -/
theorem Run.stopStep {replyTimeout : Duration} {h : Delivery.History} {s : Shutdown}
    (run : Run replyTimeout h s) {i : Nat} {phase : StopPhase}
    (busy : s.callers i = .busy phase) {w : World} {t : TabId}
    (there : w.tab? t = some s.delivery.tab) (rest : List TabId) :
    ∃ more s', Run replyTimeout (h ++ more) s' ∧
      (Activity.stopStep w t rest phase).1.tab? t = some s'.delivery.tab ∧
      (Activity.stopStep w t rest phase).2 = (s'.callers i).activity t rest := by
  have hconnection : Activity.connection? w t = some s.connection := by
    rw [Activity.connection?, there]
    rfl
  -- A phase that is not over yet leaves everything as it is.
  have stay : ∃ more s', Run replyTimeout (h ++ more) s' ∧
      w.tab? t = some s'.delivery.tab ∧
      Activity.stopping (t :: rest) phase = (s'.callers i).activity t rest :=
    ⟨[], s, by rwa [List.append_nil], there, by rw [busy]; rfl⟩
  cases phase with
  | asking =>
      have asked := run.snoc (.ask busy)
      refine ⟨_, _, asked, ?_⟩
      simp only [Activity.stopStep, hconnection, move_callers_self]
      by_cases hstopping : s.connection.stopping = true
      · simp only [Connection.askToStop, if_pos hstopping]
        exact ⟨there, rfl⟩
      · simp only [Connection.askToStop, if_neg hstopping]
        exact ⟨Delivery.tab?_modifyTab there _, rfl⟩
  | closing =>
      simp only [Activity.stopStep, hconnection]
      by_cases hreceiving : s.connection.receiving = true
      · rw [if_pos hreceiving]
        exact stay
      · rw [if_neg hreceiving]
        have shut := run.snoc (.shut busy (by simpa using hreceiving))
        exact ⟨_, _, shut, Delivery.tab?_modifyTab there _, by rw [move_callers_self]; rfl⟩
  | draining =>
      simp only [Activity.stopStep, hconnection]
      by_cases hdispatching : s.connection.dispatching = true
      · rw [if_pos hdispatching]
        exact stay
      · rw [if_neg hdispatching]
        have left := run.snoc (.leave busy (by simpa using hdispatching))
        exact ⟨_, _, left, there, by rw [move_callers_self]; rfl⟩

end Shutdown

end TabPilot
