import TabPilot.Proofs.Command.Scopes

set_option autoImplicit false

/-! # The world beside the scopes

`World.beside` is what there is of a world when its scopes are left out: the time, the execution
options, the log, and the tabs with everything that was written to their connections, but for the
scopes that handlers were registered in. All built-in commands but those on variables are the same
on a world and on what there is beside its scopes: the lemmas here have the form
`F w.beside = aside (F w)`, one for each function that commands are made of.
-/

namespace TabPilot

/-! ## Leaving the scopes out -/

def Callback.unscoped : Callback → Callback
  | .reaction r => .reaction { r with scope := 0 }
  | f => f

/-- The callbacks of a domain without scopes. -/
def Registry.unscoped (r : Registry Callback) : Registry Callback :=
  { r with
    registrations := r.registrations.map fun x => { x with callback := x.callback.unscoped } }

def Domain.unscoped (d : Domain) : Domain := { d with events := d.events.map Registry.unscoped }

def Tab.unscoped (t : Tab) : Tab := { t with domains := t.domains.map Domain.unscoped }

def Invocation.unscoped (i : Invocation) : Invocation := { i with scope := 0 }

def World.beside (w : World) : World :=
  { w with store := Store.empty, tabs := w.tabs.map Tab.unscoped }

/-- The same of the world that something has led to. -/
def aside {α : Type} (r : World × α) : World × α := (r.1.beside, r.2)

@[simp] theorem Callback.unscoped_unscoped (f : Callback) : f.unscoped.unscoped = f.unscoped := by
  cases f <;> rfl

@[simp] theorem Registry.unscoped_unscoped (r : Registry Callback) :
    r.unscoped.unscoped = r.unscoped := by
  simp [unscoped, Function.comp_def]

@[simp] theorem Tab.unscoped_unscoped (t : Tab) : t.unscoped.unscoped = t.unscoped := by
  simp [unscoped, Domain.unscoped, Function.comp_def]

@[simp] theorem World.beside_beside (w : World) : w.beside.beside = w.beside := by
  simp [beside, Function.comp_def]

/-! ## What stays -/

@[simp] theorem World.now_beside (w : World) : w.beside.now = w.now := rfl

@[simp] theorem World.options_beside (w : World) : w.beside.options = w.options := rfl

@[simp] theorem Tab.waiters_unscoped (t : Tab) : t.unscoped.waiters = t.waiters := rfl

@[simp] theorem Tab.connection_unscoped (t : Tab) : t.unscoped.connection = t.connection := rfl

namespace Invocation

variable (i : Invocation)

@[simp] theorem required_unscoped : i.unscoped.required = i.required := rfl

@[simp] theorem requiredText_unscoped : i.unscoped.requiredText = i.requiredText := rfl

@[simp] theorem option?_unscoped (name : String) : i.unscoped.option? name = i.option? name := rfl

@[simp] theorem millis_unscoped (name : String) (default : Nat) :
    i.unscoped.millis name default = i.millis name default := rfl

end Invocation

/-! ## Tabs -/

@[simp] theorem Tab.domainNames_unscoped (t : Tab) : t.unscoped.domainNames = t.domainNames := by
  simp [domainNames, unscoped, Domain.unscoped, Function.comp_def]

@[simp] theorem Tab.domain?_unscoped (t : Tab) (name : String) :
    t.unscoped.domain? name = (t.domain? name).map Domain.unscoped :=
  List.find?_map

namespace World

@[simp] theorem tab?_beside (w : World) (t : TabId) :
    w.beside.tab? t = (w.tab? t).map Tab.unscoped := List.getElem?_map

@[simp] theorem defaultTab_beside (w : World) : w.beside.defaultTab = w.defaultTab := by
  have hattached (b : Browser) (id : String) :
      w.beside.attachedTab? b id = w.attachedTab? b id := by
    unfold attachedTab?
    congr 1
    funext t
    rw [tab?_beside, Option.any_map]
    rfl
  simp only [defaultTab, hattached]
  rfl

theorem note_beside (w : World) (entry : LogEntry) :
    w.beside.note entry = (w.note entry).beside := rfl

theorem modifyTab_beside (w : World) (t : TabId) {f : Tab → Tab}
    (h : ∀ tab, f tab.unscoped = (f tab).unscoped) :
    w.beside.modifyTab t f = (w.modifyTab t f).beside := by
  have htabs : (w.tabs.map Tab.unscoped).modify t f = (w.tabs.modify t f).map Tab.unscoped := by
    refine List.ext_getElem? fun i => ?_
    rw [List.getElem?_modify, List.getElem?_map, List.getElem?_map, List.getElem?_modify]
    cases w.tabs[i]? with
    | none => split <;> rfl
    | some tab => split <;> simp [h]
  simp only [modifyTab, beside, htabs]

theorem modifyWaiters_beside (w : World) (t : TabId) (f : Waiters → Waiters) :
    w.beside.modifyWaiters t f = (w.modifyWaiters t f).beside :=
  w.modifyTab_beside t fun _ => rfl

theorem modifyConnection_beside (w : World) (t : TabId) (f : Connection → Connection) :
    w.beside.modifyConnection t f = (w.modifyConnection t f).beside :=
  w.modifyTab_beside t fun _ => rfl

/-! ## Calls -/

theorem withdraw_beside (w : World) (t : TabId) (p : Option PendingWait) :
    w.beside.withdraw t p = (w.withdraw t p).beside := by
  cases p with
  | none => rfl
  | some p => exact w.modifyWaiters_beside t fun waiters => waiters.withdraw p

theorem failCall_beside (w : World) (t : TabId) (next : AfterReply) (e : Error) :
    w.beside.failCall t next e = aside (w.failCall t next e) := by
  cases next with
  | navigation url load timeout => simp only [failCall, withdraw_beside, aside]
  | result | done | setup doing rest => rfl

theorem call_beside (w : World) (t : TabId) (method : String) (params : Value)
    (timeout : Option Duration) (next : AfterReply) :
    w.beside.call t method params timeout next = aside (w.call t method params timeout next) := by
  unfold World.call
  rw [tab?_beside]
  cases w.tab? t with
  | none => exact w.failCall_beside t next _
  | some tab =>
      simp only [Option.map_some, Tab.connection_unscoped, modifyConnection_beside, failCall_beside]
      split <;> rfl

theorem findDomain?_beside (w : World) (t : TabId) (wanted : String) :
    w.beside.findDomain? t wanted = w.findDomain? t wanted := by
  unfold findDomain?
  rw [tab?_beside]
  cases w.tab? t with
  | none => rfl
  | some tab => simp

theorem enable_beside (w : World) (t : TabId) (name : String) (rest : List SetupStep)
    {goOn : World → World × Progress} (h : goOn w.beside = aside (goOn w)) :
    w.beside.enable t name rest goOn = aside (w.enable t name rest goOn) := by
  have hdomain : ((w.beside.tab? t).bind fun tab => tab.domain? name) =
      ((w.tab? t).bind fun tab => tab.domain? name).map Domain.unscoped := by
    rw [tab?_beside]
    cases w.tab? t with
    | none => rfl
    | some tab => exact tab.domain?_unscoped name
  unfold enable
  rw [hdomain]
  cases (w.tab? t).bind fun tab => tab.domain? name with
  | none => rfl
  | some d =>
      obtain ⟨name', events⟩ := d
      cases events with
      | none => exact h
      | some registry => exact w.call_beside t _ _ _ _

theorem setUp_beside (w : World) (steps : List SetupStep) :
    w.beside.setUp steps = aside (w.setUp steps) := by
  induction steps generalizing w with
  | nil => rfl
  | cons step rest ih =>
      cases step with
      | enable t name => exact w.enable_beside t name rest (ih w)
      | find t wanted =>
          rw [setUp, setUp, findDomain?_beside]
          split
          · rfl
          · rw [note_beside]
            exact enable_beside _ t _ rest (ih _)
      | userAgent agent =>
          simp only [setUp, defaultTab_beside, call_beside]
          split <;> rfl
      | headers headers =>
          simp only [setUp, defaultTab_beside, call_beside]
          split <;> rfl

theorem afterReply_beside (w : World) (t : TabId) (next : AfterReply) (reply : Reply) :
    w.beside.afterReply t next reply = aside (w.afterReply t next reply) := by
  cases next with
  | result | done => rfl
  | setup doing rest => exact w.setUp_beside rest
  | navigation url load timeout =>
      simp only [afterReply, withdraw_beside]
      split <;> rfl

end World

/-! ## Going on after a wait -/

theorem Operation.resume?_beside (op : Operation) (w : World) :
    op.resume? w.beside = (op.resume? w).map aside := by
  -- An operation looks at the clock and at tabs, which are the same beside.
  cases op with
  | pause stop result =>
      simp only [resume?]
      show (if stop ≤ w.now then _ else _) = _
      split <;> rfl
  | wait t awaited result =>
      simp only [resume?, World.tab?_beside]
      cases w.tab? t with
      | none => rfl
      | some tab =>
          simp only [Option.map_some, Tab.waiters_unscoped, World.now_beside,
            World.modifyWaiters_beside, Option.map_map]
          cases awaited.look? tab.waiters w.now with
          | none => rfl
          | some r => rfl
  | reply call next =>
      simp only [resume?, World.tab?_beside]
      cases w.tab? call.tab with
      | none => rfl
      | some tab =>
          simp only [Option.map_some, Tab.connection_unscoped, World.now_beside,
            World.modifyConnection_beside, Option.map_map]
          cases tab.connection.outcome? call.id call.method call.since call.timeout w.now with
          | none => rfl
          | some r =>
              cases r with
              | ok answer => exact congrArg some (World.afterReply_beside _ call.tab next answer)
              | error e => exact congrArg some (World.failCall_beside _ call.tab next e)

/-! ## Commands -/

def CommandBody.IgnoresScopes (body : CommandBody) : Prop :=
  ∀ w i, body w.beside i.unscoped = aside (body w i)

theorem CommandBody.answering_ignoresScopes {f : Invocation → Except Error Value}
    (h : ∀ i : Invocation, f i.unscoped = f i) :
    (CommandBody.answering f).IgnoresScopes := by
  intro w i
  simp only [answering, h]
  rfl

namespace Core

theorem beginWait_beside (w : World) (t : TabId) (begin : Waiters → Waiters × Wait) :
    beginWait w.beside t begin = aside (beginWait w t begin) := by
  unfold beginWait
  rw [World.tab?_beside]
  cases w.tab? t with
  | none => rfl
  | some tab =>
      simp only [Option.map_some, Tab.waiters_unscoped, World.modifyWaiters_beside]
      rfl

theorem log_ignoresScopes : CommandBody.IgnoresScopes log := by
  intro w i
  have hentry : logEntry i.unscoped = logEntry i := rfl
  simp only [log, hentry, World.note_beside]
  split <;> rfl

theorem sleep_ignoresScopes : CommandBody.IgnoresScopes sleep := by
  intro w i
  simp only [sleep, Invocation.required_unscoped, World.now_beside]
  split
  · rfl
  · split <;> rfl

theorem rpc_ignoresScopes : CommandBody.IgnoresScopes rpc := by
  intro w i
  simp only [rpc, Invocation.requiredText_unscoped, World.defaultTab_beside, World.call_beside]
  split <;> rfl

theorem navigationParams_beside (w : World) (n : Navigation) :
    navigationParams w.beside n = aside (navigationParams w n) := by
  unfold navigationParams
  dsimp only
  split <;> rfl

theorem go_ignoresScopes : CommandBody.IgnoresScopes go := by
  intro w i
  have hasked : navigationOf w.beside i.unscoped = navigationOf w i := by
    unfold navigationOf
    rw [World.defaultTab_beside]
    rfl
  simp only [go, hasked]
  cases navigationOf w i with
  | error e => rfl
  | ok n =>
      -- The tab is looked up after the referrer was made up, which is a change of the world.
      have hparams := navigationParams_beside w n
      dsimp only
      generalize navigationParams w n = r at hparams ⊢
      obtain ⟨w', params⟩ := r
      rw [hparams]
      simp only [aside, World.tab?_beside]
      cases n.waits with
      | false => exact w'.call_beside n.tab _ _ _ _
      | true =>
          cases w'.tab? n.tab with
          | none => exact w'.call_beside n.tab _ _ _ _
          | some tab =>
              simp only [Option.map_some, Tab.waiters_unscoped, World.now_beside,
                World.modifyWaiters_beside]
              exact World.call_beside _ n.tab _ _ _ _

theorem waitForLoad_ignoresScopes : CommandBody.IgnoresScopes waitForLoad := by
  intro w i
  simp only [waitForLoad, World.defaultTab_beside, Invocation.millis_unscoped, World.now_beside,
    beginWait_beside]
  split <;> rfl

theorem eventSteps_beside (w : World) (i : Invocation) :
    eventSteps w.beside i.unscoped = eventSteps w i := by
  unfold eventSteps
  rw [World.defaultTab_beside]
  rfl

theorem configure_ignoresScopes : CommandBody.IgnoresScopes configure := by
  intro w i
  have hdelay : demoDelay i.unscoped = demoDelay i := rfl
  simp only [configure, hdelay, Invocation.option?_unscoped]
  cases demoDelay i with
  | error e => rfl
  | ok delay =>
      cases delay with
      | none =>
          simp only [eventSteps_beside]
          cases eventSteps w i with
          | error e => rfl
          | ok events => exact w.setUp_beside _
      | some d =>
          have hdelayed (options : Record Value) :
              eventSteps { w.beside with options } i.unscoped = eventSteps { w with options } i :=
            eventSteps_beside { w with options } i
          simp only [World.options_beside, hdelayed]
          cases eventSteps _ i with
          | error e => rfl
          | ok events => exact World.setUp_beside { w with options := _ } _

theorem withKey_ignoresScopes {f : World → Invocation → String → World × Value}
    (h : ∀ w i key, f w.beside i.unscoped key = aside (f w i key)) :
    (withKey f).IgnoresScopes := by
  intro w i
  simp only [withKey, Invocation.requiredText_unscoped, h]
  split <;> rfl

theorem commands_ignoreScopes : ∀ e ∈ commands.entries, e.body.IgnoresScopes := by
  simp only [commands, CommandSet.closed, List.forall_mem_cons]
  exact ⟨CommandBody.answering_ignoresScopes fun _ => rfl, log_ignoresScopes, sleep_ignoresScopes,
    rpc_ignoresScopes, go_ignoresScopes, waitForLoad_ignoresScopes, configure_ignoresScopes,
    withKey_ignoresScopes fun _ _ _ => rfl, withKey_ignoresScopes fun _ _ _ => rfl,
    withKey_ignoresScopes fun _ _ _ => rfl, List.forall_mem_nil _⟩

end Core

namespace Events

theorem waitFor_ignoresScopes : CommandBody.IgnoresScopes waitFor := by
  intro w i
  have hcriteria : criteria i.unscoped = criteria i := rfl
  simp only [waitFor, World.defaultTab_beside, Invocation.requiredText_unscoped,
    Invocation.millis_unscoped, hcriteria, World.now_beside, Core.beginWait_beside]
  split <;> rfl

theorem waitForIdle_ignoresScopes : CommandBody.IgnoresScopes waitForIdle := by
  intro w i
  have hnames : eventNames i.unscoped = eventNames i := rfl
  simp only [waitForIdle, World.defaultTab_beside, Invocation.required_unscoped,
    Invocation.millis_unscoped, hnames, World.now_beside, Core.beginWait_beside]
  split <;> rfl

theorem commands_ignoreScopes : ∀ e ∈ commands.entries, e.body.IgnoresScopes := by
  simp only [commands, CommandSet.closed, List.forall_mem_cons]
  exact ⟨waitFor_ignoresScopes, waitForIdle_ignoresScopes, List.forall_mem_nil _⟩

end Events

theorem Formatting.commands_ignoreScopes :
    ∀ e ∈ Formatting.commands.entries, e.body.IgnoresScopes := by
  simp only [Formatting.commands, List.forall_mem_cons]
  refine ⟨?_, ?_, ?_, ?_, ?_, ?_, ?_, ?_, ?_, ?_, ?_, List.forall_mem_nil _⟩ <;>
    exact CommandBody.answering_ignoresScopes fun _ => rfl

end TabPilot
