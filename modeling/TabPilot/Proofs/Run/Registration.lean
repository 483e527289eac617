import Mathlib.Data.List.Forall2
import TabPilot.Proofs.Client.Callbacks
import TabPilot.Proofs.Run.Course
import TabPilot.Proofs.Run.Steady

set_option autoImplicit false

/-! # Handlers are registered for a run

A script's handlers are registered one after the other in the default tab before its first
statement, and taken away again when it has ended, unless they are to stay. If one of them cannot
be registered, those before it are taken away and nothing is run. `Script.Executes` is the whole
of it. If nobody else registers or removes callbacks meanwhile, the callbacks of the tab are
afterwards what they were before, or these and one for each handler. Commands, handlers and
connections do neither (`World.sameDomains_perform`).
-/

namespace TabPilot

namespace World

/-! ## The domains of a tab -/

def domains? (w : World) (t : TabId) : Option (List Domain) := (w.tab? t).map Tab.domains

/-- Nobody has registered or removed callbacks of a tab between two worlds. -/
def SameDomains (t : TabId) (w w' : World) : Prop := w'.domains? t = w.domains? t

def callbacks? (w : World) (t : TabId) (domain : String) :
    Option (List (Registration Callback)) :=
  (w.tab? t).bind fun tab => tab.callbacks? domain

theorem domains?_modifyTab (w : World) (t t' : TabId) {f : Tab → Tab}
    (hf : ∀ tab, (f tab).domains = tab.domains) :
    (w.modifyTab t' f).domains? t = w.domains? t := by
  simp only [domains?, tab?, modifyTab, List.getElem?_modify]
  cases w.tabs[t]? with
  | none => rfl
  | some tab =>
      by_cases h : t' = t
      · simp [h, hf]
      · simp [h]

/-- Statements, commands and callbacks leave the callbacks of all tabs alone. -/
theorem steady_domains? (t : TabId) : Steady fun w => w.domains? t where
  note _ _ := rfl
  waiters w t' _ := w.domains?_modifyTab t t' fun _ => rfl
  connection w t' _ := w.domains?_modifyTab t t' fun _ => rfl
  options _ _ := rfl
  referrers _ _ := rfl
  scopes _ _ := rfl
  seen _ _ := rfl

/-- Nothing that is done in a rehearsal registers or removes callbacks, handlers that run
included, unless a script ends. -/
theorem sameDomains_perform (r : Rehearsal) (hstandard : r.catalogue = .standard) (job : Job)
    (hgoing : ∀ run, r.activity = .script run → run.thread.result? = none) (t : TabId) :
    SameDomains t r.world (r.perform job).world :=
  (steady_domains? t).perform r (hstandard ▸ (steady_domains? t).standard) job hgoing

/-! ## Worlds that differ in one tab -/

/-- A world that differs from another in nothing but one tab. -/
structure DiffersIn (t : TabId) (w w' : World) : Prop where
  tabs : ∀ t' ≠ t, w'.tab? t' = w.tab? t'
  rest : { w with tabs := w'.tabs } = w'

theorem DiffersIn.refl (t : TabId) (w : World) : DiffersIn t w w := ⟨fun _ _ => rfl, rfl⟩

theorem DiffersIn.trans {t : TabId} {w₁ w₂ w₃ : World} (h : DiffersIn t w₁ w₂)
    (h' : DiffersIn t w₂ w₃) : DiffersIn t w₁ w₃ where
  tabs t' ht' := (h'.tabs t' ht').trans (h.tabs t' ht')
  rest := by
    rw [← h'.rest, ← h.rest]

theorem differsIn_modifyTab (w : World) (t : TabId) (f : Tab → Tab) :
    DiffersIn t w (w.modifyTab t f) where
  tabs t' ht' := by simp [tab?, modifyTab, Ne.symm ht']
  rest := rfl

/-- A world in which a tab has got callbacks and nothing else is another. -/
structure Gains (tab : TabId) (w w' : World) (added : List (Registration Callback)) : Prop
    extends DiffersIn tab w w' where
  tab : ∀ t, w.tab? tab = some t → ∃ t', w'.tab? tab = some t' ∧ Tab.Gains t t' added

theorem DiffersIn.gains {tab : TabId} {w w' : World} {t t' : Tab}
    {added : List (Registration Callback)} (h : DiffersIn tab w w') (ht : w.tab? tab = some t)
    (ht' : w'.tab? tab = some t') (hgains : Tab.Gains t t' added) : Gains tab w w' added := by
  refine ⟨h, fun t₁ ht₁ => ?_⟩
  rw [ht] at ht₁
  cases ht₁
  exact ⟨t', ht', hgains⟩

theorem tab?_modifyTab_self (w : World) (t : TabId) (f : Tab → Tab) :
    (w.modifyTab t f).tab? t = (w.tab? t).map f := by
  simp [tab?, modifyTab]

end World

/-! ## Registering -/

def Handler.domain? (h : Handler) (read : Path → Option Value) : Option String :=
  (Template.fill read h.pattern).toOption.bind Event.domainOf?

/-- What is registered stands for a handler: in its domain, for the events that its pattern means,
and with its callback. -/
structure Registration.StandsFor (read : Path → Option Value) (callback : Handler → Callback)
    (h : Handler) (x : Registration Callback) : Prop where
  domain : h.domain? read = some x.id.domain
  matcher : ∃ event, Template.fill read h.pattern = .ok event ∧
    Registry.matcherOf event = .ok x.matcher
  callback : x.callback = callback h

namespace World

variable {w w' : World} {tab : TabId} {t : Tab} {s : ScopeId}

/-- One handler is registered. -/
theorem registerHandler_gains (ht : w.tab? tab = some t) (htidy : t.Tidy) {h : Handler}
    (callback : Handler → Callback) {id : HandlerId}
    (hok : w.registerHandler tab s h (callback h) = .ok (w', id)) :
    ∃ t' x, w'.tab? tab = some t' ∧ DiffersIn tab w w' ∧ Tab.Gains t t' [x] ∧ x.id = id ∧
      Registration.StandsFor (w.read s) callback h x := by
  unfold registerHandler at hok
  split at hok
  · cases hok
  · cases hok
  · next event t₀ hevent ht₀ =>
      rw [ht] at ht₀
      cases ht₀
      obtain ⟨⟨t', id'⟩, hon, heq⟩ := exists_of_map_eq_ok hok
      cases heq
      obtain ⟨x, hid, hcallback, hmatcher, hdomain, hgains⟩ :=
        Tab.Gains.on htidy hon
      refine ⟨t', x, ?_, w.differsIn_modifyTab tab _, hgains, hid, ?_, ⟨event, hevent, hmatcher⟩,
        hcallback⟩
      · rw [tab?_modifyTab_self, ht]
        rfl
      · rw [Handler.domain?, hevent]
        exact hdomain

/-- **All handlers are registered**, or one of them cannot be and those before it are taken away
again. -/
theorem registerHandlers_gains (ht : w.tab? tab = some t) (htidy : t.Tidy) (source : String)
    (filename : Option String) (done : List HandlerId) (handlers : List Handler) :
    ∃ w' t' added, w'.tab? tab = some t' ∧ DiffersIn tab w w' ∧ Tab.Gains t t' added ∧
      ((w.registerHandlers tab s source filename done handlers =
          (w', .ok (done ++ added.map Registration.id)) ∧
        List.Forall₂ (Registration.StandsFor (w.read s) (reactionOf · s source filename))
          handlers added) ∨
      ∃ e, w.registerHandlers tab s source filename done handlers =
          (w'.removeHandlers tab (done ++ added.map Registration.id), .error e) ∧
        ∃ h ∈ handlers, w'.registerHandler tab s h (reactionOf h s source filename) =
          .error e) := by
  induction handlers generalizing w t done with
  | nil =>
      refine ⟨w, t, [], ht, .refl tab w, .nothing htidy, .inl ⟨?_, .nil⟩⟩
      rw [registerHandlers, List.map_nil, List.append_nil]
  | cons h rest ih =>
      rw [registerHandlers]
      split
      · next w₁ id hok =>
          obtain ⟨t₁, x, ht₁, hdiffers₁, hgains₁, rfl, hstands⟩ :=
            registerHandler_gains ht htidy (reactionOf · s source filename) hok
          obtain ⟨w', t', added, ht', hdiffers, hgains, hrest⟩ :=
            ih ht₁ hgains₁.tidy (done ++ [x.id])
          have hread : w₁.read s = w.read s := by rw [← hdiffers₁.rest]; rfl
          have hids : done ++ [x.id] ++ added.map Registration.id =
              done ++ (x :: added).map Registration.id := by simp
          rw [hread, hids] at hrest
          refine ⟨w', t', x :: added, ht', hdiffers₁.trans hdiffers, hgains₁.trans hgains, ?_⟩
          rcases hrest with ⟨heq, hall⟩ | ⟨e, heq, h', hmem, hfails⟩
          · exact .inl ⟨heq, .cons hstands hall⟩
          · exact .inr ⟨e, heq, h', List.mem_cons_of_mem _ hmem, hfails⟩
      · next e hfails =>
          -- The first handler that is refused ends it, with those before it in `done`.
          refine ⟨w, t, [], ht, .refl tab w, .nothing htidy, .inr ⟨e, ?_, h, ?_, hfails⟩⟩
          · rw [List.map_nil, List.append_nil]
          · exact List.mem_cons_self

/-! ## Taking away -/

theorem callbacks?_of_some (h : w.tab? tab = some t) (domain : String) :
    w.callbacks? tab domain = t.callbacks? domain := by
  rw [callbacks?, h, Option.bind_some]

/-- What was registered is taken away: the callbacks are again what they were. -/
theorem callbacks?_removeHandlers {t' : Tab} {added : List (Registration Callback)}
    (ht' : w.tab? tab = some t') (htidy : t.Tidy) (hgains : Tab.Gains t t' added)
    (domain : String) :
    (w.removeHandlers tab (added.map Registration.id)).callbacks? tab domain =
      t.callbacks? domain := by
  have hthere : (w.removeHandlers tab (added.map Registration.id)).tab? tab =
      some ((added.map Registration.id).foldl (fun t id => (t.remove id).1) t') := by
    rw [removeHandlers, tab?_modifyTab_self, ht']
    rfl
  rw [callbacks?_of_some hthere, hgains.undone htidy]

theorem exists_tab?_of_defaultTab (h : w.defaultTab = .ok tab) : ∃ t, w.tab? tab = some t := by
  unfold defaultTab at h
  split at h
  · cases h
  · split at h
    · cases h
    · split at h
      · next found =>
          cases h
          have hany := List.find?_some found
          cases ht : w.tab? tab with
          | none =>
              rw [ht] at hany
              cases hany
          | some t => exact ⟨t, rfl⟩
      · cases h

theorem tab?_removeHandlers_nil (w : World) (tab tab' : TabId) :
    (w.removeHandlers tab' []).tab? tab = w.tab? tab := by
  by_cases h : tab = tab'
  · subst h
    rw [removeHandlers, tab?_modifyTab_self]
    exact Option.map_id'
  · exact (w.differsIn_modifyTab tab' _).tabs tab h

end World

/-! ## Scripts -/

namespace Script

variable {script : Script} {home : ScopeId} {o : RunOptions} {w w' : World} {tab : TabId}
variable {t : Tab}

def callbackOf (script : Script) (home : ScopeId) (o : RunOptions) (h : Handler) : Callback :=
  World.reactionOf h home script.source (o.filename.or script.filename)

/-- All handlers of a script are registered. -/
structure Registered (script : Script) (home : ScopeId) (o : RunOptions) (w : World) (tab : TabId)
    (w' : World) (run : ScriptRun) (added : List (Registration Callback)) : Prop where
  gains : World.Gains tab w w' added
  stands : List.Forall₂ (Registration.StandsFor (w.read home) (script.callbackOf home o))
    script.handlers added
  handlers : run.handlers = added.map Registration.id
  tab : run.tab = tab ∨ added = []
  preserve : run.preserve = o.preserve

/-- One of the handlers of a script cannot be registered. -/
structure Refused (script : Script) (home : ScopeId) (o : RunOptions) (w : World) (tab : TabId)
    (w' : World) (e : Error) : Prop where
  fails : ∃ (w₁ : World) (added : List (Registration Callback)) (e₁ : Error),
    World.Gains tab w w₁ added ∧
    (∃ h ∈ script.handlers,
      w₁.registerHandler tab home h (script.callbackOf home o h) = .error e₁) ∧
    e = e₁.withSource script.source (o.filename.or script.filename)
  differs : World.DiffersIn tab w w'
  callbacks : ∀ domain, w'.callbacks? tab domain = w.callbacks? tab domain

theorem beginScript_cases (script : Script) (home : ScopeId) (o : RunOptions)
    (hdefault : w.defaultTab = .ok tab) (ht : w.tab? tab = some t) (htidy : t.Tidy) :
    (∃ w' run added, w.beginScript script home o = (w', .ok run) ∧
      script.Registered home o w tab w' run added) ∨
    ∃ w' e, w.beginScript script home o = (w', .error e) ∧ script.Refused home o w tab w' e := by
  unfold World.beginScript
  dsimp only
  split
  · next hempty =>
      have hnone : script.handlers = [] := List.isEmpty_iff.mp hempty
      have hgains := (World.DiffersIn.refl tab w).gains ht ht (.nothing htidy)
      exact .inl ⟨w, _, [], rfl, hgains, hnone ▸ .nil, rfl, .inr rfl, rfl⟩
  · rw [hdefault]
    dsimp only
    obtain ⟨w', t', added, ht', hdiffers, hgains, hcases⟩ :=
      World.registerHandlers_gains (s := home) ht htidy script.source
        (o.filename.or script.filename) [] script.handlers
    rcases hcases with ⟨heq, hall⟩ | ⟨e, heq, hfails⟩
    · rw [heq]
      exact .inl ⟨w', _, added, rfl, hdiffers.gains ht ht' hgains, hall, rfl, .inl rfl, rfl⟩
    · rw [heq]
      have hfails₁ := hdiffers.gains ht ht' hgains
      refine .inr ⟨_, _, rfl, ⟨w', added, e, hfails₁, hfails, rfl⟩, hdiffers.trans ?_,
        fun domain => ?_⟩
      · exact World.differsIn_modifyTab w' tab _
      · rw [World.callbacks?_of_some ht]
        exact World.callbacks?_removeHandlers ht' htidy hgains domain

/-- A script is carried out in the scope `home` of the world `w`, with the catalogue `c`, while
others change the world in their ways: either it is refused and no thread begins, or its thread
comes to an end and then the run does. -/
inductive Executes (c : Catalogue) (others : World → World → Prop) (script : Script)
    (home : ScopeId) (o : RunOptions) (w : World) :
    Option Thread → World → Except Error Unit → Prop
  | refused {w' : World} {e : Error} (refusal : w.beginScript script home o = (w', .error e)) :
      Executes c others script home o w none w' (.error e)
  | ended {w₁ w₂ w' : World} {run : ScriptRun} {t : Thread} {outcome : Except Fault Unit}
      {result : Except Error Unit} (begun : w.beginScript script home o = (w₁, .ok run))
      (course : Thread.Reaches c others (fun _ => True) w₁ run.thread w₂ t)
      (outcome_eq : t.result? = some outcome)
      (done : w₂.endScript run outcome = (w', result)) :
      Executes c others script home o w (some t) w' result

/-- The callbacks when a run ends. -/
theorem Registered.callbacks?_endScript {w₁ w₂ : World} {run : ScriptRun}
    {added : List (Registration Callback)}
    (h : script.Registered home o w tab w₁ run added) (ht : w.tab? tab = some t)
    (htidy : t.Tidy) (hsame : World.SameDomains tab w₁ w₂) (outcome : Except Fault Unit)
    (domain : String) :
    (w₂.endScript run outcome).1.callbacks? tab domain =
      if o.preserve then (w.callbacks? tab domain).map fun before =>
        before ++ added.filter fun x => x.id.domain = domain
      else w.callbacks? tab domain := by
  obtain ⟨t₁, ht₁, hgains₁⟩ := h.gains.tab t ht
  -- The tab is there at the end, with the same domains.
  obtain ⟨t₂, ht₂, hdomains⟩ : ∃ t₂, w₂.tab? tab = some t₂ ∧ t₂.domains = t₁.domains := by
    rw [World.SameDomains, World.domains?, World.domains?, ht₁] at hsame
    exact Option.map_eq_some_iff.mp hsame
  have hgains := hgains₁.of_domains hdomains
  rw [World.callbacks?_of_some ht]
  simp only [World.endScript, h.preserve]
  cases o.preserve with
  | true =>
      rw [if_pos rfl, if_pos rfl, World.callbacks?_of_some ht₂]
      exact hgains.callbacks domain
  | false =>
      rw [if_neg Bool.false_ne_true, if_neg Bool.false_ne_true, h.handlers]
      rcases h.tab with htab | hnone
      · rw [htab]
        exact World.callbacks?_removeHandlers ht₂ htidy hgains domain
      · subst hnone
        have hthere : (w₂.removeHandlers run.tab []).tab? tab = some t₂ :=
          (w₂.tab?_removeHandlers_nil tab run.tab).trans ht₂
        rw [List.map_nil, World.callbacks?_of_some hthere, hgains.callbacks]
        simp

/-- **Handlers are registered for the run.** When a script has been carried out, with a default
tab and nobody else registering or removing callbacks meanwhile, the callbacks for every domain of
the tab are what they were, unless they are to stay. They also are if a handler could not be
registered; then the script was not begun, and nothing of the world but the tab is another. If
they are to stay and all were registered, there is one for each handler of the domain behind those
that were there, in the order of the script. -/
theorem callbacks_afterwards {c : Catalogue} {others : World → World → Prop} {ran : Option Thread}
    {result : Except Error Unit} (h : Executes c others script home o w ran w' result)
    (hdefault : w.defaultTab = .ok tab) (hattached : ∀ t, w.tab? tab = some t → t.Attached)
    (hcommands : c.Keeps fun w => w.domains? tab)
    (hothers : ∀ w w', others w w' → World.SameDomains tab w w') :
    (o.preserve = false → ∀ domain, w'.callbacks? tab domain = w.callbacks? tab domain) ∧
    (ran = none → ∃ e, result = .error e ∧ script.Refused home o w tab w' e) ∧
    (o.preserve = true → ran ≠ none → ∀ domain, ∃ added,
      w'.callbacks? tab domain =
          (w.callbacks? tab domain).map (fun before => before ++ added) ∧
        List.Forall₂ (Registration.StandsFor (w.read home) (script.callbackOf home o))
          (script.handlers.filter fun h => h.domain? (w.read home) = some domain) added) := by
  obtain ⟨t, ht⟩ := World.exists_tab?_of_defaultTab hdefault
  have htidy := (hattached t ht).tidy
  have hcases := beginScript_cases script home o hdefault ht htidy
  cases h with
  | refused refusal =>
      rcases hcases with ⟨w₁, run, added, begun, -⟩ | ⟨w₁, e, refusal', hrefused⟩
      · rw [refusal] at begun
        cases begun
      · rw [refusal] at refusal'
        cases refusal'
        exact ⟨fun _ => hrefused.callbacks, fun _ => ⟨_, rfl, hrefused⟩,
          fun _ hran => absurd rfl hran⟩
  | @ended w₁ w₂ w' run t₂ outcome result begun course outcome_eq done =>
      rcases hcases with ⟨w₁', run', added, begun', hregistered⟩ | ⟨w₁', e, refusal, -⟩
      · rw [begun] at begun'
        cases begun'
        -- Nothing that happens in between touches the callbacks of the tab.
        have hsame : World.SameDomains tab w₁ w₂ :=
          course.keeps (I := fun w _ => World.SameDomains tab w₁ w) rfl
            (fun w t _ ih => ((World.steady_domains? tab).step hcommands w t).trans ih)
            (fun w w' _ change ih => (hothers w w' change).trans ih)
        have hend := hregistered.callbacks?_endScript ht htidy hsame outcome
        rw [done] at hend
        refine ⟨fun hpreserve domain => ?_, fun hran => ?_, fun hpreserve _ domain => ?_⟩
        · rw [hend, hpreserve, if_neg Bool.false_ne_true]
        · cases hran
        · refine ⟨added.filter fun x => x.id.domain = domain, ?_, ?_⟩
          · rw [hend, hpreserve, if_pos rfl]
          · refine List.rel_filter (fun h x hstands => ?_) hregistered.stands
            simp [hstands.domain]
      · rw [begun] at refusal
        cases refusal

/-- A world with one scope and one tab; two domains of the tab emit events. -/
def oneTabWorld : World :=
  { World.empty with
    store := ⟨#[⟨Record.empty, []⟩]⟩
    tabs := [⟨"T", "about:blank", .start 0, [⟨"Browser", none⟩,
      ⟨"Network", some (.empty "Network")⟩, ⟨"Page", some (.empty "Page")⟩], .start 0⟩]
    browser := some ⟨[0], some "T"⟩ }

theorem attached_oneTabWorld : ∀ t, oneTabWorld.tab? 0 = some t → t.Attached := by
  intro t ht
  cases ht
  refine .fresh fun d hd r hr => ?_
  rcases List.mem_cons.mp hd with rfl | hd
  · cases hr
  · rcases List.mem_cons.mp hd with rfl | hd
    · cases hr
      rfl
    · rw [List.mem_singleton.mp hd] at hr ⊢
      cases hr
      rfl

/-- A script of handlers for some events that have nothing to do. -/
def watcher (events : List String) : Script :=
  ⟨[], events.map fun event => ⟨event, false, [], ⟨1, 1⟩⟩, "", none⟩

/-- Two handlers can be registered, and the run ends at once. -/
theorem executes_watcher (preserve : Bool) :
    ∃ t w', Executes .standard (World.SameDomains 0) (watcher ["Page.loaded", "Network.sent"]) 0
      ⟨preserve, none⟩ oneTabWorld (some t) w' (.ok ()) := by
  cases preserve with
  | true => exact ⟨_, _, .ended rfl (.step .here trivial) rfl rfl⟩
  | false => exact ⟨_, _, .ended rfl (.step .here trivial) rfl rfl⟩

/-- Two handlers that are to stay, two that are not, and two of which the second is for a domain
that does not emit events. -/
theorem callbacks_afterwards_watcher :
    (∃ t w', Executes .standard (World.SameDomains 0) (watcher ["Page.loaded", "Network.sent"]) 0
        ⟨true, none⟩ oneTabWorld (some t) w' (.ok ()) ∧
      ∃ x, w'.callbacks? 0 "Page" = some [x] ∧ x.id.domain = "Page") ∧
    (∃ t w', Executes .standard (World.SameDomains 0) (watcher ["Page.loaded", "Network.sent"]) 0
        ⟨false, none⟩ oneTabWorld (some t) w' (.ok ()) ∧
      w'.callbacks? 0 "Page" = some []) ∧
    ∃ w' e, Executes .standard (World.SameDomains 0) (watcher ["Page.loaded", "Browser.moved"]) 0
        ⟨true, none⟩ oneTabWorld none w' (.error e) ∧
      w'.callbacks? 0 "Page" = some [] := by
  have hcommands := (World.steady_domains? 0).standard
  refine ⟨?_, ?_, ?_⟩
  · obtain ⟨t, w', hrun⟩ := executes_watcher true
    obtain ⟨-, -, hstay⟩ :=
      callbacks_afterwards hrun rfl attached_oneTabWorld hcommands fun _ _ h => h
    obtain ⟨added, hcallbacks, hstands⟩ := hstay rfl (Option.some_ne_none t) "Page"
    have hpages : (watcher ["Page.loaded", "Network.sent"]).handlers.filter
        (fun h => h.domain? (oneTabWorld.read 0) = some "Page") =
          [⟨"Page.loaded", false, [], ⟨1, 1⟩⟩] := rfl
    rw [hpages] at hstands
    cases hstands with
    | cons hx hnone =>
        cases hnone
        exact ⟨t, w', hrun, _, hcallbacks, (Option.some.inj hx.domain).symm⟩
  · obtain ⟨t, w', hrun⟩ := executes_watcher false
    have hsame := (callbacks_afterwards hrun rfl attached_oneTabWorld hcommands fun _ _ h => h).1
    exact ⟨t, w', hrun, hsame rfl "Page"⟩
  · have hrun : ∃ w' e, Executes .standard (World.SameDomains 0)
        (watcher ["Page.loaded", "Browser.moved"]) 0 ⟨true, none⟩ oneTabWorld none w'
          (.error e) :=
      ⟨_, _, .refused rfl⟩
    obtain ⟨w', e, hrun⟩ := hrun
    obtain ⟨-, hrefused, -⟩ :=
      callbacks_afterwards hrun rfl attached_oneTabWorld hcommands fun _ _ h => h
    obtain ⟨_, -, hrefused⟩ := hrefused rfl
    exact ⟨w', e, hrun, hrefused.callbacks "Page"⟩

end Script

end TabPilot
