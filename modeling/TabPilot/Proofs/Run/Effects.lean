import TabPilot.Proofs.Run.Steady

set_option autoImplicit false

/-! # What a step does to the scopes

A step of a thread writes from one scope, `Thread.scope?`. So it adds names to no scope with a
lower number than that one, unless it calls a command that asks for another scope
(`Thread.step_changesFrom`); and no step whatever takes a scope away or moves it
(`Thread.step_extends`). Neither does anything else that is done in a rehearsal
(`Rehearsal.perform_extends`).
-/

namespace TabPilot

/-- Whether a statement is a block: an `if` with its branches, or a loop. -/
def Statement.IsBlock : Statement → Prop
  | .choice .. | .loop .. => True
  | _ => False

/-- The scope that the next step of a thread reads and writes from. -/
def Thread.scope? (t : Thread) : Option ScopeId :=
  match t.focus, t.frames with
  | .run _ s, _ | .test _ s, _ | .call _ s, _ => some s
  | .await a _, _ => some a.scope
  | .loop l, _ | .flow _, .body l :: _ | .truth _, .loopTest l :: _ => some l.scope
  | _, _ => none

namespace World

variable {n : Nat} {s : ScopeId} {l : LoopRun} (w : World)

/-! ## Loops -/

theorem enterBody_changesFrom (h : n ≤ l.scope) : w.store.ChangesFrom n (w.enterBody l).1.store :=
  Store.setIndex_changesFrom h _

theorem enterTest_changesFrom (h : n ≤ l.scope) (test : Condition) :
    w.store.ChangesFrom n (w.enterTest l test).1.store :=
  Store.setIndex_changesFrom h _

theorem iterate_changesFrom (h : n ≤ l.scope) : w.store.ChangesFrom n (w.iterate l).1.store := by
  unfold iterate
  split
  · exact w.enterBody_changesFrom h
  · exact .refl n w.store
  · exact w.enterBody_changesFrom h
  · exact .refl n w.store
  · next targets item rest _ =>
      have hbind : w.store.ChangesFrom n
          (w.changeStore fun st => st.bindItem l.scope targets item).1.store :=
        Store.bindItem_changesFrom h targets item
      split
      · next heq => rwa [heq] at hbind
      · next heq =>
          rw [heq] at hbind
          exact hbind.trans (enterBody_changesFrom _ h)
  · exact w.enterTest_changesFrom h _
  · exact w.enterTest_changesFrom h _

theorem runClause_changesFrom (h : n ≤ l.scope) (clause : Clause) :
    w.store.ChangesFrom n (w.runClause l clause).1.store := by
  cases clause with
  | command c p => exact .refl n w.store
  | assignment a =>
      have hassign : w.store.ChangesFrom n (w.assign .owner l.scope a).1.store :=
        Store.assign_changesFrom .owner h a
      simp only [runClause]
      split
      · next heq => rwa [heq] at hassign
      · next heq => rwa [heq] at hassign

theorem afterBody_changesFrom (h : n ≤ l.scope) :
    w.store.ChangesFrom n (w.afterBody l).1.store := by
  have hnext : n ≤ ({ l with index := l.index + 1 } : LoopRun).scope := h
  unfold afterBody
  dsimp only
  split
  · exact w.runClause_changesFrom hnext _
  · exact .refl n w.store

@[simp] theorem overItems_store (targets : List Target) (body : List Statement) (s : ScopeId)
    (v : Value) : (w.overItems targets body s v).1.store = w.store := by
  unfold overItems
  split <;> rfl

theorem beginLoop_changesFrom (h : n ≤ s) (mode : LoopMode) (body : List Statement) :
    w.store.ChangesFrom n (w.beginLoop s mode body).1.store := by
  cases mode with
  | infinite | whilst test => exact .refl n w.store
  | count times =>
      simp only [beginLoop]
      split <;> exact .refl n w.store
  | bounded init test next => exact w.runClause_changesFrom h init
  | items targets source =>
      cases source with
      | command c => exact .refl n w.store
      | «variable» v =>
          simp only [beginLoop]
          split
          · rw [overItems_store]
            exact .refl n w.store
          · exact .refl n w.store

/-! ## Statements and conditions -/

theorem child_changesFrom (s : ScopeId) : w.store.ChangesFrom n (w.child s).1.store :=
  Store.add_changesFrom _ _

theorem choose_changesFrom (branches : List Branch) (otherwise : Option (List Statement))
    (s : ScopeId) : w.store.ChangesFrom n (w.choose branches otherwise s).1.store := by
  unfold choose
  split
  · exact w.child_changesFrom s
  · exact w.child_changesFrom s
  · exact .refl n w.store

@[simp] theorem ended_store (r : World × Option RunFailure) : (ended r).1.store = r.1.store := by
  obtain ⟨w, failure⟩ := r
  cases failure <;> rfl

/-- A block makes its changes from a scope of its own. -/
theorem begin_changesFrom {st : Statement} (hsize : n ≤ w.store.scopes.size)
    (h : n ≤ s ∨ st.IsBlock) : w.store.ChangesFrom n (w.begin s st).1.store := by
  cases st with
  | assign a =>
      simp only [begin, ended_store]
      exact Store.assign_changesFrom .owner (h.resolve_right id) a
  | unset vs p =>
      simp only [begin, ended_store]
      exact Store.unsetAll_changesFrom (h.resolve_right id) vs
  | expression e p =>
      simp only [begin]
      split <;> exact .refl n w.store
  | choice first others otherwise p => exact w.choose_changesFrom _ _ s
  | loop mode body p =>
      exact (w.child_changesFrom s).trans (beginLoop_changesFrom _ hsize mode body)
  | commands cs p => cases cs <;> exact .refl n w.store
  | jump kind levels p => exact .refl n w.store

theorem test_changesFrom (h : n ≤ s) (test : Condition) :
    w.store.ChangesFrom n (w.test s test).1.store := by
  cases test with
  | assigning negated p a rest =>
      have hassign : w.store.ChangesFrom n (w.assign .itself s a).1.store :=
        Store.assign_changesFrom .itself h a
      simp only [World.test]
      split
      · next heq => rwa [heq] at hassign
      · next heq => rwa [heq] at hassign
  | commanding negated p c rest => exact .refl n w.store
  | command negated p c => exact .refl n w.store
  | comparison negated p lhs comparison =>
      simp only [World.test]
      split <;> exact .refl n w.store

/-! ## What comes after -/

theorem afterFlow_changesFrom {frame : Frame} (h : ∀ l, frame = .body l → n ≤ l.scope) (f : Flow) :
    w.store.ChangesFrom n (w.afterFlow f frame).1.store := by
  cases frame with
  | statements p rest s => cases f <;> exact .refl n w.store
  | body l =>
      have hscope : n ≤ l.scope := h l rfl
      cases f with
      | normal => exact w.afterBody_changesFrom hscope
      | jump kind levels p =>
          simp only [afterFlow]
          split
          · exact .refl n w.store
          · cases kind with
            | «break» => exact .refl n w.store
            | «continue» => exact w.afterBody_changesFrom hscope
  | _ => exact .refl n w.store

theorem afterTruth_changesFrom {frame : Frame} (h : ∀ l, frame = .loopTest l → n ≤ l.scope)
    (b : Bool) : w.store.ChangesFrom n (w.afterTruth b frame).1.store := by
  cases frame with
  | branch body inner others otherwise outer =>
      cases b with
      | true => exact .refl n w.store
      | false => exact w.choose_changesFrom _ _ outer
  | loopTest l =>
      cases b with
      | true => exact w.enterBody_changesFrom (h l rfl)
      | false => exact .refl n w.store
  | _ => exact .refl n w.store

@[simp] theorem afterValue_store (v : Value) (frame : Frame) :
    (w.afterValue v frame).1.store = w.store := by
  cases frame with
  | commands rest s => cases rest <;> rfl
  | source targets body s => exact w.overItems_store targets body s v
  | _ => rfl

end World

/-! ## Steps -/

/-- **One step.** A step makes its changes from the scope that it writes from or from a new one,
unless a command that it calls asks for another scope. -/
theorem Thread.step_changesFrom {n : Nat} {w : World} {t : Thread}
    (hsize : n ≤ w.store.scopes.size) (hscope : ∀ s, t.scope? = some s → n ≤ s)
    (hlocal : ∀ cmd s, t.focus = .call cmd s → n = 0 ∨ cmd.Local) :
    w.store.ChangesFrom n (t.step .standard w).1.store := by
  obtain ⟨focus, frames⟩ := t
  -- The scope is that of the focus, or of the innermost frame when the focus returns to it.
  cases focus with
  | run body s =>
      cases body with
      | nil => exact .refl n w.store
      | cons st rest => exact w.begin_changesFrom hsize (.inl (hscope s rfl))
  | test test s => exact w.test_changesFrom (hscope s rfl) test
  | loop l => exact w.iterate_changesFrom (hscope l.scope rfl)
  | call cmd s => exact w.callCommand_changesFrom (hscope s rfl) (hlocal cmd s rfl)
  | await a op =>
      simp only [Thread.step]
      split
      · next w' progress hresume =>
          rw [← Operation.resume?_store hresume]
          exact World.proceed_changesFrom (hscope a.scope rfl) w' progress
      · exact .refl n w.store
  | pause stop v => exact .refl n w.store
  | flow f =>
      cases frames with
      | nil => cases f <;> exact .refl n w.store
      | cons frame frames =>
          refine w.afterFlow_changesFrom (fun l hl => ?_) f
          subst hl
          exact hscope l.scope rfl
  | truth b =>
      cases frames with
      | nil => exact .refl n w.store
      | cons frame frames =>
          refine w.afterTruth_changesFrom (fun l hl => ?_) b
          subst hl
          exact hscope l.scope rfl
  | value v =>
      cases frames with
      | nil => exact .refl n w.store
      | cons frame frames =>
          have hstore : (Thread.step .standard w ⟨.value v, frame :: frames⟩).1.store = w.store :=
            w.afterValue_store v frame
          rw [hstore]
          exact .refl n w.store
  | failed e => cases frames <;> exact .refl n w.store

/-- No step of a thread takes a scope away. -/
theorem Thread.step_extends (w : World) (t : Thread) :
    w.store.Extends (t.step .standard w).1.store :=
  (Thread.step_changesFrom (n := 0) (Nat.zero_le _) (fun _ _ => Nat.zero_le _)
    (fun _ _ _ => .inl rfl)).extends

/-! ## Rehearsals -/

namespace World

/-- The body of a handler runs in a scope that is new. -/
theorem react_spares {n : Nat} (w : World) (h : n ≤ w.store.scopes.size) (r : Reaction)
    (e : Event) : w.store.Spares n (w.react r e).1.store := by
  simp only [react, changeStore_store]
  split <;> exact Store.add_spares h _ _

theorem endScript_store (w : World) (r : ScriptRun) (outcome : Except Fault Unit) :
    (w.endScript r outcome).1.store = w.store := by
  simp only [endScript]
  split <;> rfl

end World

theorem Activity.step_extends (w : World) (a : Activity) :
    w.store.Extends (a.step .standard w).1.store := by
  cases a with
  | script r =>
      simp only [Activity.step]
      split
      · rw [World.endScript_store]
        exact .refl w.store
      · exact r.thread.step_extends w
  | operations ps =>
      simp only [Activity.step]
      split
      · exact .refl w.store
      · rw [World.untouched_store.resumeFirst]
        exact .refl w.store
  | stopping tabs phase =>
      cases tabs with
      | nil => exact .refl w.store
      | cons t rest =>
          rw [Activity.step, World.untouched_store.stopStep]
          exact .refl w.store
  | finished o => exact .refl w.store

namespace Rehearsal

/-- Every callback keeps the scopes; a handler begins in a new one. -/
theorem runCallback_extends (e : Event) (f : Callback) (s : World × List HandlerRun) :
    s.1.store.Extends (runCallback e f s).1.1.store := by
  obtain ⟨w, handlers⟩ := s
  cases f with
  | consoleLogger =>
      simp only [runCallback, World.untouched_store.noteAll]
      exact .refl w.store
  | reaction r => exact (w.react_spares (Nat.zero_le _) r e).toExtends
  | probe tag stops => exact .refl w.store

theorem runCallbacks_extends (e : Event) (callbacks : List Callback)
    (s : World × List HandlerRun) :
    s.1.store.Extends (runCallbacks (runCallback e) callbacks s).1.store := by
  induction callbacks generalizing s with
  | nil => exact .refl s.1.store
  | cons f rest ih =>
      have hfirst := runCallback_extends e f s
      simp only [runCallbacks]
      split
      · next heq =>
          rw [heq] at hfirst
          exact hfirst.trans (ih _)
      · next heq => rwa [heq] at hfirst

theorem dispatchEvent_extends (r : Rehearsal) (t : TabId) (e : Event) :
    r.world.store.Extends (r.dispatchEvent t e).world.store := by
  unfold dispatchEvent
  exact runCallbacks_extends e _ (r.world, r.handlers)

theorem dispatch_extends (r : Rehearsal) (t : TabId) :
    r.world.store.Extends (r.dispatch t).world.store := by
  unfold dispatch
  split
  · next c e _ =>
      exact dispatchEvent_extends { r with world := r.world.modifyConnection t fun _ => c } t e
  · exact .refl _

theorem handle_extends (r : Rehearsal) (hstandard : r.catalogue = .standard) (index : Nat) :
    r.world.store.Extends (r.handle index).world.store := by
  unfold handle
  split
  · exact .refl _
  · next h _ =>
      split
      · exact .refl _
      · exact .refl _
      · rw [hstandard]
        exact h.thread.step_extends r.world

/-- **Everything that is done in a rehearsal.** Whoever has his turn, no scope is taken away. -/
theorem perform_extends (r : Rehearsal) (hstandard : r.catalogue = .standard) (job : Job) :
    r.world.store.Extends (r.perform job).world.store := by
  cases job with
  | receive t => exact (World.untouched_store.receive r.others t).symm ▸ .refl _
  | dispatch t => exact dispatch_extends r.others t
  | settle t => exact .refl _
  | handle index => exact handle_extends r.others hstandard index
  | listen t => exact (World.untouched_store.listen r.others t).symm ▸ .refl _
  | send => exact (World.untouched_store.sendNext r.others).symm ▸ .refl _
  | act =>
      obtain ⟨catalogue, world, debuggers, agenda, handlers, activity, acting, requests⟩ := r
      cases hstandard
      exact activity.step_extends world

end Rehearsal

end TabPilot
