import TabPilot.Proofs.Command.Scopes
import TabPilot.Rehearsal.Basic

set_option autoImplicit false

/-! # What a run leaves alone

A part of the world that stays, besides, when the scopes change and when probes note what they
have seen is `World.Steady`. If the commands of a catalogue do not change it, no step of a thread
does. Neither does anything else that is done in a rehearsal but the end of a script.
-/

namespace TabPilot

/-- A part of the world that is the same when anything has changed that statements, commands and
callbacks change. -/
structure World.Steady {α : Type} (part : World → α) : Prop extends Untouched part where
  scopes : ∀ w store, part { w with store := store } = part w
  seen : ∀ w seen, part { w with seen := seen } = part w

/-- A catalogue none of whose commands changes a part of the world. -/
def Catalogue.Keeps {α : Type} (part : World → α) (c : Catalogue) : Prop :=
  ∀ set ∈ c.sets, ∀ e ∈ set.entries, e.body.Keeps part

namespace World.Steady

variable {α : Type} {part : World → α} (h : Steady part)
include h

theorem of_scopes {β : Type} {w w' : World} {f : Store → Store × β} {r : β}
    (heq : w.changeStore f = (w', r)) : part w' = part w := by
  have hpart : part (w.changeStore f).1 = part w := h.scopes w _
  rwa [heq] at hpart

/-! ## Commands on variables -/

theorem set : CommandBody.Keeps part Variables.set := by
  intro w i
  simp only [Variables.set]
  split
  · rfl
  · exact h.scopes w _

theorem clear : CommandBody.Keeps part Variables.clear := by
  intro w i
  simp only [Variables.clear]
  split
  · rfl
  · split
    · exact h.scopes w _
    · rfl

theorem push : CommandBody.Keeps part Variables.push := by
  intro w i
  simp only [Variables.push]
  split
  · rfl
  · exact h.scopes w _

theorem pop : CommandBody.Keeps part Variables.pop := by
  intro w i
  simp only [Variables.pop]
  split
  · rfl
  · split
    · exact h.scopes w _
    · rfl

/-- The built-in commands change no steady part. -/
theorem standard : Catalogue.standard.Keeps part := by
  intro set hset e he
  simp only [Catalogue.standard, List.mem_cons, List.not_mem_nil, or_false] at hset
  rcases hset with rfl | rfl | rfl | rfl
  · exact h.core e he
  · exact h.events e he
  · exact CommandBody.formatting_keeps e he
  · have hreads {f : World → Invocation → Progress} :
        CommandBody.Keeps part fun w i => (w, f w i) := fun _ _ => rfl
    revert e
    simp only [Variables.commands, CommandSet.closed, List.forall_mem_cons]
    exact ⟨hreads, hreads, h.set, h.clear, h.push, h.pop, hreads, hreads, List.forall_mem_nil _⟩

/-! ## Calls -/

theorem conclude (w : World) (a : ActiveCommand) (r : Except Error Value) :
    part (w.conclude a r).1 = part w := by
  cases r with
  | error e => exact h.note w _
  | ok v =>
      have hstored : part (w.storeResult a v.normalize).1 = part w := by
        unfold storeResult
        split
        · rfl
        · exact h.scopes w _
      simp only [World.conclude]
      split
      · next heq => rwa [heq] at hstored
      · next heq => rwa [heq] at hstored

theorem proceed (w : World) (a : ActiveCommand) (progress : Progress) :
    part (w.proceed a progress).1 = part w := by
  cases progress with
  | waiting op => rfl
  | finished r =>
      have hconcluded := h.conclude w a r
      simp only [World.proceed, settle]
      split
      · next heq => rwa [heq] at hconcluded
      · next heq =>
          rw [heq] at hconcluded
          split
          · exact hconcluded
          · exact hconcluded

theorem callCommand {c : Catalogue} (hc : c.Keeps part) (w : World) (s : ScopeId)
    (cmd : Command) : part (w.callCommand c s cmd).1 = part w := by
  unfold World.callCommand
  split
  · rfl
  · next p hp =>
      obtain ⟨⟨set, hset, e, he, hbody⟩, -⟩ := Catalogue.prepare_cases hp
      have hcall : part (p.body w p.invocation).1 = part w := by
        rw [hbody]
        exact hc set hset e he w p.invocation
      exact (h.proceed _ _ _).trans hcall

/-! ## Loops -/

theorem enterBody (w : World) (l : LoopRun) : part (w.enterBody l).1 = part w :=
  h.scopes w _

theorem enterTest (w : World) (l : LoopRun) (test : Condition) :
    part (w.enterTest l test).1 = part w :=
  h.scopes w _

theorem iterate (w : World) (l : LoopRun) : part (w.iterate l).1 = part w := by
  unfold World.iterate
  split
  · exact h.enterBody w _
  · rfl
  · exact h.enterBody w _
  · rfl
  · split
    · next heq => exact h.of_scopes heq
    · next heq => exact (h.enterBody _ _).trans (h.of_scopes heq)
  · exact h.enterTest w _ _
  · exact h.enterTest w _ _

theorem runClause (w : World) (l : LoopRun) (clause : Clause) :
    part (w.runClause l clause).1 = part w := by
  cases clause with
  | command c p => rfl
  | assignment a =>
      simp only [World.runClause]
      split
      · next heq => exact h.of_scopes heq
      · next heq => exact h.of_scopes heq

theorem afterBody (w : World) (l : LoopRun) : part (w.afterBody l).1 = part w := by
  unfold World.afterBody
  dsimp only
  split
  · exact h.runClause w _ _
  · rfl

omit h in
theorem overItems (w : World) (targets : List Target) (body : List Statement) (s : ScopeId)
    (v : Value) : part (w.overItems targets body s v).1 = part w := by
  unfold World.overItems
  split <;> rfl

theorem beginLoop (w : World) (s : ScopeId) (mode : LoopMode) (body : List Statement) :
    part (w.beginLoop s mode body).1 = part w := by
  cases mode with
  | infinite | whilst test => rfl
  | count times =>
      simp only [World.beginLoop]
      split <;> rfl
  | bounded init test next => exact h.runClause w _ init
  | items targets source =>
      cases source with
      | command c => rfl
      | «variable» v =>
          simp only [World.beginLoop]
          split
          · exact overItems w targets body s _
          · rfl

/-! ## Statements and conditions -/

theorem choose (w : World) (branches : List Branch) (otherwise : Option (List Statement))
    (s : ScopeId) : part (w.choose branches otherwise s).1 = part w := by
  unfold World.choose
  split
  · exact h.scopes w _
  · exact h.scopes w _
  · rfl

omit h in
theorem ended (r : World × Option RunFailure) : part (World.ended r).1 = part r.1 := by
  obtain ⟨w, failure⟩ := r
  cases failure <;> rfl

theorem begin (w : World) (s : ScopeId) (st : Statement) : part (w.begin s st).1 = part w := by
  cases st with
  | assign a => exact (ended _).trans (h.scopes w _)
  | unset vs p => exact (ended _).trans (h.scopes w _)
  | expression e p =>
      simp only [World.begin]
      split <;> rfl
  | choice first others otherwise p => exact h.choose w _ _ s
  | loop mode body p => exact (h.beginLoop _ _ mode body).trans (h.scopes w _)
  | commands cs p => cases cs <;> rfl
  | jump kind levels p => rfl

theorem test (w : World) (s : ScopeId) (test : Condition) : part (w.test s test).1 = part w := by
  cases test with
  | assigning negated p a rest =>
      simp only [World.test]
      split
      · next heq => exact h.of_scopes heq
      · next heq => exact h.of_scopes heq
  | commanding negated p c rest => rfl
  | command negated p c => rfl
  | comparison negated p lhs comparison =>
      simp only [World.test]
      split <;> rfl

/-! ## What comes after -/

theorem afterFlow (w : World) (f : Flow) (frame : Frame) :
    part (w.afterFlow f frame).1 = part w := by
  cases frame with
  | statements p rest s => cases f <;> rfl
  | body l =>
      cases f with
      | normal => exact h.afterBody w l
      | jump kind levels p =>
          simp only [World.afterFlow]
          split
          · rfl
          · cases kind with
            | «break» => rfl
            | «continue» => exact h.afterBody w l
  | _ => rfl

theorem afterTruth (w : World) (b : Bool) (frame : Frame) :
    part (w.afterTruth b frame).1 = part w := by
  cases frame with
  | branch body inner others otherwise outer =>
      cases b with
      | true => rfl
      | false => exact h.choose w _ _ outer
  | loopTest l =>
      cases b with
      | true => exact h.enterBody w l
      | false => rfl
  | _ => rfl

omit h in
theorem afterValue (w : World) (v : Value) (frame : Frame) :
    part (w.afterValue v frame).1 = part w := by
  cases frame with
  | commands rest s => cases rest <;> rfl
  | source targets body s => exact overItems w targets body s v
  | _ => rfl

/-! ## Steps -/

/-- **One step** of a thread changes no steady part. -/
theorem step {c : Catalogue} (hc : c.Keeps part) (w : World) (t : Thread) :
    part (t.step c w).1 = part w := by
  obtain ⟨focus, frames⟩ := t
  cases focus with
  | run body s =>
      cases body with
      | nil => rfl
      | cons st rest => exact h.begin w s st
  | test test s => exact h.test w s test
  | loop l => exact h.iterate w l
  | call cmd s => exact h.callCommand hc w s cmd
  | await a op =>
      simp only [Thread.step]
      split
      · next w' progress hresume => exact (h.proceed w' a progress).trans (h.resume? hresume)
      · rfl
  | pause stop v => rfl
  | flow f =>
      cases frames with
      | nil => cases f <;> rfl
      | cons frame frames => exact h.afterFlow w f frame
  | truth b =>
      cases frames with
      | nil => rfl
      | cons frame frames => exact h.afterTruth w b frame
  | value v =>
      cases frames with
      | nil => rfl
      | cons frame frames => exact afterValue w v frame
  | failed e => cases frames <;> rfl

/-- The body of a handler is begun. -/
theorem react (w : World) (r : Reaction) (e : Event) : part (w.react r e).1 = part w :=
  h.scopes w _

end World.Steady

/-! ## Rehearsals -/

namespace World.Untouched

variable {α : Type} {part : World → α} (h : Untouched part)
include h

theorem noteAll (w : World) (entry : Option LogEntry) : part (w.noteAll entry) = part w := by
  cases entry with
  | none => rfl
  | some entry => exact h.note w entry

theorem resumeFirst (w : World) (ps : List Progress) :
    part (Progress.resumeFirst w ps).1 = part w := by
  induction ps generalizing w with
  | nil => rfl
  | cons p rest ih =>
      cases p with
      | finished r => exact ih w
      | waiting op =>
          simp only [Progress.resumeFirst]
          split
          · next hresume => exact h.resume? hresume
          · exact ih w

theorem stopStep (w : World) (t : TabId) (rest : List TabId) (phase : StopPhase) :
    part (Activity.stopStep w t rest phase).1 = part w := by
  simp only [Activity.stopStep]
  split
  · rfl
  · split
    · next c _ => exact h.connection w t fun _ => c
    · rfl
  · split
    · rfl
    · exact h.connection w t _
  · rfl

theorem arrive (r : Rehearsal) (t : TabId) (u : Utterance) :
    part (r.arrive t u).world = part r.world := by
  unfold Rehearsal.arrive
  split
  · split
    · rfl
    · exact (h.noteAll _ _).trans (h.connection r.world t _)
  · rfl

omit h in
@[simp] theorem hear_world (r : Rehearsal) (t : TabId) (request : Value) :
    (r.hear t request).world = r.world := by
  unfold Rehearsal.hear
  split <;> rfl

omit h in
theorem foldl_hear_world (r : Rehearsal) (t : TabId) (requests : List Value) :
    (requests.foldl (fun r request => r.hear t request) r).world = r.world := by
  induction requests generalizing r with
  | nil => rfl
  | cons request rest ih => rw [List.foldl_cons, ih, hear_world]

theorem listen (r : Rehearsal) (t : TabId) : part (r.listen t).world = part r.world := by
  unfold Rehearsal.listen
  split
  · rfl
  · rw [foldl_hear_world]
    exact h.connection r.world t fun c => { c with outbox := [] }

theorem sendNext (r : Rehearsal) : part r.sendNext.world = part r.world := by
  unfold Rehearsal.sendNext
  split
  · exact h.arrive _ _ _
  · rfl

theorem receive (r : Rehearsal) (t : TabId) : part (r.receive t).world = part r.world := by
  unfold Rehearsal.receive
  split
  · exact (h.noteAll _ _).trans (h.connection r.world t _)
  · rfl

end World.Untouched

namespace World.Steady

variable {α : Type} {part : World → α} (h : Steady part)
include h

theorem runCallback (e : Event) (f : Callback) (s : World × List HandlerRun) :
    part (Rehearsal.runCallback e f s).1.1 = part s.1 := by
  obtain ⟨w, handlers⟩ := s
  cases f with
  | consoleLogger => simp only [Rehearsal.runCallback, h.noteAll]
  | reaction r => exact h.react w r e
  | probe tag stops => exact h.seen w _

theorem runCallbacks (e : Event) (callbacks : List Callback) (s : World × List HandlerRun) :
    part (TabPilot.runCallbacks (Rehearsal.runCallback e) callbacks s).1 = part s.1 := by
  induction callbacks generalizing s with
  | nil => rfl
  | cons f rest ih =>
      have hfirst := h.runCallback e f s
      simp only [TabPilot.runCallbacks]
      split
      · next heq =>
          rw [heq] at hfirst
          exact (ih _).trans hfirst
      · next heq => rwa [heq] at hfirst

theorem dispatchEvent (r : Rehearsal) (t : TabId) (e : Event) :
    part (r.dispatchEvent t e).world = part r.world := by
  simp only [Rehearsal.dispatchEvent, h.waiters, h.runCallbacks]

theorem dispatch (r : Rehearsal) (t : TabId) : part (r.dispatch t).world = part r.world := by
  unfold Rehearsal.dispatch
  split
  · next c e _ =>
      rw [h.dispatchEvent]
      exact h.connection r.world t fun _ => c
  · rfl

theorem handle (r : Rehearsal) (hc : r.catalogue.Keeps part) (index : Nat) :
    part (r.handle index).world = part r.world := by
  unfold Rehearsal.handle
  split
  · rfl
  · next run _ =>
      split
      · rfl
      · exact h.note r.world _
      · exact h.step hc r.world run.thread

/-- What is carried out changes no steady part either, unless it is a script that has ended. -/
theorem activity {c : Catalogue} (hc : c.Keeps part) (w : World) {a : Activity}
    (hgoing : ∀ run, a = .script run → run.thread.result? = none) :
    part (a.step c w).1 = part w := by
  cases a with
  | script run =>
      simp only [Activity.step]
      split
      · next result hresult =>
          rw [hgoing run rfl] at hresult
          cases hresult
      · exact h.step hc w run.thread
  | operations ps =>
      simp only [Activity.step]
      split
      · rfl
      · exact h.resumeFirst w ps
  | stopping tabs phase =>
      cases tabs with
      | nil => rfl
      | cons t rest => exact h.stopStep w t rest phase
  | finished o => rfl

/-- **Everything that is done in a rehearsal.** Whoever has his turn, a steady part stays, unless
a script ends. -/
theorem perform (r : Rehearsal) (hc : r.catalogue.Keeps part) (job : Job)
    (hgoing : ∀ run, r.activity = .script run → run.thread.result? = none) :
    part (r.perform job).world = part r.world := by
  cases job with
  | receive t => exact h.receive r.others t
  | dispatch t => exact h.dispatch r.others t
  | settle t => exact h.connection r.world t fun c => c.settle?.getD c
  | handle index => exact h.handle r.others hc index
  | listen t => exact h.listen r.others t
  | send => exact h.sendNext r.others
  | act =>
      obtain ⟨catalogue, world, debuggers, agenda, handlers, activity, acting, requests⟩ := r
      exact h.activity hc world hgoing

end World.Steady

end TabPilot
