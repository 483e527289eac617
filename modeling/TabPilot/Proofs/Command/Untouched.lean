import TabPilot.Run.Machine

set_option autoImplicit false

/-! # What commands leave alone

Of the world, the built-in commands but those on variables change the log, the waiters and the
connections of tabs, the execution options, and the number of referrers that were made up. A part
of the world that stays when these change is `World.Untouched`: the scopes are one, the callbacks
of a tab are another. No such command changes it, also when it goes on after a wait.
-/

namespace TabPilot

/-- A part of the world that is the same when commands that do not work on variables have changed
what they change. -/
structure World.Untouched {α : Type} (part : World → α) : Prop where
  note : ∀ w entry, part (w.note entry) = part w
  waiters : ∀ w t f, part (w.modifyWaiters t f) = part w
  connection : ∀ w t f, part (w.modifyConnection t f) = part w
  options : ∀ w options, part { w with options := options } = part w
  referrers : ∀ w n, part { w with referrers := n } = part w

def CommandBody.Keeps {α : Type} (part : World → α) (body : CommandBody) : Prop :=
  ∀ w i, part (body w i).1 = part w

namespace CommandBody

variable {α : Type} {part : World → α}

/-! ## Commands that change little -/

theorem answering_keeps (part : World → α) (f : Invocation → Except Error Value) :
    (answering f).Keeps part :=
  fun _ _ => rfl

theorem withKey_keeps {f : World → Invocation → String → World × Value}
    (hf : ∀ w i key, part (f w i key).1 = part w) : (Core.withKey f).Keeps part := by
  intro w i
  unfold Core.withKey
  split
  · rfl
  · exact hf w i _

theorem sleep_keeps : CommandBody.Keeps part Core.sleep := by
  intro w i
  unfold Core.sleep
  split
  · rfl
  · split <;> rfl

/-- All commands on text answer at once. -/
theorem formatting_keeps : ∀ e ∈ Formatting.commands.entries, e.body.Keeps part := by
  simp only [Formatting.commands, List.forall_mem_cons]
  refine ⟨?_, ?_, ?_, ?_, ?_, ?_, ?_, ?_, ?_, ?_, ?_, List.forall_mem_nil _⟩ <;>
    exact answering_keeps part _

end CommandBody

namespace World.Untouched

variable {α : Type} {part : World → α} (h : Untouched part)
include h

/-! ## Waiting -/

theorem withdraw (w : World) (t : TabId) (p : Option PendingWait) :
    part (w.withdraw t p) = part w := by
  cases p with
  | none => rfl
  | some p => exact h.waiters w t fun waiters => waiters.withdraw p

theorem failCall (w : World) (t : TabId) (next : AfterReply) (e : Error) :
    part (w.failCall t next e).1 = part w := by
  cases next with
  | navigation url load timeout => exact h.withdraw w t load
  | result | done | setup doing rest => rfl

theorem call (w : World) (t : TabId) (method : String) (params : Value)
    (timeout : Option Duration) (next : AfterReply) :
    part (w.call t method params timeout next).1 = part w := by
  unfold World.call
  split
  · exact h.failCall w t next _
  · split
    · next connection id _ => exact h.connection w t fun _ => connection
    · rw [h.failCall, h.connection]

theorem enable (w : World) (t : TabId) (name : String) (rest : List SetupStep)
    {goOn : World → World × Progress} (hgo : ∀ w, part (goOn w).1 = part w) :
    part (w.enable t name rest goOn).1 = part w := by
  unfold World.enable
  split
  · rfl
  · split
    · exact hgo w
    · exact h.call w t _ _ _ _

theorem setUp (w : World) (steps : List SetupStep) : part (w.setUp steps).1 = part w := by
  induction steps generalizing w with
  | nil => rfl
  | cons step rest ih =>
      cases step with
      | enable t name => exact h.enable w t name rest ih
      | find t wanted =>
          rw [World.setUp]
          split
          · rfl
          · rw [h.enable _ t _ rest ih, h.note]
      | userAgent agent =>
          simp only [World.setUp]
          split
          · exact h.call w _ _ _ _ _
          · rfl
          · rfl
      | headers headers =>
          simp only [World.setUp]
          split
          · exact h.call w _ _ _ _ _
          · rfl

theorem afterReply (w : World) (t : TabId) (next : AfterReply) (reply : Reply) :
    part (w.afterReply t next reply).1 = part w := by
  cases next with
  | result | done => rfl
  | setup doing rest => exact h.setUp w rest
  | navigation url load timeout =>
      simp only [World.afterReply]
      split
      · exact h.withdraw w t _
      · rfl
      · rfl

/-- What a command changes that goes on after a wait. -/
theorem resume? {w w' : World} {op : Operation} {progress : Progress}
    (hresume : op.resume? w = some (w', progress)) : part w' = part w := by
  cases op with
  | pause stop result =>
      simp only [Operation.resume?] at hresume
      split at hresume
      · cases hresume
        rfl
      · cases hresume
  | wait t awaited result =>
      simp only [Operation.resume?] at hresume
      split at hresume
      · cases hresume
        rfl
      · obtain ⟨_, -, heq⟩ := Option.map_eq_some_iff.mp hresume
        cases heq
        exact h.waiters w t _
  | reply call next =>
      simp only [Operation.resume?] at hresume
      split at hresume
      · cases hresume
        rfl
      · obtain ⟨r, -, heq⟩ := Option.map_eq_some_iff.mp hresume
        rw [← congrArg (fun r => part r.1) heq]
        cases r with
        | ok answer => exact (h.afterReply _ _ _ _).trans (h.connection w _ _)
        | error e => exact (h.failCall _ _ _ _).trans (h.connection w _ _)

/-! ## Built-in commands -/

theorem beginWait (w : World) (t : TabId) (begin : Waiters → Waiters × Wait) :
    part (Core.beginWait w t begin).1 = part w := by
  unfold Core.beginWait
  split
  · rfl
  · exact h.waiters w t fun _ => _

theorem log : CommandBody.Keeps part Core.log := by
  intro w i
  unfold Core.log
  split
  · exact h.note w _
  · rfl

theorem rpc : CommandBody.Keeps part Core.rpc := by
  intro w i
  unfold Core.rpc
  split
  · rfl
  · rfl
  · exact h.call w _ _ _ _ _

theorem navigationParams (w : World) (n : Core.Navigation) :
    part (Core.navigationParams w n).1 = part w := by
  unfold Core.navigationParams
  split
  · rfl
  · rfl
  · exact h.referrers w _

theorem go : CommandBody.Keeps part Core.go := by
  intro w i
  unfold Core.go
  split
  · rfl
  · next n _ =>
      -- The tab is looked up after the referrer was made up, which is a change of the world.
      have hparams := h.navigationParams w n
      generalize Core.navigationParams w n = r at hparams ⊢
      rw [← hparams]
      dsimp only
      split
      · rw [h.call, h.waiters]
      · exact h.call _ _ _ _ _ _

theorem waitForLoad : CommandBody.Keeps part Core.waitForLoad := by
  intro w i
  unfold Core.waitForLoad
  dsimp only
  split
  · rfl
  · exact h.beginWait w _ _

theorem configure : CommandBody.Keeps part Core.configure := by
  intro w i
  unfold Core.configure
  split
  · rfl
  · next delay _ =>
      dsimp only
      split
      · cases delay with
        | none => rfl
        | some d => exact h.options w _
      · rw [h.setUp]
        cases delay with
        | none => rfl
        | some d => exact h.options w _

/-- No core command changes an untouched part. -/
theorem core : ∀ e ∈ Core.commands.entries, e.body.Keeps part := by
  simp only [Core.commands, CommandSet.closed, List.forall_mem_cons]
  exact ⟨CommandBody.answering_keeps part _, h.log, CommandBody.sleep_keeps, h.rpc, h.go,
    h.waitForLoad, h.configure, CommandBody.withKey_keeps fun w _ _ => h.options w _,
    CommandBody.withKey_keeps fun _ _ _ => rfl,
    CommandBody.withKey_keeps fun w _ _ => h.options w _, List.forall_mem_nil _⟩

theorem waitFor : CommandBody.Keeps part Events.waitFor := by
  intro w i
  unfold Events.waitFor
  dsimp only
  split
  · rfl
  · exact h.beginWait w _ _

theorem waitForIdle : CommandBody.Keeps part Events.waitForIdle := by
  intro w i
  unfold Events.waitForIdle
  dsimp only
  split
  · rfl
  · exact h.beginWait w _ _

/-- No command that waits for events changes an untouched part. -/
theorem events : ∀ e ∈ Events.commands.entries, e.body.Keeps part := by
  simp only [Events.commands, CommandSet.closed, List.forall_mem_cons]
  exact ⟨h.waitFor, h.waitForIdle, List.forall_mem_nil _⟩

end World.Untouched

end TabPilot
