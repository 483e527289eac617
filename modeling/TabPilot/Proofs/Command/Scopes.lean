import TabPilot.Proofs.Command.Untouched
import TabPilot.Proofs.Outcome
import TabPilot.Proofs.Scope.Changes

set_option autoImplicit false

/-! # What commands do to the scopes

All built-in commands but those on variables leave the scopes alone, also when they go on after a
wait. The commands on variables write from their target: the scope of the call, unless the option
`parent` leads farther out. So a command without this option adds names to no scope but the one
in which it is called.
-/

namespace TabPilot

/-! ## Changes beside the scopes -/

namespace World

@[simp] theorem changeStore_store {α : Type} (w : World) (f : Store → Store × α) :
    (w.changeStore f).1.store = (f w.store).1 := rfl

/-- The scopes are beside everything that changes here. -/
theorem untouched_store : Untouched World.store where
  note _ _ := rfl
  waiters _ _ _ := rfl
  connection _ _ _ := rfl
  options _ _ := rfl
  referrers _ _ := rfl

end World

/-- A command that goes on after a wait leaves the scopes alone. -/
theorem Operation.resume?_store {w w' : World} {op : Operation} {progress : Progress}
    (h : op.resume? w = some (w', progress)) : w'.store = w.store :=
  World.untouched_store.resume? h

/-! ## Built-in commands -/

def CommandBody.LeavesScopes (body : CommandBody) : Prop :=
  ∀ w i, (body w i).1.store = w.store

def CommandBody.WritesFromTarget (body : CommandBody) : Prop :=
  ∀ n w i, (∀ t, Variables.target w i = .ok t → n ≤ t) → w.store.ChangesFrom n (body w i).1.store

theorem CommandBody.LeavesScopes.writesFromTarget {body : CommandBody} (h : body.LeavesScopes) :
    body.WritesFromTarget := by
  intro n w i _
  rw [h w i]
  exact .refl n w.store

theorem Core.commands_leaveScopes : ∀ e ∈ commands.entries, e.body.LeavesScopes :=
  World.untouched_store.core

theorem Events.commands_leaveScopes : ∀ e ∈ commands.entries, e.body.LeavesScopes :=
  World.untouched_store.events

theorem Formatting.commands_leaveScopes : ∀ e ∈ commands.entries, e.body.LeavesScopes :=
  CommandBody.formatting_keeps

/-! ## Commands on variables -/

namespace Variables

variable {n : Nat} {w : World} {i : Invocation}

theorem write_changesFrom {s : ScopeId} (h : n ≤ s) (p : Path) (v result : Value) :
    w.store.ChangesFrom n (write w s p v result).1.store :=
  Store.put_changesFrom .owner h p v

/-- A name and the target, if that is what a command asks for. -/
theorem target_of_keyed {key : String} {s : ScopeId}
    (h : (do
        let key ← i.requiredText
        let s ← target w i
        return (key, s)) = Except.ok (key, s)) : target w i = .ok s := by
  obtain ⟨_, -, h⟩ := exists_of_bind_eq_ok h
  obtain ⟨_, htarget, h⟩ := exists_of_bind_eq_ok h
  cases h
  exact htarget

/-- A name, a value and the target, if that is what a command asks for. -/
theorem target_of_valued {key : String} {v : Value} {s : ScopeId}
    (h : (do
        let key ← i.requiredText
        let v ← newValue w i
        let s ← target w i
        return (key, v, s)) = Except.ok (key, v, s)) : target w i = .ok s := by
  obtain ⟨_, -, h⟩ := exists_of_bind_eq_ok h
  obtain ⟨_, -, h⟩ := exists_of_bind_eq_ok h
  obtain ⟨_, htarget, h⟩ := exists_of_bind_eq_ok h
  cases h
  exact htarget

theorem set_writesFromTarget : CommandBody.WritesFromTarget set := by
  intro n w i h
  simp only [set]
  split
  · exact .refl n w.store
  · next heq => exact write_changesFrom (h _ (target_of_valued heq)) _ _ _

theorem clear_writesFromTarget : CommandBody.WritesFromTarget clear := by
  intro n w i h
  simp only [clear]
  split
  · exact .refl n w.store
  · next heq =>
    split
    · exact Store.unset_changesFrom (h _ (target_of_keyed heq)) _
    · exact .refl n w.store

theorem push_writesFromTarget : CommandBody.WritesFromTarget push := by
  intro n w i h
  simp only [push]
  split
  · exact .refl n w.store
  · next heq => exact write_changesFrom (h _ (target_of_valued heq)) _ _ _

theorem pop_writesFromTarget : CommandBody.WritesFromTarget pop := by
  intro n w i h
  simp only [pop]
  split
  · exact .refl n w.store
  · next heq =>
      split
      · exact write_changesFrom (h _ (target_of_keyed heq)) _ _ _
      · exact .refl n w.store

theorem commands_writeFromTarget : ∀ e ∈ commands.entries, e.body.WritesFromTarget := by
  have hreads {f : World → Invocation → Progress} :
      CommandBody.WritesFromTarget fun w i => (w, f w i) := fun n w _ _ => .refl n w.store
  simp only [commands, CommandSet.closed, List.forall_mem_cons]
  exact ⟨hreads, hreads, set_writesFromTarget, clear_writesFromTarget, push_writesFromTarget,
    pop_writesFromTarget, hreads, hreads, List.forall_mem_nil _⟩

/-- Without the option `parent` the target is the scope of the call. -/
theorem eq_of_target {s : ScopeId} (hparent : i.options.get? "parent" = none)
    (h : target w i = .ok s) : s = i.scope := by
  have hlevels : levels i = .ok 0 := by
    simp [levels, Invocation.option?, hparent]
  rw [target, hlevels] at h
  cases h
  rfl

end Variables

/-- Every built-in command writes to scopes only from its target. -/
theorem Catalogue.standard_writesFromTarget {set : CommandSet} (hset : set ∈ standard.sets)
    {e : CommandEntry} (he : e ∈ set.entries) : e.body.WritesFromTarget := by
  simp only [standard, List.mem_cons, List.not_mem_nil, or_false] at hset
  rcases hset with rfl | rfl | rfl | rfl
  · exact (Core.commands_leaveScopes e he).writesFromTarget
  · exact (Events.commands_leaveScopes e he).writesFromTarget
  · exact (Formatting.commands_leaveScopes e he).writesFromTarget
  · exact Variables.commands_writeFromTarget e he

/-! ## Calls -/

/-- Whether a command is written without the option `parent`. -/
def Command.Local (c : Command) : Prop := ∀ entry ∈ c.options.getD [], entry.1 ≠ "parent"

theorem Expr.names_of_evalEntries {read : Path → Option Value} {entries : List (String × Expr)}
    {values : List (String × Value)} (h : Expr.evalEntries read entries = .ok values) :
    values.map Prod.fst = entries.map Prod.fst := by
  induction entries generalizing values with
  | nil =>
      rw [Expr.evalEntries] at h
      cases h
      rfl
  | cons entry rest ih =>
      obtain ⟨name, e⟩ := entry
      simp only [Expr.evalEntries] at h
      split at h
      · cases h
      · cases hrest : Expr.evalEntries read rest with
        | error f =>
            rw [hrest] at h
            cases h
        | ok others =>
            rw [hrest] at h
            cases h
            rw [List.map_cons, List.map_cons, ih hrest]

/-- The command of a name is one of the catalogue's. -/
theorem Catalogue.mem_of_command {c : Catalogue} {name inner : String} {e : CommandEntry}
    (h : c.command name = .ok (e, inner)) : ∃ set ∈ c.sets, e ∈ set.entries := by
  simp only [Catalogue.command] at h
  split at h
  · cases h
  · next set inner' hresolve =>
      split at h
      · next entry hentry =>
          cases h
          refine ⟨set, ?_, List.mem_of_find?_eq_some hentry⟩
          unfold Catalogue.resolve at hresolve
          split at hresolve
          split at hresolve
          · next hset =>
              cases hresolve
              exact List.mem_of_find?_eq_some hset
          · cases hresolve
      · cases h

/-- What a command that is ready comes from. -/
theorem Catalogue.prepare_cases {c : Catalogue} {read : Path → Option Value} {s : ScopeId}
    {cmd : Command} {p : PreparedCommand} (h : c.prepare read s cmd = .ok p) :
    (∃ set ∈ c.sets, ∃ e ∈ set.entries, p.body = e.body) ∧ p.active.scope = s ∧
      p.invocation.scope = s ∧ (cmd.Local → p.invocation.options.get? "parent" = none) := by
  obtain ⟨⟨e, name⟩, hentry, h⟩ := exists_of_bind_eq_ok h
  obtain ⟨argument, -, h⟩ := exists_of_bind_eq_ok h
  obtain ⟨values, hvalues, h⟩ := exists_of_bind_eq_ok h
  dsimp only at h
  split at h
  · cases h
  · obtain ⟨target, -, h⟩ := exists_of_bind_eq_ok h
    cases h
    obtain ⟨set, hset, he⟩ := Catalogue.mem_of_command hentry
    refine ⟨⟨set, hset, e, he, rfl⟩, rfl, rfl, fun hlocal => ?_⟩
    refine Record.get?_ofList_eq_none fun entry hmem heq => ?_
    have hname : "parent" ∈ (cmd.options.getD []).map Prod.fst := by
      rw [← Expr.names_of_evalEntries hvalues, ← heq]
      exact List.mem_map_of_mem hmem
    obtain ⟨written, hwritten, hparent⟩ := List.mem_map.mp hname
    exact hlocal written hwritten hparent

namespace World

theorem storeResult_changesFrom {n : Nat} {a : ActiveCommand} (h : n ≤ a.scope) (w : World)
    (v : Value) : w.store.ChangesFrom n (w.storeResult a v).1.store := by
  unfold storeResult
  split
  · exact .refl n w.store
  · exact Store.put_changesFrom .owner h _ v

/-- A command that ends writes from the scope in which it was called. -/
theorem conclude_changesFrom {n : Nat} {a : ActiveCommand} (h : n ≤ a.scope) (w : World)
    (r : Except Error Value) : w.store.ChangesFrom n (w.conclude a r).1.store := by
  cases r with
  | error e => exact .refl n w.store
  | ok v =>
      have hstored := storeResult_changesFrom h w v.normalize
      simp only [conclude]
      split
      · next heq => rwa [heq] at hstored
      · next heq => rwa [heq] at hstored

theorem proceed_changesFrom {n : Nat} {a : ActiveCommand} (h : n ≤ a.scope) (w : World)
    (progress : Progress) : w.store.ChangesFrom n (w.proceed a progress).1.store := by
  cases progress with
  | waiting op => exact .refl n w.store
  | finished r =>
      have hconcluded := conclude_changesFrom h w r
      simp only [proceed, settle]
      split
      · next heq => rwa [heq] at hconcluded
      · next heq =>
          rw [heq] at hconcluded
          split
          · exact hconcluded
          · exact hconcluded

/-- **One call.** A built-in command without the option `parent` makes its changes from the scope
of the call. -/
theorem callCommand_changesFrom {n : Nat} {s : ScopeId} {cmd : Command} (h : n ≤ s)
    (hlocal : n = 0 ∨ cmd.Local) (w : World) :
    w.store.ChangesFrom n (w.callCommand .standard s cmd).1.store := by
  unfold callCommand
  split
  · exact .refl n w.store
  · next p hp =>
      obtain ⟨⟨set, hset, e, he, hbody⟩, hactive, hscope, hparent⟩ := Catalogue.prepare_cases hp
      have hcall : w.store.ChangesFrom n (p.body w p.invocation).1.store := by
        rw [hbody]
        refine Catalogue.standard_writesFromTarget hset he n w p.invocation fun t ht => ?_
        rcases hlocal with rfl | hlocal
        · exact Nat.zero_le t
        · rw [Variables.eq_of_target (hparent hlocal) ht, hscope]
          exact h
      exact hcall.trans (proceed_changesFrom (hactive ▸ h) _ _)

end World

end TabPilot
