import TabPilot.Proofs.Command.Beside
import TabPilot.Proofs.Scope.Twins

set_option autoImplicit false

/-! # Commands in twin worlds

Two worlds are twins if their scopes are paired off and they are the same beside the scopes. Every
built-in command that is called in the scopes of a pair does the same in both and comes to the
same. The commands on variables may go outwards by any number of steps: from a pair that leads to
a pair.
-/

namespace TabPilot

/-! ## Twin worlds -/

/-- Two worlds whose scopes are paired off, and which are the same beside the scopes. -/
structure World.Twins (a : Realm × Realm) (R : ScopeId → ScopeId → Prop) (w₁ w₂ : World) :
    Prop where
  beside : w₁.beside = w₂.beside
  store : w₁.store.Twins a R w₂.store

/-- What two changes of twin worlds come to: twins again, with the same outcome. -/
structure World.TwinResults {α : Type} (a : Realm × Realm) (R : ScopeId → ScopeId → Prop)
    (r₁ r₂ : World × α) : Prop where
  world : r₁.1.Twins a R r₂.1
  outcome : r₁.2 = r₂.2

theorem World.TwinResults.exists_eq {α : Type} {a : Realm × Realm}
    {R : ScopeId → ScopeId → Prop} {r₁ r₂ : World × α} (h : TwinResults a R r₁ r₂) :
    ∃ w₁ w₂ x, r₁ = (w₁, x) ∧ r₂ = (w₂, x) ∧ w₁.Twins a R w₂ :=
  ⟨r₁.1, r₂.1, r₁.2, rfl, by rw [h.outcome], h.world⟩

/-- A call that is written in scopes that are paired off. -/
inductive Invocation.Twin (R : ScopeId → ScopeId → Prop) : Invocation → Invocation → Prop
  | mk (argument : Option Value) (options : Record Value) {s t : ScopeId} (h : R s t) :
      Twin R ⟨argument, options, s⟩ ⟨argument, options, t⟩

/-- A command that is carried out in scopes that are paired off. -/
inductive ActiveCommand.Twin (R : ScopeId → ScopeId → Prop) : ActiveCommand → ActiveCommand → Prop
  | mk (command : Command) (name : String) (target : Option Path) {s t : ScopeId} (h : R s t) :
      Twin R ⟨command, name, s, target⟩ ⟨command, name, t, target⟩

inductive PreparedCommand.Twin (R : ScopeId → ScopeId → Prop) :
    PreparedCommand → PreparedCommand → Prop
  | mk {a₁ a₂ : ActiveCommand} {i₁ i₂ : Invocation} (active : a₁.Twin R a₂) (body : CommandBody)
      (invocation : i₁.Twin R i₂) : Twin R ⟨a₁, body, i₁⟩ ⟨a₂, body, i₂⟩

variable {a : Realm × Realm} {R : ScopeId → ScopeId → Prop} {w₁ w₂ : World} {s t : ScopeId}

namespace World.Twins

theorem read (h : w₁.Twins a R w₂) (hst : R s t) : w₁.read s = w₂.read t := h.store.get hst

theorem now_eq (h : w₁.Twins a R w₂) : w₁.now = w₂.now := by
  show w₁.beside.now = w₂.beside.now
  rw [h.beside]

theorem commandDelay?_eq (h : w₁.Twins a R w₂) : w₁.commandDelay? = w₂.commandDelay? := by
  show w₁.beside.commandDelay? = w₂.beside.commandDelay?
  rw [h.beside]

theorem changeStore {α : Type} (h : w₁.Twins a R w₂) {f₁ f₂ : Store → Store × α}
    (hf : Store.TwinResults a R (f₁ w₁.store) (f₂ w₂.store)) :
    TwinResults a R (w₁.changeStore f₁) (w₂.changeStore f₂) :=
  ⟨⟨h.beside, hf.store⟩, hf.outcome⟩

/-- What does not depend on the scopes and leaves them alone keeps twins. -/
theorem of_aside {α : Type} (h : w₁.Twins a R w₂) {r₁ r₂ : World × α}
    (haside : aside r₁ = aside r₂) (hstore₁ : r₁.1.store = w₁.store)
    (hstore₂ : r₂.1.store = w₂.store) : TwinResults a R r₁ r₂ := by
  obtain ⟨hbeside, houtcome⟩ := Prod.mk.inj haside
  have hstore : r₁.1.store.Twins a R r₂.1.store := by
    rw [hstore₁, hstore₂]
    exact h.store
  exact ⟨⟨hbeside, hstore⟩, houtcome⟩

theorem note (h : w₁.Twins a R w₂) (entry : LogEntry) :
    (w₁.note entry).Twins a R (w₂.note entry) where
  beside := congrArg (·.note entry) h.beside
  store := h.store

end World.Twins

/-- What a command waits for has come in both worlds or in neither. -/
theorem Operation.resume?_twin (h : w₁.Twins a R w₂) (op : Operation) :
    Option.Rel (World.TwinResults a R) (op.resume? w₁) (op.resume? w₂) := by
  have hsame : (op.resume? w₁).map aside = (op.resume? w₂).map aside := by
    rw [← op.resume?_beside, ← op.resume?_beside, h.beside]
  cases hresume₁ : op.resume? w₁ with
  | none =>
      rw [hresume₁] at hsame
      rw [Option.map_eq_none_iff.mp hsame.symm]
      exact .none
  | some r₁ =>
      rw [hresume₁] at hsame
      obtain ⟨r₂, hresume₂, haside⟩ := Option.map_eq_some_iff.mp hsame.symm
      rw [hresume₂]
      exact .some (h.of_aside haside.symm (Operation.resume?_store hresume₁)
        (Operation.resume?_store hresume₂))

/-! ## Built-in commands -/

/-- A command that keeps twins if it is called in the scopes of a pair. -/
def CommandBody.KeepsTwins (body : CommandBody) : Prop :=
  ∀ {a : Realm × Realm} {R : ScopeId → ScopeId → Prop} {w₁ w₂ : World} {i₁ i₂ : Invocation},
    w₁.Twins a R w₂ → i₁.Twin R i₂ → World.TwinResults a R (body w₁ i₁) (body w₂ i₂)

theorem CommandBody.IgnoresScopes.keepsTwins {body : CommandBody} (h : body.IgnoresScopes)
    (hleaves : body.LeavesScopes) : body.KeepsTwins := by
  intro a R w₁ w₂ i₁ i₂ hw hi
  have hunscoped : i₁.unscoped = i₂.unscoped := by
    cases hi
    rfl
  refine hw.of_aside ?_ (hleaves w₁ i₁) (hleaves w₂ i₂)
  rw [← h w₁ i₁, ← h w₂ i₂, hw.beside, hunscoped]

namespace Variables

variable {i₁ i₂ : Invocation}

theorem write_twin (h : w₁.Twins a R w₂) (hst : R s t) (p : Path) (v result : Value) :
    World.TwinResults a R (write w₁ s p v result) (write w₂ t p v result) := by
  obtain ⟨hstore, houtcome⟩ := h.store.put .owner hst p v
  refine ⟨⟨h.beside, hstore⟩, ?_⟩
  simp only [write, World.changeStore, houtcome]

theorem newValue_twin (h : w₁.Twins a R w₂) (hi : i₁.Twin R i₂) :
    newValue w₁ i₁ = newValue w₂ i₂ := by
  obtain ⟨argument, options, hst⟩ := hi
  unfold newValue
  rw [h.store.get hst]
  rfl

/-- The target of a command, however far outwards, is a pair of scopes. -/
theorem target_twin (h : w₁.Twins a R w₂) (hi : i₁.Twin R i₂) :
    OutcomeRel R (target w₁ i₁) (target w₂ i₂) := by
  obtain ⟨argument, options, hst⟩ := hi
  refine (OutcomeRel.refl (levels ⟨argument, options, _⟩)).map ?_
  rintro steps _ rfl
  exact h.store.level hst steps

theorem requiredText_twin (hi : i₁.Twin R i₂) :
    OutcomeRel Eq i₁.requiredText i₂.requiredText := by
  obtain ⟨argument, options, -⟩ := hi
  exact .refl _

/-- What a command asks for that takes a name and works on its target. -/
theorem keyed_twin (h : w₁.Twins a R w₂) (hi : i₁.Twin R i₂) :
    OutcomeRel (fun x y => x.1 = y.1 ∧ R x.2 y.2)
      (do let key ← i₁.requiredText; let s ← target w₁ i₁; return (key, s))
      (do let key ← i₂.requiredText; let s ← target w₂ i₂; return (key, s)) := by
  refine (requiredText_twin hi).bind ?_
  rintro key _ rfl
  exact (target_twin h hi).bind fun s t hst => .ok ⟨rfl, hst⟩

/-- What a command asks for that takes a name and a value besides. -/
theorem valued_twin (h : w₁.Twins a R w₂) (hi : i₁.Twin R i₂) :
    OutcomeRel (fun x y => x.1 = y.1 ∧ x.2.1 = y.2.1 ∧ R x.2.2 y.2.2)
      (do
        let key ← i₁.requiredText
        let v ← newValue w₁ i₁
        let s ← target w₁ i₁
        return (key, v, s))
      (do
        let key ← i₂.requiredText
        let v ← newValue w₂ i₂
        let s ← target w₂ i₂
        return (key, v, s)) := by
  refine (requiredText_twin hi).bind ?_
  rintro key _ rfl
  rw [newValue_twin h hi]
  refine (OutcomeRel.refl (newValue w₂ i₂)).bind ?_
  rintro v _ rfl
  exact (target_twin h hi).bind fun s t hst => .ok ⟨rfl, rfl, hst⟩

theorem default_keepsTwins : CommandBody.KeepsTwins default := by
  intro a R w₁ w₂ i₁ i₂ hw hi
  refine ⟨hw, congrArg Progress.finished ((target_twin hw hi).map ?_).eq⟩
  intro s t hst
  rw [hw.store.mapping hst]

theorem get_keepsTwins : CommandBody.KeepsTwins get := by
  intro a R w₁ w₂ i₁ i₂ hw hi
  refine ⟨hw, congrArg Progress.finished ((requiredText_twin hi).bind ?_).eq⟩
  rintro key _ rfl
  refine (target_twin hw hi).bind fun s t hst => .ok ?_
  obtain ⟨argument, options, -⟩ := hi
  rw [hw.store.get hst]

theorem set_keepsTwins : CommandBody.KeepsTwins set := by
  intro a R w₁ w₂ i₁ i₂ hw hi
  obtain ⟨e, h₁, h₂⟩ | ⟨⟨key, v, s⟩, ⟨_, _, t⟩, h₁, h₂, rfl, rfl, hst⟩ :=
    (valued_twin hw hi).error_or_ok
  · simp only [set, h₁, h₂]
    exact ⟨hw, rfl⟩
  · simp only [set, h₁, h₂]
    exact write_twin hw hst _ _ _

theorem clear_keepsTwins : CommandBody.KeepsTwins clear := by
  intro a R w₁ w₂ i₁ i₂ hw hi
  obtain ⟨e, h₁, h₂⟩ | ⟨⟨key, s⟩, ⟨_, t⟩, h₁, h₂, rfl, hst⟩ := (keyed_twin hw hi).error_or_ok
  · simp only [clear, h₁, h₂]
    exact ⟨hw, rfl⟩
  · have hcontains := hw.store.contains hst (Path.parse key)
    simp only [clear, h₁, h₂]
    by_cases hheld : w₂.store.contains t (Path.parse key) = true
    · rw [if_pos (hcontains.trans hheld), if_pos hheld]
      exact ⟨⟨hw.beside, hw.store.unset hst _⟩, rfl⟩
    · rw [if_neg (hcontains ▸ hheld), if_neg hheld]
      exact ⟨hw, rfl⟩

theorem push_keepsTwins : CommandBody.KeepsTwins push := by
  intro a R w₁ w₂ i₁ i₂ hw hi
  obtain ⟨e, h₁, h₂⟩ | ⟨⟨key, v, s⟩, ⟨_, _, t⟩, h₁, h₂, rfl, rfl, hst⟩ :=
    (valued_twin hw hi).error_or_ok
  · simp only [push, h₁, h₂]
    exact ⟨hw, rfl⟩
  · simp only [push, h₁, h₂, hw.store.get hst]
    exact write_twin hw hst _ _ _

theorem pop_keepsTwins : CommandBody.KeepsTwins pop := by
  intro a R w₁ w₂ i₁ i₂ hw hi
  obtain ⟨e, h₁, h₂⟩ | ⟨⟨key, s⟩, ⟨_, t⟩, h₁, h₂, rfl, hst⟩ := (keyed_twin hw hi).error_or_ok
  · simp only [pop, h₁, h₂]
    exact ⟨hw, rfl⟩
  · simp only [pop, h₁, h₂, hw.store.get hst]
    split
    · exact write_twin hw hst _ _ _
    · exact ⟨hw, rfl⟩

theorem ensure_keepsTwins : CommandBody.KeepsTwins ensure := by
  intro a R w₁ w₂ i₁ i₂ hw hi
  refine ⟨hw, congrArg Progress.finished ((requiredText_twin hi).bind ?_).eq⟩
  rintro key _ rfl
  refine (target_twin hw hi).bind fun s t hst => ?_
  obtain ⟨argument, options, -⟩ := hi
  rw [hw.store.get hst]
  exact .refl _

theorem interpolate_keepsTwins : CommandBody.KeepsTwins interpolate := by
  intro a R w₁ w₂ i₁ i₂ hw hi
  obtain ⟨argument, options, hst⟩ := hi
  refine ⟨hw, ?_⟩
  simp only [interpolate, hw.store.get hst]
  rfl

theorem commands_keepTwins : ∀ e ∈ commands.entries, e.body.KeepsTwins := by
  simp only [commands, CommandSet.closed, List.forall_mem_cons]
  exact ⟨default_keepsTwins, get_keepsTwins, set_keepsTwins, clear_keepsTwins, push_keepsTwins,
    pop_keepsTwins, ensure_keepsTwins, interpolate_keepsTwins, List.forall_mem_nil _⟩

end Variables

/-- **Every built-in command** does the same in twin worlds, and they stay twins. -/
theorem Catalogue.standard_keepsTwins {set : CommandSet} (hset : set ∈ standard.sets)
    {e : CommandEntry} (he : e ∈ set.entries) : e.body.KeepsTwins := by
  simp only [standard, List.mem_cons, List.not_mem_nil, or_false] at hset
  rcases hset with rfl | rfl | rfl | rfl
  · exact (Core.commands_ignoreScopes e he).keepsTwins (Core.commands_leaveScopes e he)
  · exact (Events.commands_ignoreScopes e he).keepsTwins (Events.commands_leaveScopes e he)
  · exact (Formatting.commands_ignoreScopes e he).keepsTwins (Formatting.commands_leaveScopes e he)
  · exact Variables.commands_keepTwins e he

/-! ## Calls and results -/

/-- A command gets ready in the same way in both scopes of a pair. -/
theorem Catalogue.prepare_twin (c : Catalogue) (read : Path → Option Value) (hst : R s t)
    (cmd : Command) :
    OutcomeRel (PreparedCommand.Twin R) (c.prepare read s cmd) (c.prepare read t cmd) := by
  refine (OutcomeRel.refl (c.command cmd.name)).bind ?_
  rintro ⟨entry, name⟩ _ rfl
  refine (OutcomeRel.refl (Expr.evalOptional read cmd.id)).bind ?_
  rintro argument _ rfl
  refine (OutcomeRel.refl (Expr.evalEntries read (cmd.options.getD []))).bind ?_
  rintro options _ rfl
  dsimp only
  split
  · exact .error _
  · refine (OutcomeRel.refl (cmd.destination.path read)).bind ?_
    rintro target _ rfl
    exact .ok (.mk (.mk cmd name target hst) entry.body (.mk argument _ hst))

namespace World.Twins

variable {a₁ a₂ : ActiveCommand}

theorem storeResult (h : w₁.Twins a R w₂) (ha : a₁.Twin R a₂) (v : Value) :
    TwinResults a R (w₁.storeResult a₁ v) (w₂.storeResult a₂ v) := by
  obtain ⟨command, name, target, hst⟩ := ha
  cases target with
  | none => exact ⟨h, rfl⟩
  | some p =>
      obtain ⟨hstore, houtcome⟩ := h.store.put .owner hst p v
      refine ⟨⟨h.beside, hstore⟩, ?_⟩
      simp only [World.storeResult, World.changeStore, houtcome]

/-- A command ends with the same result or the same fault, and with the same entry in the log. -/
theorem conclude (h : w₁.Twins a R w₂) (ha : a₁.Twin R a₂) (r : Except Error Value) :
    TwinResults a R (w₁.conclude a₁ r) (w₂.conclude a₂ r) := by
  cases r with
  | error e =>
      obtain ⟨command, name, target, hst⟩ := ha
      exact ⟨h.note _, rfl⟩
  | ok v =>
      obtain ⟨w₁', w₂', fault, h₁, h₂, hw⟩ := (h.storeResult ha v.normalize).exists_eq
      simp only [World.conclude, h₁, h₂]
      cases fault <;> exact ⟨hw, rfl⟩

end World.Twins

end TabPilot
