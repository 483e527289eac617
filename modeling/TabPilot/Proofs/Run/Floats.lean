import TabPilot.Proofs.Command.Scopes
import TabPilot.Proofs.Run.Course
import TabPilot.Proofs.Scope.Floats
import TabPilot.Proofs.Script.Parsed

set_option autoImplicit false

/-! # The floats that a run brings into its scopes

Literals are read as integers where they are small whole numbers, arithmetic wraps up what it
computes, and the results of commands are normalised before they are stored. So every step of a
thread keeps the floats in the scopes within any set that holds the proper floats, whatever
replies and events come. The payload of an event is not normalised when a handler is begun for it.
It is the one way on which a small whole number reaches the scopes in binary64.
-/

namespace TabPilot

open Binary64 (properFloats)

/-! ## What a thread holds -/

/-- Whether the statements of a loop were read and all floats in its items are in a set. -/
def LoopState.FloatsIn (F : Set Float) : LoopState → Prop
  | .forever | .counted _ => True
  | .over _ items => ∀ item ∈ items, item.FloatsIn F
  | .whilst test => test.WellFormed
  | .bounded test next => test.WellFormed ∧ next.WellFormed

structure LoopRun.FloatsIn (F : Set Float) (l : LoopRun) : Prop where
  state : l.state.FloatsIn F
  body : statementsWellFormed l.body

/-- Whether what a thread does was read, and all floats in what it holds are in a set. -/
def Focus.FloatsIn (F : Set Float) : Focus → Prop
  | .run body _ => statementsWellFormed body
  | .test c _ => c.WellFormed
  | .call c _ => c.WellFormed
  | .value v | .pause _ v => v.FloatsIn F
  | .loop l => l.FloatsIn F
  | .flow _ | .truth _ | .await _ _ | .failed _ => True

/-- Whether what a thread has still to do was read, and all floats in it are in a set. -/
def Frame.FloatsIn (F : Set Float) : Frame → Prop
  | .statements _ rest _ => statementsWellFormed rest
  | .commands rest _ => ∀ c ∈ rest, c.WellFormed
  | .branch taken _ others otherwise _ =>
      statementsWellFormed taken ∧ branchesWellFormed others ∧ otherwiseWellFormed otherwise
  | .thenTest c _ => c.WellFormed
  | .body l | .loopTest l | .clause l => l.FloatsIn F
  | .source _ repeated _ => statementsWellFormed repeated
  | .negation | .truthiness => True

structure Thread.FloatsIn (F : Set Float) (t : Thread) : Prop where
  focus : t.focus.FloatsIn F
  frames : ∀ frame ∈ t.frames, frame.FloatsIn F

section Mono

variable {F F' : Set Float} (hsub : F ⊆ F')
include hsub

theorem LoopRun.FloatsIn.mono {l : LoopRun} (h : l.FloatsIn F) : l.FloatsIn F' := by
  obtain ⟨state, body, s, index⟩ := l
  refine ⟨?_, h.body⟩
  cases state with
  | «over» targets items => exact fun item hitem => (h.state item hitem).mono hsub
  | _ => exact h.state

theorem Focus.FloatsIn.mono {focus : Focus} (h : focus.FloatsIn F) : focus.FloatsIn F' := by
  cases focus with
  | value v | pause stop v => exact Value.FloatsIn.mono hsub h
  | loop l => exact LoopRun.FloatsIn.mono hsub h
  | _ => exact h

theorem Frame.FloatsIn.mono {frame : Frame} (h : frame.FloatsIn F) : frame.FloatsIn F' := by
  cases frame with
  | body l | loopTest l | clause l => exact LoopRun.FloatsIn.mono hsub h
  | _ => exact h

theorem Thread.FloatsIn.mono {t : Thread} (h : t.FloatsIn F) : t.FloatsIn F' :=
  ⟨h.focus.mono hsub, fun frame hframe => (h.frames frame hframe).mono hsub⟩

theorem Store.FloatsIn.mono {st : Store} (h : st.FloatsIn F) : st.FloatsIn F' :=
  fun s entry hentry => (h s entry hentry).mono hsub

end Mono

/-- Whether what a step comes to, above the frames that it left, has only floats in a set. -/
structure FloatsAbove (F : Set Float) (r : World × Focus × List Frame) : Prop where
  store : r.1.store.FloatsIn F
  focus : r.2.1.FloatsIn F
  frames : ∀ frame ∈ r.2.2, frame.FloatsIn F

namespace FloatsAbove

variable {F : Set Float} {w : World} {focus : Focus} {frame : Frame}

/-- A step that leaves nothing to do but its focus. -/
theorem bare (hw : w.store.FloatsIn F) (h : focus.FloatsIn F) : FloatsAbove F (w, focus, []) :=
  ⟨hw, h, List.forall_mem_nil _⟩

/-- A step that leaves one thing to do after its focus. -/
theorem single (hw : w.store.FloatsIn F) (h : focus.FloatsIn F) (hframe : frame.FloatsIn F) :
    FloatsAbove F (w, focus, [frame]) :=
  ⟨hw, h, List.forall_mem_singleton.mpr hframe⟩

end FloatsAbove

/-! ## Commands -/

section Commands

variable {F : Set Float} (hF : properFloats ⊆ F)

/-- Whether all floats in the options of a call are in a set. -/
def Invocation.FloatsIn (F : Set Float) (i : Invocation) : Prop :=
  i.options.All (Value.FloatsIn F)

/-- A command that brings into the scopes only what is there and what it is called with. -/
def CommandBody.KeepsFloats (body : CommandBody) : Prop :=
  ∀ (F : Set Float) w i, w.store.FloatsIn F → i.FloatsIn F → (body w i).1.store.FloatsIn F

theorem CommandBody.LeavesScopes.keepsFloats {body : CommandBody} (h : body.LeavesScopes) :
    body.KeepsFloats := by
  intro F w i hw _
  rw [h w i]
  exact hw

namespace Variables

variable {w : World} {i : Invocation}

theorem write_floatsIn (hw : w.store.FloatsIn F) (s : ScopeId) (p : Path) {v : Value}
    (hv : v.FloatsIn F) (result : Value) : (write w s p v result).1.store.FloatsIn F :=
  hw.put .owner s p hv

theorem newValue_floatsIn {v : Value} (hi : i.FloatsIn F) (h : newValue w i = .ok v) :
    v.FloatsIn F := by
  unfold newValue at h
  split at h
  · split at h
    · cases h
    · cases h
      exact Value.floatsIn_string _
    · split at h
      · cases h
        exact Value.floatsIn_string _
      · cases h
  · cases h
    exact Value.floatsIn_getD_null fun _ hv => hi.get? hv

/-- The value, if a name, a value and the target are what a command asks for. -/
theorem newValue_of_valued {key : String} {v : Value} {s : ScopeId}
    (h : (do
        let key ← i.requiredText
        let v ← newValue w i
        let s ← target w i
        return (key, v, s)) = Except.ok (key, v, s)) : newValue w i = .ok v := by
  obtain ⟨_, -, h⟩ := exists_of_bind_eq_ok h
  obtain ⟨_, hvalue, h⟩ := exists_of_bind_eq_ok h
  obtain ⟨_, -, h⟩ := exists_of_bind_eq_ok h
  cases h
  exact hvalue

theorem set_keepsFloats : CommandBody.KeepsFloats set := by
  intro F w i hw hi
  simp only [set]
  split
  · exact hw
  · next heq => exact write_floatsIn hw _ _ (newValue_floatsIn hi (newValue_of_valued heq)) _

theorem clear_keepsFloats : CommandBody.KeepsFloats clear := by
  intro F w i hw _
  simp only [clear]
  split
  · exact hw
  · split
    · exact hw.unset _ _
    · exact hw

theorem push_keepsFloats : CommandBody.KeepsFloats push := by
  intro F w i hw hi
  simp only [push]
  split
  · exact hw
  · next heq =>
      have hnew := newValue_floatsIn hi (newValue_of_valued heq)
      exact write_floatsIn hw _ _ (Value.floatsIn_appended (hw.get _ _) hnew) _

theorem pop_keepsFloats : CommandBody.KeepsFloats pop := by
  intro F w i hw _
  simp only [pop]
  split
  · exact hw
  · split
    · next items hitems =>
        have hlist : (Value.array items).FloatsIn F := hw.get _ _ _ hitems
        refine write_floatsIn hw _ _ (Value.floatsIn_array.mpr fun v hv => ?_) _
        exact Value.floatsIn_array.mp hlist v (List.mem_of_mem_dropLast hv)
    · exact hw

theorem commands_keepFloats : ∀ e ∈ commands.entries, e.body.KeepsFloats := by
  have hreads {f : World → Invocation → Progress} :
      CommandBody.KeepsFloats fun w i => (w, f w i) := fun _ _ _ hw _ => hw
  simp only [commands, CommandSet.closed, List.forall_mem_cons]
  exact ⟨hreads, hreads, set_keepsFloats, clear_keepsFloats, push_keepsFloats, pop_keepsFloats,
    hreads, hreads, List.forall_mem_nil _⟩

end Variables

theorem Catalogue.standard_keepsFloats {set : CommandSet} (hset : set ∈ standard.sets)
    {e : CommandEntry} (he : e ∈ set.entries) : e.body.KeepsFloats := by
  simp only [standard, List.mem_cons, List.not_mem_nil, or_false] at hset
  rcases hset with rfl | rfl | rfl | rfl
  · exact (Core.commands_leaveScopes e he).keepsFloats
  · exact (Events.commands_leaveScopes e he).keepsFloats
  · exact (Formatting.commands_leaveScopes e he).keepsFloats
  · exact Variables.commands_keepFloats e he

include hF

theorem Catalogue.prepare_floatsIn {c : Catalogue} {read : Path → Option Value}
    (hread : ReadsFloatsIn F read) {s : ScopeId} {cmd : Command} (hcmd : cmd.WellFormed)
    {p : PreparedCommand} (h : c.prepare read s cmd = .ok p) : p.invocation.FloatsIn F := by
  obtain ⟨⟨e, name⟩, -, h⟩ := exists_of_bind_eq_ok h
  obtain ⟨argument, -, h⟩ := exists_of_bind_eq_ok h
  obtain ⟨values, hvalues, h⟩ := exists_of_bind_eq_ok h
  dsimp only at h
  split at h
  · cases h
  · obtain ⟨target, -, h⟩ := exists_of_bind_eq_ok h
    cases h
    have hoptions : entriesWellFormed (cmd.options.getD []) := by
      rw [entriesWellFormed_iff]
      cases hgiven : cmd.options with
      | none => exact List.forall_mem_nil _
      | some options => exact hcmd.2.2.1 options hgiven
    exact Record.all_ofList (Expr.floatsIn_evalEntries hF hread _ hoptions values hvalues)

namespace World

variable {w : World}

omit hF in
theorem storeResult_floatsIn (hw : w.store.FloatsIn F) (a : ActiveCommand) {v : Value}
    (hv : v.FloatsIn F) : (w.storeResult a v).1.store.FloatsIn F := by
  unfold storeResult
  split
  · exact hw
  · exact hw.put .owner a.scope _ hv

/-- What a command comes to is normalised before it is stored and handed on. -/
theorem settle_floatsIn (hw : w.store.FloatsIn F) (a : ActiveCommand) (r : Except Error Value) :
    (w.settle a r).1.store.FloatsIn F ∧ (w.settle a r).2.FloatsIn F := by
  cases r with
  | error e => exact ⟨hw, trivial⟩
  | ok v =>
      have hv : v.normalize.FloatsIn F := Value.floatsIn_normalize hF v
      have hstored := storeResult_floatsIn hw a hv
      simp only [settle, conclude]
      generalize w.storeResult a v.normalize = r at hstored
      obtain ⟨w', fault⟩ := r
      cases fault with
      | some fault => exact ⟨hstored, trivial⟩
      | none =>
          dsimp only
          split <;> exact ⟨hstored, hv⟩

theorem proceed_floatsIn (hw : w.store.FloatsIn F) (a : ActiveCommand) (progress : Progress) :
    (w.proceed a progress).1.store.FloatsIn F ∧ (w.proceed a progress).2.FloatsIn F := by
  cases progress with
  | waiting op => exact ⟨hw, trivial⟩
  | finished r => exact settle_floatsIn hF hw a r

theorem callCommand_floatsIn (hw : w.store.FloatsIn F) (s : ScopeId) {cmd : Command}
    (hcmd : cmd.WellFormed) :
    (w.callCommand .standard s cmd).1.store.FloatsIn F ∧
      (w.callCommand .standard s cmd).2.FloatsIn F := by
  unfold callCommand
  split
  · exact ⟨hw, trivial⟩
  · next p hp =>
      obtain ⟨⟨set, hset, e, he, hbody⟩, -⟩ := Catalogue.prepare_cases hp
      have hi := Catalogue.prepare_floatsIn hF (hw.get s) hcmd hp
      have hcall : (p.body w p.invocation).1.store.FloatsIn F := by
        rw [hbody]
        exact Catalogue.standard_keepsFloats hset he F w p.invocation hw hi
      exact proceed_floatsIn hF hcall _ _

end World

end Commands

/-! ## Steps -/

namespace World

variable {F : Set Float} (hF : properFloats ⊆ F) {w : World} {l : LoopRun} {s : ScopeId}

theorem child_floatsIn (hw : w.store.FloatsIn F) (s : ScopeId) :
    (w.child s).1.store.FloatsIn F :=
  hw.add Record.all_empty _

/-! ### Loops -/

theorem enterBody_floatsIn (hw : w.store.FloatsIn F) (h : l.FloatsIn F) :
    FloatsAbove F (w.enterBody l) :=
  .single (hw.setIndex l.scope l.index) h.body h

theorem enterTest_floatsIn (hw : w.store.FloatsIn F) (h : l.FloatsIn F) {test : Condition}
    (htest : test.WellFormed) : FloatsAbove F (w.enterTest l test) :=
  .single (hw.setIndex l.scope l.index) htest h

include hF

theorem iterate_floatsIn (hw : w.store.FloatsIn F) (h : l.FloatsIn F) :
    FloatsAbove F (w.iterate l) := by
  obtain ⟨state, body, s, index⟩ := l
  cases state with
  | forever => exact enterBody_floatsIn hw h
  | counted left =>
      cases left with
      | zero => exact .bare hw trivial
      | succ left =>
          have hnext : LoopRun.FloatsIn F ⟨.counted left, body, s, index⟩ := ⟨trivial, h.body⟩
          exact enterBody_floatsIn hw hnext
  | «over» targets items =>
      cases items with
      | nil => exact .bare hw trivial
      | cons item rest =>
          obtain ⟨hitem, hrest⟩ := List.forall_mem_cons.mp h.state
          have hnext : LoopRun.FloatsIn F ⟨.over targets rest, body, s, index⟩ := ⟨hrest, h.body⟩
          -- The items are values that the loop holds, so binding one brings in no float.
          have hbound := hw.bindItem hF s targets hitem
          simp only [iterate]
          split
          · next heq =>
              have hstore := congrArg (fun r => r.1.store) heq
              exact .bare (hstore ▸ hbound) trivial
          · next heq =>
              have hstore := congrArg (fun r => r.1.store) heq
              exact enterBody_floatsIn (hstore ▸ hbound) hnext
  | whilst test => exact enterTest_floatsIn hw h h.state
  | bounded test next => exact enterTest_floatsIn hw h h.state.1

theorem assign_floatsIn (hw : w.store.FloatsIn F) (reach : Store.Reach) (s : ScopeId)
    {a : Assignment} (ha : a.WellFormed) : (w.assign reach s a).1.store.FloatsIn F :=
  hw.assign hF reach s ha

theorem runClause_floatsIn (hw : w.store.FloatsIn F) (h : l.FloatsIn F) {clause : Clause}
    (hclause : clause.WellFormed) : FloatsAbove F (w.runClause l clause) := by
  cases clause with
  | command c p => exact .single hw hclause.1 h
  | assignment a =>
      have hassigned := assign_floatsIn hF hw .owner l.scope hclause
      simp only [runClause]
      split
      · next heq =>
          rw [heq] at hassigned
          exact .bare hassigned trivial
      · next heq =>
          rw [heq] at hassigned
          exact .bare hassigned h

theorem afterBody_floatsIn (hw : w.store.FloatsIn F) (h : l.FloatsIn F) :
    FloatsAbove F (w.afterBody l) := by
  have hnext : LoopRun.FloatsIn F { l with index := l.index + 1 } := ⟨h.state, h.body⟩
  unfold afterBody
  dsimp only
  split
  · next test clause hstate =>
      have hloop : (LoopState.bounded test clause).FloatsIn F := hstate ▸ h.state
      exact runClause_floatsIn hF hw hnext hloop.2
  · exact .bare hw hnext

omit hF in
theorem overItems_floatsIn (hw : w.store.FloatsIn F) {targets : List Target}
    {body : List Statement} (hbody : statementsWellFormed body) (s : ScopeId) {v : Value}
    (hv : v.FloatsIn F) : FloatsAbove F (w.overItems targets body s v) := by
  unfold overItems
  split
  · next items hitems =>
      have hloop : LoopRun.FloatsIn F ⟨.over targets items, body, s, 0⟩ :=
        ⟨Value.floatsIn_items hv hitems, hbody⟩
      exact .bare hw hloop
  · exact .bare hw trivial

theorem beginLoop_floatsIn (hw : w.store.FloatsIn F) (s : ScopeId) {mode : LoopMode}
    {body : List Statement} (hmode : mode.WellFormed) (hbody : statementsWellFormed body) :
    FloatsAbove F (w.beginLoop s mode body) := by
  have hloop (state : LoopState) (hstate : state.FloatsIn F) :
      LoopRun.FloatsIn F ⟨state, body, s, 0⟩ := ⟨hstate, hbody⟩
  cases mode with
  | infinite => exact .bare hw (hloop .forever trivial)
  | count times =>
      simp only [beginLoop]
      split
      · exact .bare hw (hloop (.counted _) trivial)
      · exact .bare hw trivial
  | whilst test => exact .bare hw (hloop (.whilst test) hmode.1)
  | bounded init test next =>
      obtain ⟨hinit, -, htest, -, hnext⟩ := hmode
      exact runClause_floatsIn hF hw (hloop (.bounded test next) ⟨htest, hnext⟩) hinit
  | items targets source =>
      cases source with
      | command c => exact .single hw hmode.2.2.1 hbody
      | «variable» v =>
          simp only [beginLoop]
          split
          · exact overItems_floatsIn hw hbody s (Value.floatsIn_getD_null (hw.get s _))
          · exact .bare hw trivial

/-! ### Statements and conditions -/

omit hF in
theorem choose_floatsIn (hw : w.store.FloatsIn F) {branches : List Branch}
    {otherwise : Option (List Statement)} (hbranches : branchesWellFormed branches)
    (hotherwise : otherwiseWellFormed otherwise) (s : ScopeId) :
    FloatsAbove F (w.choose branches otherwise s) := by
  have hchild := child_floatsIn hw s
  cases branches with
  | cons b others =>
      obtain ⟨test, body⟩ := b
      obtain ⟨⟨htest, hbody⟩, hothers⟩ := hbranches
      exact .single hchild htest ⟨hbody, hothers, hotherwise⟩
  | nil =>
      cases otherwise with
      | some body => exact .bare hchild hotherwise
      | none => exact .bare hw trivial

omit hF in
theorem ended_floatsIn {r : World × Option RunFailure} (h : r.1.store.FloatsIn F) :
    FloatsAbove F (ended r) := by
  obtain ⟨w, failure⟩ := r
  cases failure <;> exact .bare h trivial

theorem begin_floatsIn (hw : w.store.FloatsIn F) (s : ScopeId) {st : Statement}
    (hst : st.WellFormed) : FloatsAbove F (w.begin s st) := by
  cases st with
  | assign a => exact ended_floatsIn (assign_floatsIn hF hw .owner s hst)
  | unset vs p => exact ended_floatsIn (hw.unsetAll s vs)
  | expression e p =>
      simp only [begin]
      split <;> exact .bare hw trivial
  | choice first others otherwise p =>
      have hbranches : branchesWellFormed (first :: others) := ⟨hst.1, hst.2.1⟩
      exact choose_floatsIn hw hbranches hst.2.2 s
  | loop mode body p => exact beginLoop_floatsIn hF (child_floatsIn hw s) _ hst.1 hst.2
  | commands cs p =>
      cases cs with
      | nil => exact .bare hw trivial
      | cons c rest =>
          obtain ⟨hc, hrest⟩ := List.forall_mem_cons.mp hst.2
          exact .single hw hc hrest
  | jump kind levels p => exact .bare hw trivial

theorem test_floatsIn (hw : w.store.FloatsIn F) (s : ScopeId) {test : Condition}
    (htest : test.WellFormed) : FloatsAbove F (w.test s test) := by
  have hnegating (negated : Bool) : ∀ frame ∈ negating negated, frame.FloatsIn F := by
    cases negated <;> simp [negating, Frame.FloatsIn]
  cases test with
  | assigning negated p a rest =>
      have hassigned := assign_floatsIn hF hw .itself s htest.1
      simp only [World.test]
      split
      · next heq =>
          rw [heq] at hassigned
          exact .bare hassigned trivial
      · next heq =>
          rw [heq] at hassigned
          exact ⟨hassigned, htest.2, hnegating negated⟩
  | commanding negated p c rest =>
      exact ⟨hw, htest.1, List.forall_mem_cons.mpr ⟨htest.2.2, hnegating negated⟩⟩
  | command negated p c =>
      exact ⟨hw, htest.1, List.forall_mem_cons.mpr ⟨trivial, hnegating negated⟩⟩
  | comparison negated p lhs comparison =>
      simp only [World.test]
      split <;> exact .bare hw trivial

/-! ### What comes after -/

theorem afterFlow_floatsIn (hw : w.store.FloatsIn F) {frame : Frame} (h : frame.FloatsIn F)
    (f : Flow) : FloatsAbove F (w.afterFlow f frame) := by
  cases frame with
  | statements p rest s =>
      cases f with
      | normal => exact .bare hw h
      | jump kind levels p => exact .bare hw trivial
  | body l =>
      cases f with
      | normal => exact afterBody_floatsIn hF hw h
      | jump kind levels p =>
          simp only [afterFlow]
          split
          · exact .bare hw trivial
          · cases kind with
            | «break» => exact .bare hw trivial
            | «continue» => exact afterBody_floatsIn hF hw h
  | _ => exact .bare hw trivial

omit hF in
theorem afterTruth_floatsIn (hw : w.store.FloatsIn F) {frame : Frame} (h : frame.FloatsIn F)
    (b : Bool) : FloatsAbove F (w.afterTruth b frame) := by
  cases frame with
  | branch body inner others otherwise outer =>
      cases b with
      | true => exact .bare hw h.1
      | false => exact choose_floatsIn hw h.2.1 h.2.2 outer
  | loopTest l =>
      cases b with
      | true => exact enterBody_floatsIn hw h
      | false => exact .bare hw trivial
  | _ => exact .bare hw trivial

omit hF in
theorem afterValue_floatsIn (hw : w.store.FloatsIn F) {frame : Frame} (h : frame.FloatsIn F)
    {v : Value} (hv : v.FloatsIn F) : FloatsAbove F (w.afterValue v frame) := by
  cases frame with
  | commands rest s =>
      cases rest with
      | nil => exact .bare hw trivial
      | cons c rest =>
          obtain ⟨hc, hrest⟩ := List.forall_mem_cons.mp h
          exact .single hw hc hrest
  | thenTest test s => exact .bare hw h
  | clause l => exact .bare hw h
  | source targets body s => exact overItems_floatsIn hw h s hv
  | truthiness => exact .bare hw trivial
  | _ => exact .bare hw hv

end World

namespace Thread

variable {F : Set Float}

theorem floatsIn_after {frames : List Frame} {r : World × Focus × List Frame}
    (h : FloatsAbove F r) (hframes : ∀ frame ∈ frames, frame.FloatsIn F) :
    (after frames r).1.store.FloatsIn F ∧ (after frames r).2.FloatsIn F :=
  ⟨h.store, h.focus, List.forall_mem_append.mpr ⟨h.frames, hframes⟩⟩

/-- **One step.** A step of a thread brings no small whole number in binary64 into the scopes that
was not in them, and not in what the thread holds. -/
theorem step_floatsIn (hF : properFloats ⊆ F) {w : World} {t : Thread}
    (hw : w.store.FloatsIn F) (h : t.FloatsIn F) :
    (t.step .standard w).1.store.FloatsIn F ∧ (t.step .standard w).2.FloatsIn F := by
  obtain ⟨focus, frames⟩ := t
  obtain ⟨hfocus, hframes⟩ := h
  cases focus with
  | run body s =>
      cases body with
      | nil => exact ⟨hw, trivial, hframes⟩
      | cons st rest =>
          exact floatsIn_after (World.begin_floatsIn hF hw s hfocus.1)
            (List.forall_mem_cons.mpr ⟨hfocus.2, hframes⟩)
  | test c s => exact floatsIn_after (World.test_floatsIn hF hw s hfocus) hframes
  | loop l => exact floatsIn_after (World.iterate_floatsIn hF hw hfocus) hframes
  | call cmd s =>
      obtain ⟨hstore, hnext⟩ := World.callCommand_floatsIn hF hw s hfocus
      exact ⟨hstore, hnext, hframes⟩
  | await a op =>
      simp only [step]
      split
      · next w' progress hresume =>
          have hw' : w'.store.FloatsIn F := (Operation.resume?_store hresume).symm ▸ hw
          obtain ⟨hstore, hnext⟩ := World.proceed_floatsIn hF hw' a progress
          exact ⟨hstore, hnext, hframes⟩
      · exact ⟨hw, trivial, hframes⟩
  | pause stop v =>
      simp only [step]
      split <;> exact ⟨hw, hfocus, hframes⟩
  | flow f =>
      cases frames with
      | nil => cases f <;> exact ⟨hw, trivial, hframes⟩
      | cons frame frames =>
          obtain ⟨hframe, hframes⟩ := List.forall_mem_cons.mp hframes
          exact floatsIn_after (World.afterFlow_floatsIn hF hw hframe f) hframes
  | truth b =>
      cases frames with
      | nil => exact ⟨hw, trivial, hframes⟩
      | cons frame frames =>
          obtain ⟨hframe, hframes⟩ := List.forall_mem_cons.mp hframes
          exact floatsIn_after (World.afterTruth_floatsIn hw hframe b) hframes
  | value v =>
      cases frames with
      | nil => exact ⟨hw, hfocus, hframes⟩
      | cons frame frames =>
          obtain ⟨hframe, hframes⟩ := List.forall_mem_cons.mp hframes
          exact floatsIn_after (World.afterValue_floatsIn hw hframe hfocus) hframes
  | failed e =>
      cases frames with
      | nil => exact ⟨hw, trivial, hframes⟩
      | cons frame frames => exact ⟨hw, trivial, (List.forall_mem_cons.mp hframes).2⟩

end Thread

/-! ## Runs -/

/-- A handler is begun in a scope that holds the event as it came. -/
theorem World.react_floatsIn {F : Set Float} {w : World} (hw : w.store.FloatsIn F) {r : Reaction}
    (hbody : statementsWellFormed r.body) {e : Event} (he : e.payload.FloatsIn F) :
    (w.react r e).1.store.FloatsIn F ∧ (w.react r e).2.thread.FloatsIn F := by
  have hvalue : e.toValue.FloatsIn F :=
    Value.floatsIn_ofMembers (List.forall_mem_cons.mpr
      ⟨Value.floatsIn_string _, List.forall_mem_singleton.mpr he⟩)
  have hvars : (Record.empty.insert "event" e.toValue).All (Value.FloatsIn F) :=
    Record.all_empty.insert hvalue
  refine ⟨?_, hbody, List.forall_mem_nil _⟩
  simp only [react, changeStore]
  cases r.isolated with
  | true => exact hw.add hvars []
  | false => exact hw.add hvars _

/-- A float stands in a variable of a scope, at whatever depth. -/
def Store.HasFloat (st : Store) (s : ScopeId) (f : Float) : Prop :=
  ∃ entry ∈ (st.vars s).entries, entry.2.HasFloat f

theorem Store.floatsIn_iff {F : Set Float} {st : Store} :
    st.FloatsIn F ↔ ∀ s f, st.HasFloat s f → f ∈ F := by
  constructor
  · rintro h s f ⟨entry, hentry, hf⟩
    exact h s entry hentry f hf
  · exact fun h s entry hentry f hf => h s f ⟨entry, hentry, hf⟩

namespace Script

/-- The floats that a run may have in its scopes: the proper ones, and those that stand in the
payloads of events for which handlers were begun. -/
def floatsAfter (events : List Event) : Set Float :=
  properFloats ∪ {f | ∃ e ∈ events, e.payload.HasFloat f}

theorem floatsAfter_subset_append (events : List Event) (e : Event) :
    floatsAfter events ⊆ floatsAfter (events ++ [e]) :=
  Set.union_subset_union_right _ fun _ ⟨e, he, hf⟩ => ⟨e, List.mem_append_left _ he, hf⟩

theorem floatsIn_payload (events : List Event) (e : Event) :
    e.payload.FloatsIn (floatsAfter (events ++ [e])) :=
  fun _ hf => .inr ⟨e, List.mem_append_right _ (List.mem_singleton.mpr rfl), hf⟩

variable {script : Script} {home : ScopeId} {w₀ w : World} {events : List Event}
  {threads : List Thread}

/-- **A whole run.** At every point the floats in the scopes, and in what the threads hold, are
proper or came with an event. -/
theorem Reaches.floatsIn (hwf : script.WellFormed) (hstart : w₀.store.FloatsIn properFloats)
    (h : script.Reaches .standard home w₀ events w threads) :
    w.store.FloatsIn (floatsAfter events) ∧ ∀ t ∈ threads, t.FloatsIn (floatsAfter events) := by
  have hproper (events : List Event) : properFloats ⊆ floatsAfter events :=
    Set.subset_union_left
  induction h with
  | start =>
      exact ⟨hstart.mono (hproper []),
        List.forall_mem_singleton.mpr ⟨hwf.1, List.forall_mem_nil _⟩⟩
  | @step events w before after t _ ih =>
      obtain ⟨hw, hthreads⟩ := ih
      obtain ⟨hbefore, hrest⟩ := List.forall_mem_append.mp hthreads
      obtain ⟨ht, hafter⟩ := List.forall_mem_cons.mp hrest
      obtain ⟨hstore, hstep⟩ := t.step_floatsIn (hproper events) hw ht
      exact ⟨hstore, List.forall_mem_append.mpr ⟨hbefore, List.forall_mem_cons.mpr ⟨hstep, hafter⟩⟩⟩
  | @react events w threads handler _ mem filename e ih =>
      obtain ⟨hw, hthreads⟩ := ih
      have hsub := floatsAfter_subset_append events e
      have hbody : statementsWellFormed handler.body := hwf.2 handler mem
      obtain ⟨hstore, hthread⟩ := World.react_floatsIn (r := script.reaction home filename handler)
        (hw.mono hsub) hbody (floatsIn_payload events e)
      exact ⟨hstore, List.forall_mem_append.mpr
        ⟨fun t ht => (hthreads t ht).mono hsub, List.forall_mem_singleton.mpr hthread⟩⟩
  | meanwhile _ same ih => exact ⟨same ▸ ih.1, ih.2⟩

/-- **Small whole numbers in binary64 come from events only.** Let a script be run with the
built-in commands, in scopes that hold no float that is an integer of magnitude at most `2 ^ 53`.
Whatever replies and events come, and in whatever order handlers are begun and threads take their
steps: if at any point a scope holds such a float, at whatever depth, then it stands in the payload
of an event for which a handler was begun. -/
theorem Reaches.small_whole_from_event {source : String} (hparse : parse source = .ok script)
    (hstart : ∀ s f, w₀.store.HasFloat s f → ¬ Binary64.IsSmallWhole f)
    (h : script.Reaches .standard home w₀ events w threads) :
    ∀ s f, w.store.HasFloat s f → Binary64.IsSmallWhole f →
      ∃ e ∈ events, e.payload.HasFloat f := by
  intro s f hf hwhole
  have hfloats := (h.floatsIn (wellFormed_of_parse hparse) (Store.floatsIn_iff.mpr hstart)).1
  rcases Store.floatsIn_iff.mp hfloats s f hf with hproper | hevent
  · exact absurd hwhole hproper
  · exact hevent

/-- A script whose handler copies a number out of its event. -/
def copySource : String :=
  "$seen = 0\non 'Page.frameNavigated' \x7b\n  $seen = $event.data.n\n\x7d\nsleep 100 -> null"

def copyHandler : Handler where
  pattern := "Page.frameNavigated"
  isolated := false
  body :=
    [.assign ⟨[.variable ⟨"seen", []⟩], .set, [.variable "event" [.field "data", .field "n"]],
      ⟨3, 3⟩⟩]
  position := ⟨2, 1⟩

def copyScript : Script where
  statements :=
    [.assign ⟨[.variable ⟨"seen", []⟩], .set, [.literal (.int 0)], ⟨1, 1⟩⟩,
      .commands [⟨"sleep", some (.literal (.int 100)), none, .discard, ⟨5, 1⟩⟩] ⟨5, 1⟩]
  handlers := [copyHandler]
  source := copySource
  filename := none

theorem parse_copySource : parse copySource = .ok copyScript := by cbv

def oneScope : World := { World.empty with store := ⟨#[⟨Record.empty, []⟩]⟩ }

theorem oneScope_hasFloat {s : ScopeId} {f : Float} : ¬ oneScope.store.HasFloat s f := by
  rintro ⟨entry, hentry, -⟩
  have hvars : oneScope.store.vars s = Record.empty := by
    cases s <;> rfl
  rw [hvars] at hentry
  cases hentry

/-- A page has gone to another address; the event has a number. -/
def navigated (f : Float) : Event :=
  ⟨"Page", "frameNavigated", .object ⟨[("n", .float f)]⟩⟩

/-- The first statement has run when the event comes, and the handler runs at once. -/
theorem reaches_copied (f : Float) : ∃ w threads,
    copyScript.Reaches .standard 0 oneScope [navigated f] w threads ∧ w.store.HasFloat 0 f := by
  have hassigned := @Reaches.step .standard copyScript 0 oneScope [] oneScope [] []
    (.start copyScript.statements 0) .start
  have hhandler : copyHandler ∈ copyScript.handlers := List.mem_singleton.mpr rfl
  have hbegun := hassigned.react hhandler none (navigated f)
  have hcopied := @Reaches.step .standard copyScript 0 oneScope [navigated f] _ [_] [] _ hbegun
  refine ⟨_, _, hcopied, ("seen", .float f), List.mem_of_getElem? (i := 0) ?_, .here⟩
  cbv

/-- The number 2 in binary64, copied from an event to the scope of the script. -/
theorem small_whole_from_event_copied : ∃ w threads,
    parse copySource = .ok copyScript ∧
      (∀ s f, oneScope.store.HasFloat s f → ¬ Binary64.IsSmallWhole f) ∧
      copyScript.Reaches .standard 0 oneScope [navigated 2.0] w threads ∧
      w.store.HasFloat 0 2.0 ∧ Binary64.IsSmallWhole 2.0 ∧
      ∃ e ∈ [navigated 2.0], e.payload.HasFloat 2.0 := by
  obtain ⟨w, threads, hrun, hcopied⟩ := reaches_copied 2.0
  have hstart : ∀ s f, oneScope.store.HasFloat s f → ¬ Binary64.IsSmallWhole f :=
    fun s f hf => absurd hf oneScope_hasFloat
  exact ⟨w, threads, parse_copySource, hstart, hrun, hcopied, Binary64.isSmallWhole_two,
    hrun.small_whole_from_event parse_copySource hstart 0 2.0 hcopied Binary64.isSmallWhole_two⟩

/-- **Not all floats in the scopes are proper.** The payload of an event is not normalised before
a handler sees it, and what a handler assigns is not either. -/
theorem small_whole_in_scope : ¬ ∀ (source : String) (script : Script) (home : ScopeId)
    (w₀ w : World) (events : List Event) (threads : List Thread), parse source = .ok script →
      (∀ s f, w₀.store.HasFloat s f → ¬ Binary64.IsSmallWhole f) →
      script.Reaches .standard home w₀ events w threads →
      ∀ s f, w.store.HasFloat s f → ¬ Binary64.IsSmallWhole f := by
  intro hall
  obtain ⟨w, threads, hrun, hcopied⟩ := reaches_copied 2.0
  exact hall copySource copyScript 0 oneScope w [navigated 2.0] threads parse_copySource
    (fun s f hf => absurd hf oneScope_hasFloat) hrun 0 2.0 hcopied Binary64.isSmallWhole_two

end Script

end TabPilot
