import TabPilot.Proofs.Run.Effects

set_option autoImplicit false

/-! # What a block works in

Everything that is done in a block is done in scopes that were made for it. `Within` and `Inner`
say which scopes these are: since there were `n` scopes, inside a scope that was there. `Confined`
says of what a thread does, and of what it has still to do, that it happens in such scopes and
calls no command with the option `parent`. Every step keeps this (`World.begin_confined` and the
lemmas before it, one for each kind of step).
-/

namespace TabPilot

/-! ## Scopes made inside a scope -/

namespace Store

/-- From the scope `s` one sees besides `home` and the scopes around it only scopes with numbers
from `n` on, all of which are there. -/
structure Within (st : Store) (home : ScopeId) (n : Nat) (s : ScopeId) : Prop where
  size : n ≤ st.scopes.size
  chain : ∀ t ∈ st.chain s, t < st.scopes.size ∧ (n ≤ t ∨ t ∈ st.chain home)

/-- A scope with a number from `n` on, inside `home` or on its own. -/
structure Inner (st : Store) (home : ScopeId) (n : Nat) (s : ScopeId) : Prop
    extends Within st home n s where
  le : n ≤ s

variable {st st' : Store} {home s : ScopeId} {n : Nat}

theorem mem_chain_self (st : Store) (s : ScopeId) : s ∈ st.chain s := List.mem_cons_self

/-- What one sees from a scope stays, and more only where the scope was not there. -/
theorem Extends.mem_chain {t : ScopeId} (h : st.Extends st') (ht : t ∈ st.chain s) :
    t ∈ st'.chain s := by
  rcases Nat.lt_or_ge s st.scopes.size with hs | hs
  · rwa [h.chain hs]
  · rw [Store.chain, Store.outer, Array.getElem?_eq_none hs, List.mem_singleton] at ht
    rw [ht]
    exact mem_chain_self st' s

theorem Within.lt_size (h : st.Within home n s) : s < st.scopes.size :=
  (h.chain s (mem_chain_self st s)).1

theorem Within.extends (h : st.Within home n s) (hext : st.Extends st') :
    st'.Within home n s where
  size := Nat.le_trans h.size hext.size
  chain t ht := by
    rw [hext.chain h.lt_size] at ht
    obtain ⟨hsize, hseen⟩ := h.chain t ht
    exact ⟨Nat.lt_of_lt_of_le hsize hext.size, hseen.imp_right hext.mem_chain⟩

theorem Inner.extends (h : st.Inner home n s) (hext : st.Extends st') : st'.Inner home n s :=
  ⟨h.toWithin.extends hext, h.le⟩

/-- A new scope is an inner one if all that it is in may be seen. -/
theorem inner_add {outer : List ScopeId} (hsize : n ≤ st.scopes.size)
    (houter : ∀ t ∈ outer, t < st.scopes.size ∧ (n ≤ t ∨ t ∈ st.chain home))
    (vars : Record Value) : (st.add vars outer).1.Inner home n (st.add vars outer).2 := by
  have hext : st.Extends (st.add vars outer).1 := (add_spares hsize vars outer).toExtends
  have hgrown : (st.add vars outer).1.scopes.size = st.scopes.size + 1 := by simp [Store.add]
  refine ⟨⟨Nat.le_trans hsize hext.size, fun t ht => ?_⟩, hsize⟩
  rw [chain_add, List.mem_cons] at ht
  rcases ht with rfl | ht
  · exact ⟨by rw [hgrown]; exact Nat.lt_succ_self _, .inl hsize⟩
  · obtain ⟨hlt, hseen⟩ := houter t ht
    exact ⟨Nat.lt_of_lt_of_le hlt hext.size, hseen.imp_right hext.mem_chain⟩

theorem Within.inner_addChild (h : st.Within home n s) (vars : Record Value) :
    (st.addChild s vars).1.Inner home n (st.addChild s vars).2 :=
  inner_add h.size h.chain vars

theorem inner_addRoot (home : ScopeId) (h : n ≤ st.scopes.size) (vars : Record Value) :
    (st.addRoot vars).1.Inner home n (st.addRoot vars).2 :=
  inner_add h (List.forall_mem_nil _) vars

end Store

/-! ## Statements without the option `parent` -/

def Condition.Local : Condition → Prop
  | .assigning _ _ _ rest => rest.Local
  | .commanding _ _ c rest => c.Local ∧ rest.Local
  | .command _ _ c => c.Local
  | .comparison .. => True

def Clause.Local : Clause → Prop
  | .assignment _ => True
  | .command c _ => c.Local

def LoopSource.Local : LoopSource → Prop
  | .variable _ => True
  | .command c => c.Local

def LoopMode.Local : LoopMode → Prop
  | .infinite | .count _ => True
  | .items _ source => source.Local
  | .whilst test => test.Local
  | .bounded init test next => init.Local ∧ test.Local ∧ next.Local

mutual

/-- Whether a statement has no command with the option `parent`. -/
def Statement.Local : Statement → Prop
  | .assign _ | .unset _ _ | .expression _ _ | .jump _ _ _ => True
  | .choice first others otherwise _ =>
      first.Local ∧ branchesLocal others ∧ otherwiseLocal otherwise
  | .loop mode body _ => mode.Local ∧ statementsLocal body
  | .commands cs _ => ∀ c ∈ cs, c.Local

def Branch.Local : Branch → Prop
  | .mk test body => test.Local ∧ statementsLocal body

def branchesLocal : List Branch → Prop
  | [] => True
  | b :: rest => b.Local ∧ branchesLocal rest

def otherwiseLocal : Option (List Statement) → Prop
  | none => True
  | some body => statementsLocal body

def statementsLocal : List Statement → Prop
  | [] => True
  | st :: rest => st.Local ∧ statementsLocal rest

end

def Script.Local (script : Script) : Prop :=
  statementsLocal script.statements ∧ ∀ h ∈ script.handlers, statementsLocal h.body

/-! ## What a thread does and has still to do -/

def LoopState.Local : LoopState → Prop
  | .forever | .counted _ | .over _ _ => True
  | .whilst test => test.Local
  | .bounded test next => test.Local ∧ next.Local

structure LoopRun.Confined (own : ScopeId → Prop) (l : LoopRun) : Prop where
  state : l.state.Local
  body : statementsLocal l.body
  scope : own l.scope

/-- Whether what a thread does happens in one of the scopes `own`. -/
def Focus.Confined (own : ScopeId → Prop) : Focus → Prop
  | .run body s => statementsLocal body ∧ own s
  | .test c s => c.Local ∧ own s
  | .call c s => c.Local ∧ own s
  | .await a _ => own a.scope
  | .loop l => l.Confined own
  | .flow _ | .truth _ | .pause _ _ | .value _ | .failed _ => True

/-- Whether what a thread has still to do happens in the scopes `own`. The branches of a choice
get scopes of their own, inside the scope of the choice, which is one of `sites`. -/
def Frame.Confined (own sites : ScopeId → Prop) : Frame → Prop
  | .statements _ rest s => statementsLocal rest ∧ own s
  | .commands rest s => (∀ c ∈ rest, c.Local) ∧ own s
  | .branch taken inner others otherwise outer =>
      statementsLocal taken ∧ own inner ∧ branchesLocal others ∧ otherwiseLocal otherwise ∧
        sites outer
  | .thenTest c s => c.Local ∧ own s
  | .body l | .loopTest l | .clause l => l.Confined own
  | .source _ repeated s => statementsLocal repeated ∧ own s
  | .negation | .truthiness => True

section Mono

variable {own own' sites sites' : ScopeId → Prop} (hown : ∀ s, own s → own' s)

include hown

theorem LoopRun.Confined.mono {l : LoopRun} (h : l.Confined own) : l.Confined own' :=
  ⟨h.state, h.body, hown _ h.scope⟩

theorem Focus.Confined.mono {focus : Focus} (h : focus.Confined own) : focus.Confined own' := by
  cases focus with
  | run | test | call => exact ⟨h.1, hown _ h.2⟩
  | await a op => exact hown _ h
  | loop l => exact LoopRun.Confined.mono hown h
  | _ => trivial

theorem Frame.Confined.mono (hsites : ∀ s, sites s → sites' s) {frame : Frame}
    (h : frame.Confined own sites) : frame.Confined own' sites' := by
  cases frame with
  | statements | commands | thenTest | source => exact ⟨h.1, hown _ h.2⟩
  | branch body inner others otherwise outer =>
      obtain ⟨hbody, hinner, hothers, hotherwise, houter⟩ := h
      exact ⟨hbody, hown _ hinner, hothers, hotherwise, hsites _ houter⟩
  | body l | loopTest l | clause l => exact LoopRun.Confined.mono hown h
  | negation | truthiness => trivial

end Mono

/-- Whether what a step comes to, above the frames that it left, is confined. -/
structure ConfinedAbove (own sites : ScopeId → Prop) (r : World × Focus × List Frame) :
    Prop where
  focus : r.2.1.Confined own
  frames : ∀ frame ∈ r.2.2, frame.Confined own sites

namespace ConfinedAbove

variable {own sites : ScopeId → Prop} {w : World} {focus : Focus} {frame : Frame}

/-- A step that leaves nothing to do but its focus. -/
theorem bare (h : focus.Confined own) : ConfinedAbove own sites (w, focus, []) :=
  ⟨h, List.forall_mem_nil _⟩

/-- A step that leaves one thing to do after its focus. -/
theorem single (h : focus.Confined own) (hframe : frame.Confined own sites) :
    ConfinedAbove own sites (w, focus, [frame]) :=
  ⟨h, List.forall_mem_singleton.mpr hframe⟩

end ConfinedAbove

namespace World

variable {own sites : ScopeId → Prop} {l : LoopRun} {s : ScopeId} (w : World)

/-! ## Loops -/

theorem enterBody_confined (h : l.Confined own) : ConfinedAbove own sites (w.enterBody l) :=
  .single ⟨h.body, h.scope⟩ h

theorem enterTest_confined (h : l.Confined own) {test : Condition} (htest : test.Local) :
    ConfinedAbove own sites (w.enterTest l test) :=
  .single ⟨htest, h.scope⟩ h

theorem iterate_confined (h : l.Confined own) : ConfinedAbove own sites (w.iterate l) := by
  obtain ⟨state, body, s, index⟩ := l
  cases state with
  | forever => exact w.enterBody_confined h
  | counted left =>
      cases left with
      | zero => exact .bare trivial
      | succ left =>
          have hnext : LoopRun.Confined own ⟨.counted left, body, s, index⟩ :=
            ⟨trivial, h.body, h.scope⟩
          exact w.enterBody_confined hnext
  | «over» targets items =>
      cases items with
      | nil => exact .bare trivial
      | cons item rest =>
          have hnext : LoopRun.Confined own ⟨.over targets rest, body, s, index⟩ :=
            ⟨trivial, h.body, h.scope⟩
          simp only [iterate]
          split
          · exact .bare trivial
          · exact enterBody_confined _ hnext
  | whilst test => exact w.enterTest_confined h h.state
  | bounded test next => exact w.enterTest_confined h h.state.1

theorem runClause_confined (h : l.Confined own) {clause : Clause} (hclause : clause.Local) :
    ConfinedAbove own sites (w.runClause l clause) := by
  cases clause with
  | command c p => exact .single ⟨hclause, h.scope⟩ h
  | assignment a =>
      simp only [runClause]
      split
      · exact .bare trivial
      · exact .bare h

theorem afterBody_confined (h : l.Confined own) : ConfinedAbove own sites (w.afterBody l) := by
  have hnext : LoopRun.Confined own { l with index := l.index + 1 } := ⟨h.state, h.body, h.scope⟩
  unfold afterBody
  dsimp only
  split
  · next test clause hstate =>
      have hlocal : (LoopState.bounded test clause).Local := hstate ▸ h.state
      exact w.runClause_confined hnext hlocal.2
  · exact .bare hnext

theorem overItems_confined {targets : List Target} {body : List Statement}
    (hbody : statementsLocal body) (hs : own s) (v : Value) :
    ConfinedAbove own sites (w.overItems targets body s v) := by
  unfold overItems
  split
  · have hloop (items : List Value) : LoopRun.Confined own ⟨.over targets items, body, s, 0⟩ :=
      ⟨trivial, hbody, hs⟩
    exact .bare (hloop _)
  · exact .bare trivial

theorem beginLoop_confined {mode : LoopMode} {body : List Statement} (hmode : mode.Local)
    (hbody : statementsLocal body) (hs : own s) :
    ConfinedAbove own sites (w.beginLoop s mode body) := by
  have hloop (state : LoopState) (hstate : state.Local) :
      LoopRun.Confined own ⟨state, body, s, 0⟩ := ⟨hstate, hbody, hs⟩
  cases mode with
  | infinite => exact .bare (hloop .forever trivial)
  | count times =>
      simp only [beginLoop]
      split
      · exact .bare (hloop (.counted _) trivial)
      · exact .bare trivial
  | whilst test => exact .bare (hloop (.whilst test) hmode)
  | bounded init test next =>
      exact w.runClause_confined (hloop (.bounded test next) hmode.2) hmode.1
  | items targets source =>
      cases source with
      | command c => exact .single ⟨hmode, hs⟩ ⟨hbody, hs⟩
      | «variable» v =>
          simp only [beginLoop]
          split
          · exact w.overItems_confined hbody hs _
          · exact .bare trivial

/-! ## Conditions and commands -/

theorem test_confined {test : Condition} (htest : test.Local) (hs : own s) :
    ConfinedAbove own sites (w.test s test) := by
  have hnegating (negated : Bool) : ∀ frame ∈ negating negated, frame.Confined own sites := by
    cases negated <;> simp [negating, Frame.Confined]
  cases test with
  | assigning negated p a rest =>
      simp only [World.test]
      split
      · exact .bare trivial
      · exact ⟨⟨htest, hs⟩, hnegating negated⟩
  | commanding negated p c rest =>
      exact ⟨⟨htest.1, hs⟩, List.forall_mem_cons.mpr ⟨⟨htest.2, hs⟩, hnegating negated⟩⟩
  | command negated p c =>
      exact ⟨⟨htest, hs⟩, List.forall_mem_cons.mpr ⟨trivial, hnegating negated⟩⟩
  | comparison negated p lhs comparison =>
      simp only [World.test]
      split <;> exact .bare trivial

theorem proceed_confined {a : ActiveCommand} (h : own a.scope) (progress : Progress) :
    (w.proceed a progress).2.Confined own := by
  cases progress with
  | waiting op => exact h
  | finished r =>
      simp only [proceed, settle]
      split
      · trivial
      · split <;> trivial

theorem callCommand_confined (c : Catalogue) (hs : own s) (cmd : Command) :
    (w.callCommand c s cmd).2.Confined own := by
  unfold callCommand
  split
  · trivial
  · next p hp =>
      obtain ⟨-, hactive, -⟩ := Catalogue.prepare_cases hp
      exact proceed_confined _ (hactive.symm ▸ hs) _

/-! ## What comes after -/

theorem afterFlow_confined {frame : Frame} (h : frame.Confined own sites) (f : Flow) :
    ConfinedAbove own sites (w.afterFlow f frame) := by
  cases frame with
  | statements p rest s =>
      cases f with
      | normal => exact .bare h
      | jump kind levels p => exact .bare trivial
  | body l =>
      cases f with
      | normal => exact w.afterBody_confined h
      | jump kind levels p =>
          simp only [afterFlow]
          split
          · exact .bare trivial
          · cases kind with
            | «break» => exact .bare trivial
            | «continue» => exact w.afterBody_confined h
  | _ => exact .bare trivial

theorem afterValue_confined {frame : Frame} (h : frame.Confined own sites) (v : Value) :
    ConfinedAbove own sites (w.afterValue v frame) := by
  cases frame with
  | commands rest s =>
      cases rest with
      | nil => exact .bare trivial
      | cons c rest =>
          obtain ⟨hcs, hs⟩ := h
          obtain ⟨hc, hrest⟩ := List.forall_mem_cons.mp hcs
          exact .single ⟨hc, hs⟩ ⟨hrest, hs⟩
  | thenTest test s => exact .bare h
  | clause l => exact .bare h
  | source targets body s => exact w.overItems_confined h.1 h.2 v
  | _ => exact .bare trivial

end World

/-! ## Scopes of their own for blocks -/

/-- Whether what a step comes to, above the frames that it left, happens in scopes that were made
inside `home` since there were `n` scopes. -/
def ConfinedSince (home : ScopeId) (n : Nat) (r : World × Focus × List Frame) : Prop :=
  ConfinedAbove (r.1.store.Inner home n) (r.1.store.Within home n) r

namespace World

variable {home s : ScopeId} {n : Nat} (w : World)

theorem choose_confined {branches : List Branch} {otherwise : Option (List Statement)}
    (hbranches : branchesLocal branches) (hotherwise : otherwiseLocal otherwise)
    (hs : w.store.Within home n s) : ConfinedSince home n (w.choose branches otherwise s) := by
  have hinner : (w.child s).1.store.Inner home n (w.child s).2 := hs.inner_addChild Record.empty
  have hsite : (w.child s).1.store.Within home n s :=
    hs.extends (w.child_changesFrom (n := 0) s).extends
  cases branches with
  | cons b others =>
      obtain ⟨test, body⟩ := b
      obtain ⟨⟨htest, hbody⟩, hothers⟩ := hbranches
      exact .single ⟨htest, hinner⟩ ⟨hbody, hinner, hothers, hotherwise, hsite⟩
  | nil =>
      cases otherwise with
      | some body => exact .bare ⟨hotherwise, hinner⟩
      | none => exact .bare trivial

/-- A block opens a scope of its own; any other statement stays in its scope. -/
theorem begin_confined {st : Statement} (hst : st.Local) (hs : w.store.Within home n s)
    (h : n ≤ s ∨ st.IsBlock) : ConfinedSince home n (w.begin s st) := by
  cases st with
  | assign a =>
      simp only [ConfinedSince, begin]
      cases w.assign .owner s a with
      | mk w failure => cases failure <;> exact .bare trivial
  | unset vs p =>
      simp only [ConfinedSince, begin]
      cases w.changeStore fun st => st.unsetAll s vs with
      | mk w failure => cases failure <;> exact .bare trivial
  | expression e p =>
      simp only [begin]
      split <;> exact .bare trivial
  | choice first others otherwise p => exact w.choose_confined ⟨hst.1, hst.2.1⟩ hst.2.2 hs
  | loop mode body p =>
      have hinner : (w.child s).1.store.Inner home n (w.child s).2 := hs.inner_addChild Record.empty
      have hext : (w.child s).1.store.Extends
          ((w.child s).1.beginLoop (w.child s).2 mode body).1.store :=
        (beginLoop_changesFrom _ (Nat.zero_le _) mode body).extends
      exact beginLoop_confined _ hst.1 hst.2 (hinner.extends hext)
  | commands cs p =>
      -- Commands are no block, so the scope is one of the new ones.
      have hown : w.store.Inner home n s := ⟨hs, h.resolve_right id⟩
      cases cs with
      | nil => exact .bare trivial
      | cons c rest =>
          obtain ⟨hc, hrest⟩ := List.forall_mem_cons.mp hst
          exact .single ⟨hc, hown⟩ ⟨hrest, hown⟩
  | jump kind levels p => exact .bare trivial

theorem afterTruth_confined {frame : Frame}
    (h : frame.Confined (w.store.Inner home n) (w.store.Within home n)) (b : Bool) :
    ConfinedSince home n (w.afterTruth b frame) := by
  cases frame with
  | branch body inner others otherwise outer =>
      obtain ⟨hbody, hinner, hothers, hotherwise, houter⟩ := h
      cases b with
      | true => exact .bare ⟨hbody, hinner⟩
      | false => exact w.choose_confined hothers hotherwise houter
  | loopTest l =>
      cases b with
      | true =>
          have hext := (w.enterBody_changesFrom (Nat.zero_le l.scope)).extends
          exact w.enterBody_confined (LoopRun.Confined.mono (fun s hs => hs.extends hext) h)
      | false => exact .bare trivial
  | _ => exact .bare trivial

/-- The body of a handler runs in a scope of its own. -/
theorem react_inner (r : Reaction) (e : Event) (h : w.store.Within r.scope n r.scope) :
    ∃ s, (w.react r e).2.thread = .start r.body s ∧ (w.react r e).1.store.Inner r.scope n s := by
  refine ⟨_, rfl, ?_⟩
  simp only [react, changeStore]
  cases r.isolated with
  | true => exact Store.inner_addRoot r.scope h.size _
  | false => exact h.inner_addChild _

end World

end TabPilot
