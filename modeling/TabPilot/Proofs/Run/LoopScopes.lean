import TabPilot.Proofs.Run.Blocks

set_option autoImplicit false

/-! # Every loop has a scope of its own

The loops that a thread is in are nested, and each has its own scope, made after the scopes of the
loops around it (`Thread.LoopsApart`). A step leaves loops or goes on with them, in their scopes;
only the step that begins a loop brings one with a new scope (`Thread.step_loopScopes`).
-/

namespace TabPilot

def Focus.loopScope? : Focus → Option ScopeId
  | .loop l => some l.scope
  | _ => none

def Frame.loopScope? : Frame → Option ScopeId
  | .body l | .loopTest l | .clause l => some l.scope
  | .source _ _ s => some s
  | _ => none

def Focus.loopScopes (focus : Focus) (frames : List Frame) : List ScopeId :=
  focus.loopScope?.toList ++ frames.filterMap Frame.loopScope?

def Thread.loopScopes (t : Thread) : List ScopeId := t.focus.loopScopes t.frames

namespace World

variable (w : World)

/-- Whether what a step comes to is in no other loops than those with the given scopes. -/
def LoopsIn (scopes : List ScopeId) (r : World × Focus × List Frame) : Prop :=
  (r.2.1.loopScopes r.2.2).Sublist scopes

/-! ## Loops -/

theorem iterate_loopsIn (l : LoopRun) : LoopsIn [l.scope] (w.iterate l) := by
  unfold iterate
  split
  · exact .refl _
  · exact List.nil_sublist _
  · exact .refl _
  · exact List.nil_sublist _
  · split
    · exact List.nil_sublist _
    · exact .refl _
  · exact .refl _
  · exact .refl _

theorem runClause_loopsIn (l : LoopRun) (clause : Clause) :
    LoopsIn [l.scope] (w.runClause l clause) := by
  cases clause with
  | command c p => exact .refl _
  | assignment a =>
      simp only [runClause]
      split
      · exact List.nil_sublist _
      · exact .refl _

theorem afterBody_loopsIn (l : LoopRun) : LoopsIn [l.scope] (w.afterBody l) := by
  simp only [afterBody]
  split
  · exact w.runClause_loopsIn { l with index := l.index + 1 } _
  · exact .refl _

theorem overItems_loopsIn (targets : List Target) (body : List Statement) (s : ScopeId)
    (v : Value) : LoopsIn [s] (w.overItems targets body s v) := by
  unfold overItems
  split
  · exact .refl _
  · exact List.nil_sublist _

theorem beginLoop_loopsIn (s : ScopeId) (mode : LoopMode) (body : List Statement) :
    LoopsIn [s] (w.beginLoop s mode body) := by
  cases mode with
  | infinite | whilst test => exact .refl _
  | count times =>
      simp only [beginLoop]
      split
      · exact .refl _
      · exact List.nil_sublist _
  | bounded init test next => exact w.runClause_loopsIn ⟨.bounded test next, body, s, 0⟩ init
  | items targets source =>
      cases source with
      | command c => exact .refl _
      | «variable» v =>
          simp only [beginLoop]
          split
          · exact w.overItems_loopsIn targets body s _
          · exact List.nil_sublist _

/-! ## Other statements -/

theorem choose_loopsIn (branches : List Branch) (otherwise : Option (List Statement))
    (s : ScopeId) : LoopsIn [] (w.choose branches otherwise s) := by
  unfold choose
  split <;> exact .refl _

theorem size_lt_begin_loop (s : ScopeId) (mode : LoopMode) (body : List Statement)
    (p : Position) :
    w.store.scopes.size < (w.begin s (.loop mode body p)).1.store.scopes.size := by
  have hchild : (w.child s).1.store.scopes.size = w.store.scopes.size + 1 := by
    simp [child, changeStore, Store.addChild, Store.add]
  have hbegun :=
    (beginLoop_changesFrom (w.child s).1 (Nat.zero_le (w.child s).2) mode body).extends.size
  exact Nat.lt_of_lt_of_le (hchild ▸ Nat.lt_succ_self _) hbegun

/-- A loop that begins has a scope that was not there before. -/
theorem begin_loopsIn (s : ScopeId) (st : Statement) :
    LoopsIn [] (w.begin s st) ∨
      LoopsIn [w.store.scopes.size] (w.begin s st) ∧
        w.store.scopes.size < (w.begin s st).1.store.scopes.size := by
  cases st with
  | assign a =>
      left
      simp only [begin]
      cases w.assign .owner s a with
      | mk w failure => cases failure <;> exact .refl _
  | unset vs p =>
      left
      simp only [begin]
      cases w.changeStore fun st => st.unsetAll s vs with
      | mk w failure => cases failure <;> exact .refl _
  | expression e p =>
      left
      simp only [begin]
      split <;> exact .refl _
  | choice first others otherwise p => exact .inl (w.choose_loopsIn _ _ s)
  | loop mode body p =>
      exact .inr ⟨beginLoop_loopsIn _ _ mode body, w.size_lt_begin_loop s mode body p⟩
  | commands cs p => cases cs <;> exact .inl (.refl _)
  | jump kind levels p => exact .inl (.refl _)

/-! ## Conditions and commands -/

theorem test_loopsIn (s : ScopeId) (test : Condition) : LoopsIn [] (w.test s test) := by
  cases test with
  | assigning negated p a rest =>
      simp only [World.test]
      split
      · exact .refl _
      · cases negated <;> exact .refl _
  | commanding negated p c rest => cases negated <;> exact .refl _
  | command negated p c => cases negated <;> exact .refl _
  | comparison negated p lhs comparison =>
      simp only [World.test]
      split <;> exact .refl _

theorem proceed_loopScope? (a : ActiveCommand) (progress : Progress) :
    (w.proceed a progress).2.loopScope? = none := by
  cases progress with
  | waiting op => rfl
  | finished r =>
      simp only [proceed, settle]
      split
      · rfl
      · split <;> rfl

theorem callCommand_loopScope? (c : Catalogue) (s : ScopeId) (cmd : Command) :
    (w.callCommand c s cmd).2.loopScope? = none := by
  unfold callCommand
  split
  · rfl
  · exact proceed_loopScope? _ _ _

/-! ## What comes after -/

theorem afterFlow_loopsIn (f : Flow) (frame : Frame) :
    LoopsIn frame.loopScope?.toList (w.afterFlow f frame) := by
  cases frame with
  | statements p rest s => cases f <;> exact .refl _
  | body l =>
      cases f with
      | normal => exact w.afterBody_loopsIn l
      | jump kind levels p =>
          simp only [afterFlow]
          split
          · exact List.nil_sublist _
          · cases kind with
            | «break» => exact List.nil_sublist _
            | «continue» => exact w.afterBody_loopsIn l
  | _ => exact List.nil_sublist _

theorem afterTruth_loopsIn (b : Bool) (frame : Frame) :
    LoopsIn frame.loopScope?.toList (w.afterTruth b frame) := by
  cases frame with
  | branch body inner others otherwise outer =>
      cases b with
      | true => exact .refl _
      | false => exact w.choose_loopsIn others otherwise outer
  | loopTest l =>
      cases b with
      | true => exact .refl _
      | false => exact List.nil_sublist _
  | _ => exact List.nil_sublist _

theorem afterValue_loopsIn (v : Value) (frame : Frame) :
    LoopsIn frame.loopScope?.toList (w.afterValue v frame) := by
  cases frame with
  | commands rest s => cases rest <;> exact .refl _
  | source targets body s => exact w.overItems_loopsIn targets body s v
  | clause l => exact .refl _
  | _ => exact List.nil_sublist _

/-- A step that leaves frames in loops above frames in loops. -/
theorem LoopsIn.after {scopes : List ScopeId} {r : World × Focus × List Frame}
    (h : LoopsIn scopes r) (frames : List Frame) :
    (Thread.after frames r).2.loopScopes.Sublist
      (scopes ++ frames.filterMap Frame.loopScope?) := by
  have hscopes : (Thread.after frames r).2.loopScopes =
      r.2.1.loopScopes r.2.2 ++ frames.filterMap Frame.loopScope? := by
    simp [Thread.loopScopes, Focus.loopScopes, Thread.after]
  rw [hscopes]
  exact List.Sublist.append h (.refl _)

end World

/-! ## Threads -/

namespace Thread

theorem loopScopes_of_none {focus : Focus} (h : focus.loopScope? = none) (frames : List Frame) :
    loopScopes ⟨focus, frames⟩ = frames.filterMap Frame.loopScope? := by
  rw [loopScopes, Focus.loopScopes, h]
  rfl

theorem loopScopes_cons {focus : Focus} (h : focus.loopScope? = none) (frame : Frame)
    (frames : List Frame) :
    loopScopes ⟨focus, frame :: frames⟩ =
      frame.loopScope?.toList ++ frames.filterMap Frame.loopScope? := by
  rw [loopScopes_of_none h, List.filterMap_cons]
  cases frame.loopScope? <;> rfl

theorem loopScopes_sublist {focus' : Focus} (h : focus'.loopScope? = none) (focus : Focus)
    (frames : List Frame) :
    (loopScopes ⟨focus', frames⟩).Sublist (loopScopes ⟨focus, frames⟩) := by
  rw [loopScopes_of_none h]
  exact List.sublist_append_right _ _

/-- **One step** leaves loops or goes on with them, or begins one in a new scope. -/
theorem step_loopScopes (c : Catalogue) (w : World) (t : Thread) :
    (t.step c w).2.loopScopes.Sublist t.loopScopes ∨
      (t.step c w).2.loopScopes.Sublist (w.store.scopes.size :: t.loopScopes) ∧
        w.store.scopes.size < (t.step c w).1.store.scopes.size := by
  obtain ⟨focus, frames⟩ := t
  -- Only a statement that begins can add a loop; every other step keeps the loops or ends some.
  cases focus with
  | run body s =>
      cases body with
      | nil => exact .inl (.refl _)
      | cons st rest =>
          rcases w.begin_loopsIn s st with h | ⟨h, hsize⟩
          · exact .inl (h.after _)
          · exact .inr ⟨h.after _, hsize⟩
  | test test s => exact .inl ((w.test_loopsIn s test).after frames)
  | loop l => exact .inl ((w.iterate_loopsIn l).after frames)
  | call cmd s => exact .inl (loopScopes_sublist (w.callCommand_loopScope? c s cmd) _ frames)
  | await a op =>
      left
      simp only [step]
      split
      · next w' progress _ =>
          exact loopScopes_sublist (w'.proceed_loopScope? a progress) _ frames
      · exact .refl _
  | pause stop v =>
      left
      simp only [step]
      split <;> exact .refl _
  | flow f =>
      cases frames with
      | nil => cases f <;> exact .inl (.refl _)
      | cons frame frames =>
          left
          rw [loopScopes_cons rfl]
          exact (w.afterFlow_loopsIn f frame).after frames
  | truth b =>
      cases frames with
      | nil => exact .inl (.refl _)
      | cons frame frames =>
          left
          rw [loopScopes_cons rfl]
          exact (w.afterTruth_loopsIn b frame).after frames
  | value v =>
      cases frames with
      | nil => exact .inl (.refl _)
      | cons frame frames =>
          left
          rw [loopScopes_cons rfl]
          exact (w.afterValue_loopsIn v frame).after frames
  | failed e =>
      cases frames with
      | nil => exact .inl (.refl _)
      | cons frame frames =>
          left
          rw [loopScopes_cons rfl]
          exact List.sublist_append_right _ _

/-- Whether the loops that a thread is in have scopes of their own, each made before those of the
loops inside it. -/
structure LoopsApart (w : World) (t : Thread) : Prop where
  nested : t.loopScopes.Pairwise (· > ·)
  there : ∀ s ∈ t.loopScopes, s < w.store.scopes.size

variable {w w' : World} {t t' : Thread}

theorem LoopsApart.keeps (h : t.LoopsApart w) (keeps : w.KeepsScopes w') : t.LoopsApart w' :=
  ⟨h.nested, fun s hs => Nat.lt_of_lt_of_le (h.there s hs) keeps.size⟩

theorem LoopsApart.step (h : t.LoopsApart w) :
    (t.step .standard w).2.LoopsApart (t.step .standard w).1 := by
  have hsize := (t.step_extends w).size
  rcases t.step_loopScopes .standard w with hsub | ⟨hsub, hnew⟩
  · exact ⟨h.nested.sublist hsub, fun s hs => Nat.lt_of_lt_of_le (h.there s (hsub.subset hs)) hsize⟩
  · have hnested := List.pairwise_cons.mpr ⟨h.there, h.nested⟩
    refine ⟨hnested.sublist hsub, fun s hs => ?_⟩
    rcases List.mem_cons.mp (hsub.subset hs) with rfl | hs
    · exact hnew
    · exact Nat.lt_of_lt_of_le (h.there s hs) hsize

/-- **The whole course.** -/
theorem Reaches.loopsApart {going : Thread → Prop} {whole : List Statement} {s : ScopeId}
    (h : Reaches .standard World.KeepsScopes going w (.start whole s) w' t') :
    t'.LoopsApart w' :=
  h.keeps ⟨.nil, nofun⟩ (fun _ _ _ happart => happart.step)
    fun _ _ _ hkeeps happart => happart.keeps hkeeps

end Thread

end TabPilot
