import TabPilot.Proofs.Run.Nesting
import TabPilot.Proofs.Script.Places

set_option autoImplicit false

/-! # Which statement a failure belongs to

A failure has the place of the statement that was executed when it arose, or of a command or
condition of that statement. `Own` says of a thread, at every point of its course, that what it
does and the frames above the innermost statement concern this statement only; a failure without a
place gets that of the statement when it passes its frame, and none after it.
-/

namespace TabPilot

/-! ## The places of what a thread does -/

/-- Where the conditions and commands stand that a loop in this state may still come to. -/
def LoopState.marks : LoopState → List Position
  | .whilst test => test.marks
  | .bounded test next => test.marks ++ next.marks
  | .forever | .counted _ | .over _ _ => []

/-- Where the conditions and commands stand that a frame may still come to in its statement. -/
def Frame.marks : Frame → List Position
  | .commands rest _ => rest.map Command.position
  | .branch _ _ others _ _ => others.flatMap fun b => b.test.marks
  | .thenTest c _ => c.marks
  | .body l | .loopTest l | .clause l => l.state.marks
  | .statements _ _ _ | .negation | .truthiness | .source _ _ _ => []

/-- Where the condition or the command stands that a thread is at. -/
def Focus.marks : Focus → List Position
  | .test c _ => c.marks
  | .call c _ => [c.position]
  | .await a _ => [a.command.position]
  | .loop l => l.state.marks
  | .run _ _ | .flow _ | .truth _ | .pause _ _ | .value _ | .failed _ => []

theorem LoopState.marks_of {state : LoopState} {mode : LoopMode} (h : state.Of mode) :
    state.marks ⊆ mode.marks := by
  cases state with
  | whilst test =>
      cases mode <;> first | exact absurd h id | (cases h; exact List.Subset.refl _)
  | bounded test next =>
      cases mode with
      | bounded init test' next' =>
          obtain ⟨rfl, rfl⟩ := h
          exact List.subset_append_right _ _
      | _ => exact absurd h id
  | _ => exact List.nil_subset _

namespace Nesting

variable {whole : List Statement} {st : Statement} {frames : List Frame} {w : World} {l : LoopRun}

/-! ## Statements that are being executed -/

/-- The statements that are still to be run at a place stand in `whole`. -/
theorem Running.subset_within {rest : List Statement} {loops : List LoopRun}
    (h : Running whole rest loops frames) : statementsWithin rest ⊆ statementsWithin whole := by
  induction h with
  | whole => exact List.Subset.refl _
  | next _ ih => exact fun s hs => ih (List.mem_append_right _ hs)
  | branch _ mem ih =>
      refine fun s hs => ih (List.mem_append_left _ (List.mem_cons_of_mem _ ?_))
      rw [← Branch.within_eq] at hs
      rw [← List.append_assoc]
      exact List.mem_append_left _ (subset_branchesWithin mem hs)
  | otherwise _ ih =>
      refine fun s hs => ih (List.mem_append_left _ (List.mem_cons_of_mem _ ?_))
      exact List.mem_append_right _ (List.mem_append_right _ hs)
  | body _ _ ih =>
      exact fun s hs => ih (List.mem_append_left _ (List.mem_cons_of_mem _ hs))

theorem Running.mem_within {rest : List Statement} {loops : List LoopRun}
    (h : Running whole (st :: rest) loops frames) : st ∈ statementsWithin whole :=
  h.subset_within (List.mem_append_left _ st.mem_within)

/-- The statement that a thread executes, the innermost one if it is inside several: it is about to
begin it; or it is inside it, with no frame of another statement above the statement's own; or the
statement is a jump that has left everything around it. -/
inductive Executing (whole : List Statement) : Statement → Thread → Prop
  | begins {st : Statement} {rest : List Statement} {loops : List LoopRun} {frames : List Frame}
      {s : ScopeId} (place : Running whole (st :: rest) loops frames) :
      Executing whole st ⟨.run (st :: rest) s, frames⟩
  | inside {st : Statement} {focus : Focus} {above frames : List Frame} {rest : List Statement}
      {loops : List LoopRun} {s : ScopeId} (place : Running whole (st :: rest) loops frames)
      (running : ∀ body s', focus ≠ .run body s')
      (innermost : ∀ frame ∈ above, ∀ p rest' s', frame ≠ .statements p rest' s') :
      Executing whole st ⟨focus, above ++ .statements st.position rest s :: frames⟩
  | strays {kind : JumpKind} {n levels : Nat} {p : Position}
      (mem : .jump kind n p ∈ statementsWithin whole) :
      Executing whole (.jump kind n p) ⟨.flow (.jump kind levels p), []⟩

theorem Executing.mem_within {t : Thread} (h : Executing whole st t) :
    st ∈ statementsWithin whole := by
  cases h with
  | begins place => exact place.mem_within
  | inside place _ _ => exact place.mem_within
  | strays mem => exact mem

/-- The frames down to that of the statement `st` concern only this statement. -/
inductive Under (whole : List Statement) (st : Statement) : List Frame → Prop
  | statement {rest : List Statement} {loops : List LoopRun} {frames : List Frame} {s : ScopeId}
      (place : Running whole (st :: rest) loops frames) :
      Under whole st (.statements st.position rest s :: frames)
  | own {frame : Frame} {frames : List Frame} (h : Under whole st frames)
      (other : ∀ p rest s, frame ≠ .statements p rest s) (marks : frame.marks ⊆ st.marks) :
      Under whole st (frame :: frames)

theorem Under.executing (h : Under whole st frames) {focus : Focus}
    (running : ∀ body s, focus ≠ .run body s) : Executing whole st ⟨focus, frames⟩ := by
  have hsplit : ∃ above rest s loops below,
      frames = above ++ .statements st.position rest s :: below ∧
        Running whole (st :: rest) loops below ∧
          ∀ frame ∈ above, ∀ p rest' s', frame ≠ .statements p rest' s' := by
    induction h with
    | @statement rest loops frames s place =>
        exact ⟨[], rest, s, loops, frames, rfl, place, List.forall_mem_nil _⟩
    | @own frame frames _ other _ ih =>
        obtain ⟨above, rest, s, loops, below, rfl, place, hall⟩ := ih
        exact ⟨frame :: above, rest, s, loops, below, rfl, place,
          List.forall_mem_cons.mpr ⟨other, hall⟩⟩
  obtain ⟨above, rest, s, loops, below, rfl, place, hall⟩ := hsplit
  exact .inside place running hall

/-- Where a jump comes from. -/
def Written (whole : List Statement) : Flow → Prop
  | .normal => True
  | .jump kind _ p => ∃ n, .jump kind n p ∈ statementsWithin whole

/-- Whether what a thread does concerns the statement `st`; a failure has no place yet, or one of
this statement. -/
def Concerns (whole : List Statement) (st : Statement) : Focus → Prop
  | .flow f => Written whole f
  | .failed e => e.kind ≠ .reading ∧ ∀ p, e.position = some p → p ∈ st.marks
  | focus => focus.marks ⊆ st.marks

/-- Whether a thread is inside `st` and inside no statement in it, and its focus concerns `st`. -/
def Own (whole : List Statement) (st : Statement) (frames : List Frame) (focus : Focus) : Prop :=
  Under whole st frames ∧ Concerns whole st focus

/-- The same of what a step comes to, above the frames that it left. -/
def OwnAbove (whole : List Statement) (st : Statement) (frames : List Frame)
    (r : World × Focus × List Frame) : Prop :=
  Own whole st (r.2.2 ++ frames) r.2.1

theorem concerns_fault (e : RunFailure) : Concerns whole st (.failed e.fault) := by
  refine ⟨?_, ?_⟩
  · intro hkind
    cases hkind
  · intro p hp
    cases hp

/-- A failure that is given a place of the statement at once. -/
theorem concerns_placed {p : Position} {e : Fault} (hkind : e.kind ≠ .reading)
    (hnone : e.position = none) (hp : p ∈ st.marks) :
    Concerns whole st (.failed (e.placed p)) := by
  refine ⟨hkind, fun q hq => ?_⟩
  rw [Fault.placed, hnone] at hq
  cases hq
  exact hp

theorem concerns_fault_placed {p : Position} (e : RunFailure) (hp : p ∈ st.marks) :
    Concerns whole st (.failed (e.fault.placed p)) :=
  concerns_placed (fun hkind => by cases hkind) rfl hp

/-! ## Loops -/

section

variable (h : Under whole st frames)
include h

theorem Under.enterBody (hmarks : l.state.marks ⊆ st.marks) :
    OwnAbove whole st frames (w.enterBody l) :=
  ⟨h.own (fun _ _ _ hne => by cases hne) hmarks, List.nil_subset _⟩

theorem Under.enterTest (hmarks : l.state.marks ⊆ st.marks) {test : Condition}
    (htest : test.marks ⊆ st.marks) : OwnAbove whole st frames (w.enterTest l test) :=
  ⟨h.own (fun _ _ _ hne => by cases hne) hmarks, htest⟩

theorem Under.iterate (hmarks : l.state.marks ⊆ st.marks) :
    OwnAbove whole st frames (w.iterate l) := by
  obtain ⟨state, body, s, index⟩ := l
  cases state with
  | forever => exact h.enterBody hmarks
  | counted left =>
      cases left with
      | zero => exact ⟨h, trivial⟩
      | succ left => exact h.enterBody (l := ⟨.counted left, body, s, index⟩) (List.nil_subset _)
  | «over» targets items =>
      cases items with
      | nil => exact ⟨h, trivial⟩
      | cons item rest =>
          simp only [World.iterate]
          split
          · exact ⟨h, concerns_fault _⟩
          · exact h.enterBody (l := ⟨.over targets rest, body, s, index⟩) (List.nil_subset _)
  | whilst test => exact h.enterTest hmarks hmarks
  | bounded test next => exact h.enterTest hmarks fun p hp => hmarks (List.mem_append_left _ hp)

theorem Under.runClause (hmarks : l.state.marks ⊆ st.marks) {clause : Clause}
    (hclause : clause.marks ⊆ st.marks) : OwnAbove whole st frames (w.runClause l clause) := by
  cases clause with
  | command c p => exact ⟨h.own (fun _ _ _ hne => by cases hne) hmarks, hclause⟩
  | assignment a =>
      rw [World.runClause]
      split
      · exact ⟨h, concerns_fault _⟩
      · exact ⟨h, hmarks⟩

theorem Under.afterBody (hmarks : l.state.marks ⊆ st.marks) :
    OwnAbove whole st frames (w.afterBody l) := by
  rw [World.afterBody]
  split
  · next hstate =>
      rw [hstate] at hmarks
      refine h.runClause ?_ fun p hp => hmarks (List.mem_append_right _ hp)
      rwa [hstate]
  · exact ⟨h, hmarks⟩

theorem Under.overItems (targets : List Target) (body : List Statement) (s : ScopeId) (v : Value) :
    OwnAbove whole st frames (w.overItems targets body s v) := by
  rw [World.overItems]
  split
  · exact ⟨h, List.nil_subset _⟩
  · exact ⟨h, concerns_fault _⟩

theorem Under.beginLoop {mode : LoopMode} (hmarks : mode.marks ⊆ st.marks) (s : ScopeId)
    (body : List Statement) : OwnAbove whole st frames (w.beginLoop s mode body) := by
  cases mode with
  | infinite => exact ⟨h, List.nil_subset _⟩
  | count times =>
      simp only [World.beginLoop]
      split
      · exact ⟨h, List.nil_subset _⟩
      · exact ⟨h, concerns_fault _⟩
  | items targets source =>
      cases source with
      | command c => exact ⟨h.own (fun _ _ _ hne => by cases hne) (List.nil_subset _), hmarks⟩
      | «variable» v =>
          simp only [World.beginLoop]
          split
          · exact h.overItems ..
          · exact ⟨h, concerns_fault _⟩
  | whilst test => exact ⟨h, hmarks⟩
  | bounded init test next =>
      obtain ⟨hinit, hrest⟩ := List.append_subset.mp hmarks
      exact h.runClause (l := ⟨.bounded test next, body, s, 0⟩) hrest hinit

/-! ## Choices and conditions -/

theorem Under.choose {left : List Branch}
    (hmarks : (left.flatMap fun b => b.test.marks) ⊆ st.marks) (otherwise : Option (List Statement))
    (s : ScopeId) : OwnAbove whole st frames (w.choose left otherwise s) := by
  cases left with
  | cons b others =>
      obtain ⟨test, body⟩ := b
      obtain ⟨htest, hothers⟩ := List.append_subset.mp hmarks
      exact ⟨h.own (fun _ _ _ hne => by cases hne) hothers, htest⟩
  | nil =>
      cases otherwise with
      | some body => exact ⟨h, List.nil_subset _⟩
      | none => exact ⟨h, trivial⟩

theorem Under.negating (negated : Bool) : Under whole st (World.negating negated ++ frames) := by
  cases negated with
  | false => exact h
  | true => exact h.own (fun _ _ _ hne => by cases hne) (List.nil_subset _)

theorem Under.test {test : Condition} (hmarks : test.marks ⊆ st.marks) (s : ScopeId) :
    OwnAbove whole st frames (w.test s test) := by
  cases test with
  | assigning negated p a rest =>
      simp only [World.test]
      split
      · exact ⟨h, concerns_fault _⟩
      · exact ⟨h.negating negated, fun q hq => hmarks (List.mem_cons_of_mem _ hq)⟩
  | commanding negated p c rest =>
      obtain ⟨-, hmarks⟩ := List.cons_subset.mp hmarks
      obtain ⟨hcommand, hrest⟩ := List.cons_subset.mp hmarks
      exact ⟨(h.negating negated).own (fun _ _ _ hne => by cases hne) hrest,
        List.cons_subset.mpr ⟨hcommand, List.nil_subset _⟩⟩
  | command negated p c =>
      obtain ⟨-, hcommand⟩ := List.cons_subset.mp hmarks
      exact ⟨(h.negating negated).own (fun _ _ _ hne => by cases hne) (List.nil_subset _), hcommand⟩
  | comparison negated p lhs comparison =>
      simp only [World.test]
      split
      · exact ⟨h, List.nil_subset _⟩
      · exact ⟨h, concerns_fault_placed _ (hmarks List.mem_cons_self)⟩

end

/-! ## Commands -/

theorem concerns_of_conclude {a : ActiveCommand} (ha : a.command.position ∈ st.marks) {w' : World}
    {r : Except Error Value} {fault : Fault} (h : w.conclude a r = (w', .error fault)) :
    Concerns whole st (.failed fault) := by
  cases r with
  | error e =>
      obtain ⟨-, heq⟩ := Prod.mk.inj h
      cases heq
      exact concerns_placed (fun hkind => by cases hkind) rfl ha
  | ok v =>
      simp only [World.conclude] at h
      split at h
      · next hstore =>
          cases h
          unfold World.storeResult at hstore
          split at hstore
          · cases hstore
          · obtain ⟨-, heq⟩ := Prod.mk.inj hstore
            obtain ⟨e, -, rfl⟩ := Option.map_eq_some_iff.mp heq
            exact concerns_fault_placed e ha
      · cases h

theorem concerns_settle {a : ActiveCommand} (ha : a.command.position ∈ st.marks)
    (r : Except Error Value) : Concerns whole st (w.settle a r).2 := by
  rw [World.settle]
  split
  · next hfault => exact concerns_of_conclude ha hfault
  · split
    · exact List.nil_subset _
    · exact List.nil_subset _

theorem concerns_proceed {a : ActiveCommand} (ha : a.command.position ∈ st.marks)
    (progress : Progress) : Concerns whole st (w.proceed a progress).2 := by
  cases progress with
  | finished r => exact concerns_settle ha r
  | waiting op => exact List.cons_subset.mpr ⟨ha, List.nil_subset _⟩

theorem command_of_prepare {c : Catalogue} {read : Path → Option Value} {s : ScopeId}
    {cmd : Command} {p : PreparedCommand} (h : c.prepare read s cmd = .ok p) :
    p.active.command = cmd := by
  obtain ⟨⟨e, name⟩, -, h⟩ := exists_of_bind_eq_ok h
  obtain ⟨argument, -, h⟩ := exists_of_bind_eq_ok h
  obtain ⟨values, -, h⟩ := exists_of_bind_eq_ok h
  dsimp only at h
  split at h
  · cases h
  · obtain ⟨target, -, h⟩ := exists_of_bind_eq_ok h
    cases h
    rfl

theorem concerns_callCommand {cmd : Command} (hcmd : cmd.position ∈ st.marks) (c : Catalogue)
    (s : ScopeId) : Concerns whole st (w.callCommand c s cmd).2 := by
  rw [World.callCommand]
  split
  · exact concerns_fault_placed _ hcmd
  · next p hprepare =>
      refine concerns_proceed ?_ _
      rwa [command_of_prepare hprepare]

/-! ## One step -/

/-- Where a thread is: it runs statements; it has failed; a jump has left everything around it, or
nothing is left to do; or it is inside a statement and at something that concerns it. -/
inductive Sited (whole : List Statement) : Thread → Prop
  | runs {body : List Statement} {s : ScopeId} {frames : List Frame} :
      Sited whole ⟨.run body s, frames⟩
  | failed {e : Fault} {frames : List Frame} : Sited whole ⟨.failed e, frames⟩
  | out {f : Flow} (written : Written whole f) : Sited whole ⟨.flow f, []⟩
  | own {st : Statement} {focus : Focus} {frames : List Frame} (h : Own whole st frames focus) :
      Sited whole ⟨focus, frames⟩

/-- What stands around statements that are being run. -/
theorem Running.exists_under {rest : List Statement} {loops : List LoopRun}
    (h : Running whole rest loops frames) : frames = [] ∨ ∃ st, Under whole st frames := by
  induction h with
  | whole => exact .inl rfl
  | next _ ih => exact ih
  | branch h _ => exact .inr ⟨_, .statement h⟩
  | otherwise h => exact .inr ⟨_, .statement h⟩
  | body h state =>
      refine .inr ⟨_, .own (.statement h) (fun _ _ _ hne => by cases hne) ?_⟩
      exact fun p hp => List.mem_cons_of_mem _ (LoopState.marks_of state hp)

theorem Running.sited {rest : List Statement} {loops : List LoopRun}
    (h : Running whole rest loops frames) {f : Flow} (written : Written whole f) :
    Sited whole ⟨.flow f, frames⟩ := by
  obtain rfl | ⟨st, hunder⟩ := h.exists_under
  · exact .out written
  · exact .own ⟨hunder, written⟩

/-- A statement that is begun. -/
theorem Running.own_begin {rest : List Statement} {loops : List LoopRun}
    (h : Running whole (st :: rest) loops frames) (s : ScopeId) :
    OwnAbove whole st (.statements st.position rest s :: frames) (w.begin s st) := by
  have hunder : Under whole st (.statements st.position rest s :: frames) := .statement h
  cases st with
  | assign a =>
      simp only [World.begin, World.ended]
      split
      · exact ⟨hunder, trivial⟩
      · exact ⟨hunder, concerns_fault _⟩
  | unset vs p =>
      simp only [World.begin, World.ended]
      split
      · exact ⟨hunder, trivial⟩
      · exact ⟨hunder, concerns_fault _⟩
  | expression e p =>
      simp only [World.begin]
      split
      · exact ⟨hunder, trivial⟩
      · exact ⟨hunder, concerns_fault _⟩
  | choice first others otherwise p => exact hunder.choose (List.subset_cons_self _ _) _ s
  | loop mode body p => exact hunder.beginLoop (List.subset_cons_self _ _) _ body
  | commands cs p =>
      cases cs with
      | nil => exact ⟨hunder, trivial⟩
      | cons c rest =>
          refine ⟨hunder.own (fun _ _ _ hne => by cases hne) fun q hq => ?_, fun q hq => ?_⟩
          · exact List.mem_cons_of_mem _ (List.mem_cons_of_mem _ hq)
          · exact List.mem_cons_of_mem _ (List.mem_singleton.mp hq ▸ List.mem_cons_self)
  | jump kind levels p => exact ⟨hunder, levels, h.mem_within⟩

/-- A body or a statement has ended inside `st`. -/
theorem Under.own_afterFlow {frame : Frame} (h : Under whole st frames)
    (marks : frame.marks ⊆ st.marks) (other : ∀ p rest s, frame ≠ .statements p rest s) {f : Flow}
    (written : Written whole f) :
    OwnAbove whole st frames (w.afterFlow f frame) := by
  cases frame with
  | statements p rest s => exact absurd rfl (other p rest s)
  | body l =>
      cases f with
      | normal => exact h.afterBody marks
      | jump kind levels p =>
          simp only [World.afterFlow]
          split
          · exact ⟨h, written⟩
          · cases kind with
            | «break» => exact ⟨h, trivial⟩
            | «continue» => exact h.afterBody marks
  | _ => exact ⟨h, written⟩

/-- A condition has been tested inside `st`. -/
theorem Under.own_afterTruth {frame : Frame} (h : Under whole st frames)
    (marks : frame.marks ⊆ st.marks) (b : Bool) :
    OwnAbove whole st frames (w.afterTruth b frame) := by
  cases frame with
  | negation => exact ⟨h, List.nil_subset _⟩
  | branch body inner others otherwise outer =>
      cases b with
      | true => exact ⟨h, List.nil_subset _⟩
      | false => exact h.choose marks _ _
  | loopTest l =>
      cases b with
      | true => exact h.enterBody marks
      | false => exact ⟨h, trivial⟩
  | _ => exact ⟨h, List.nil_subset _⟩

/-- A command has given a value inside `st`. -/
theorem Under.own_afterValue {frame : Frame} (h : Under whole st frames)
    (marks : frame.marks ⊆ st.marks) (v : Value) :
    OwnAbove whole st frames (w.afterValue v frame) := by
  cases frame with
  | commands rest s =>
      cases rest with
      | nil => exact ⟨h, trivial⟩
      | cons c rest =>
          obtain ⟨hfirst, hrest⟩ := List.cons_subset.mp marks
          exact ⟨h.own (fun _ _ _ hne => by cases hne) hrest,
            List.cons_subset.mpr ⟨hfirst, List.nil_subset _⟩⟩
  | thenTest c s => exact ⟨h, marks⟩
  | clause l => exact ⟨h, marks⟩
  | source targets body s => exact h.overItems ..
  | _ => exact ⟨h, List.nil_subset _⟩

/-- A failure belongs to the statement `st`: it has one of its places, or none as yet, and then the
thread is still inside the statement. -/
def Blames (whole : List Statement) (st : Statement) (e : Fault) (frames : List Frame) : Prop :=
  e.kind ≠ .reading ∧
    ((∃ p ∈ st.marks, e.position = some p) ∨ e.position = none ∧ Under whole st frames)

theorem Own.blames {e : Fault} (h : Own whole st frames (.failed e)) :
    Blames whole st e frames := by
  obtain ⟨hunder, hkind, hmarks⟩ := h
  refine ⟨hkind, ?_⟩
  cases hposition : e.position with
  | none => exact .inr ⟨rfl, hunder⟩
  | some p => exact .inl ⟨p, hmarks p hposition, rfl⟩

/-- A step leads from `t` to `t'`, and if it fails, the statement that `t` executes is to blame. -/
def Leads (whole : List Statement) (t t' : Thread) : Prop :=
  Sited whole t' ∧
    ∀ e, t'.focus = .failed e → ∃ st, Executing whole st t ∧ Blames whole st e t'.frames

theorem Own.leads {t : Thread} {focus : Focus} (h : Own whole st frames focus)
    (executing : Executing whole st t) : Leads whole t ⟨focus, frames⟩ := by
  refine ⟨.own h, fun e he => ⟨st, executing, ?_⟩⟩
  obtain rfl : focus = .failed e := he
  exact h.blames

/-- A step that does not fail. -/
theorem Sited.leads {t t' : Thread} (h : Sited whole t') (live : ∀ e, t'.focus ≠ .failed e) :
    Leads whole t t' :=
  ⟨h, fun e he => absurd he (live e)⟩

/-- Statements that are run. -/
theorem Running.leads {body : List Statement} {loops : List LoopRun}
    (place : Running whole body loops frames) (c : Catalogue) (w : World) (s : ScopeId) :
    Leads whole ⟨.run body s, frames⟩ (Thread.step c w ⟨.run body s, frames⟩).2 := by
  cases body with
  | nil => exact (place.sited (f := .normal) trivial).leads fun e he => by cases he
  | cons st rest => exact (place.own_begin s).leads (.begins place)

/-- A step inside a statement that is being executed. -/
theorem Own.step {focus : Focus} (h : Own whole st frames focus) (fits : Fits whole frames focus)
    (live : ∀ e, focus ≠ .failed e) (running : ∀ body s, focus ≠ .run body s) (c : Catalogue)
    (w : World) : Leads whole ⟨focus, frames⟩ (Thread.step c w ⟨focus, frames⟩).2 := by
  obtain ⟨hunder, hconcerns⟩ := h
  have hexec : Executing whole st ⟨focus, frames⟩ := hunder.executing running
  -- The statement that executes stays the same until the focus returns to its frame.
  cases focus with
  | run body s => exact absurd rfl (running body s)
  | failed e => exact absurd rfl (live e)
  | test test s => exact (hunder.test hconcerns s).leads hexec
  | loop l => exact (hunder.iterate hconcerns).leads hexec
  | call cmd s =>
      exact Own.leads ⟨hunder, concerns_callCommand (hconcerns List.mem_cons_self) c s⟩ hexec
  | await a op =>
      simp only [Thread.step]
      split
      · exact Own.leads ⟨hunder, concerns_proceed (hconcerns List.mem_cons_self) _⟩ hexec
      · exact Own.leads ⟨hunder, hconcerns⟩ hexec
  | pause stop v =>
      simp only [Thread.step]
      split
      · exact Own.leads ⟨hunder, List.nil_subset _⟩ hexec
      · exact Own.leads ⟨hunder, hconcerns⟩ hexec
  | flow f =>
      cases hunder with
      | statement place =>
          cases f with
          | normal => exact Sited.runs.leads fun e he => by cases he
          | jump kind levels p =>
              exact (place.sited (f := .jump kind levels p) hconcerns).leads
                fun e he => by cases he
      | own h other marks => exact (h.own_afterFlow marks other hconcerns).leads hexec
  | truth b =>
      cases hunder with
      | statement place => cases fits
      | own h other marks => exact (h.own_afterTruth marks b).leads hexec
  | value v =>
      cases hunder with
      | statement place => cases fits
      | own h other marks => exact (h.own_afterValue marks v).leads hexec

/-- **One step.** A thread that has not failed goes on to a place in its statements, and if it
fails, the innermost statement that it executes is to blame. -/
theorem Sited.step {t : Thread} (c : Catalogue) (w : World)
    (fits : Fits whole t.frames t.focus) (h : Sited whole t) (live : ∀ e, t.focus ≠ .failed e) :
    Leads whole t (t.step c w).2 := by
  cases h with
  | @runs body s frames =>
      obtain ⟨loops, place⟩ := fits
      exact place.leads c w s
  | failed => exact absurd rfl (live _)
  | @out f written =>
      cases f with
      | normal => exact (Sited.out (f := .normal) trivial).leads fun e he => by cases he
      | jump kind levels p =>
          obtain ⟨n, hmem⟩ := written
          refine ⟨.failed, fun e he => ⟨_, .strays hmem, ?_⟩⟩
          cases he
          exact ⟨(fun hkind => by cases hkind), .inl ⟨p, List.mem_cons_self, rfl⟩⟩
  | @own st focus frames h =>
      by_cases hruns : ∃ body s, focus = .run body s
      · obtain ⟨body, s, rfl⟩ := hruns
        obtain ⟨loops, place⟩ := fits
        exact place.leads c w s
      · exact h.step fits live (fun body s hrun => hruns ⟨body, s, hrun⟩) c w

/-- A failure on its way out stays with its statement. -/
theorem Blames.step {e : Fault} (h : Blames whole st e frames) (c : Catalogue) (w : World) :
    ∃ e' frames', (Thread.step c w ⟨.failed e, frames⟩).2 = ⟨.failed e', frames'⟩ ∧
      e'.message = e.message ∧ Blames whole st e' frames' := by
  obtain ⟨hkind, hplace⟩ := h
  cases frames with
  | nil => exact ⟨e, [], rfl, rfl, hkind, hplace⟩
  | cons frame frames =>
      refine ⟨World.afterFailure e frame, frames, rfl, ?_, ?_⟩
      · cases frame <;> rfl
      · rcases hplace with ⟨p, hp, hposition⟩ | ⟨hnone, hunder⟩
        -- The first place stays.
        · cases frame with
          | statements q rest s =>
              refine ⟨hkind, .inl ⟨p, hp, ?_⟩⟩
              show e.position.or (some q) = some p
              rw [hposition]
              rfl
          | _ => exact ⟨hkind, .inl ⟨p, hp, hposition⟩⟩
        · cases hunder with
          | statement place =>
              refine ⟨hkind, .inl ⟨_, st.position_mem_marks, ?_⟩⟩
              show e.position.or (some st.position) = some st.position
              rw [hnone]
              rfl
          | own hunder other marks =>
              cases frame with
              | statements q rest s => exact absurd rfl (other q rest s)
              | _ => exact ⟨hkind, .inr ⟨hnone, hunder⟩⟩

end Nesting

/-! ## The whole course -/

/-- How a run that was begun with `t` in the world `w` came to fail: at some point the thread, which
had not failed, took a step and failed, and then the run went on to `t'` in the world `w'`. At
that point the innermost statement being executed was `st`, one of `whole`. -/
def Thread.ArisesIn (c : Catalogue) (others : World → World → Prop) (whole : List Statement)
    (w : World) (t : Thread) (w' : World) (t' : Thread) (st : Statement) (message : String) :
    Prop :=
  ∃ w₁ t₁ e, Reaches c others (fun _ => True) w t w₁ t₁ ∧ (∀ f, t₁.focus ≠ .failed f) ∧
    Nesting.Executing whole st t₁ ∧ (t₁.step c w₁).2.focus = .failed e ∧ e.message = message ∧
      Reaches c others (fun _ => True) (t₁.step c w₁).1 (t₁.step c w₁).2 w' t'

namespace Thread

variable {c : Catalogue} {others : World → World → Prop} {whole : List Statement} {s : ScopeId}
variable {w w' : World} {t' : Thread}

theorem Reaches.sited (h : Reaches c others (fun _ => True) w (.start whole s) w' t') :
    Nesting.Sited whole t' ∧ ∀ e, t'.focus = .failed e →
      ∃ st, ArisesIn c others whole w (.start whole s) w' t' st e.message ∧
        Nesting.Blames whole st e t'.frames := by
  induction h with
  | here => exact ⟨.runs, fun e he => by cases he⟩
  | @step w' t' h on ih =>
      obtain ⟨hsited, hblames⟩ := ih
      by_cases hfailed : ∃ e, t'.focus = .failed e
      -- The failure was there before the step.
      · obtain ⟨e, he⟩ := hfailed
        obtain ⟨st, ⟨w₁, t₁, e₁, hbefore, hlive, hexec, hfail, hmessage, hafter⟩, hblame⟩ :=
          hblames e he
        obtain ⟨e', frames', hstep, hsame, hblame'⟩ := hblame.step c w'
        have hthread : t' = ⟨.failed e, t'.frames⟩ := by rw [← he]
        rw [← hthread] at hstep
        rw [hstep]
        refine ⟨.failed, fun e'' he'' => ⟨st, ?_, ?_⟩⟩
        · cases he''
          refine ⟨w₁, t₁, e₁, hbefore, hlive, hexec, hfail, hmessage.trans hsame.symm, ?_⟩
          exact hstep ▸ hafter.step trivial
        · cases he''
          exact hblame'
      -- The step itself fails.
      · have hlive : ∀ e, t'.focus ≠ .failed e := fun e he => hfailed ⟨e, he⟩
        obtain ⟨hnext, hfails⟩ := hsited.step c w' h.fits hlive
        refine ⟨hnext, fun e he => ?_⟩
        obtain ⟨st, hexec, hblame⟩ := hfails e he
        exact ⟨st, ⟨w', t', e, h, hlive, hexec, he, rfl, .here⟩, hblame⟩
  | meanwhile h change ih =>
      obtain ⟨hsited, hblames⟩ := ih
      refine ⟨hsited, fun e he => ?_⟩
      obtain ⟨st, ⟨w₁, t₁, e₁, hbefore, hlive, hexec, hfail, hmessage, hafter⟩, hblame⟩ :=
        hblames e he
      exact ⟨st, ⟨w₁, t₁, e₁, hbefore, hlive, hexec, hfail, hmessage, hafter.meanwhile change⟩,
        hblame⟩

/-- A run that has failed: the fault has a place of the statement that was executed. -/
theorem Reaches.exists_place {fault : Fault}
    (h : Reaches c others (fun _ => True) w (.start whole s) w' t')
    (hresult : t'.result? = some (.error fault)) :
    ∃ st p, ArisesIn c others whole w (.start whole s) w' t' st fault.message ∧
      fault.kind ≠ .reading ∧ fault.position = some p ∧ p ∈ st.marks := by
  obtain ⟨focus, frames⟩ := t'
  have hend : focus = .failed fault ∧ frames = [] := by
    unfold result? at hresult
    split at hresult
    · cases hresult
    · cases hresult
      exact ⟨‹_›, ‹_›⟩
    · cases hresult
  obtain ⟨rfl, rfl⟩ := hend
  obtain ⟨st, harises, hkind, hplace⟩ := h.sited.2 fault rfl
  rcases hplace with ⟨p, hp, hposition⟩ | ⟨-, hunder⟩
  · exact ⟨st, p, harises, hkind, hposition, hp⟩
  · cases hunder

end Thread

namespace Script

theorem thread_of_beginScript {w₀ w : World} {script : Script} {home : ScopeId} {o : RunOptions}
    {run : ScriptRun} (h : w₀.beginScript script home o = (w, .ok run)) :
    run.thread = .start script.statements home := by
  unfold World.beginScript at h
  dsimp only at h
  split at h
  · cases h
    rfl
  · split at h
    · cases h
    · split at h
      · cases h
        rfl
      · cases h

/-- What the end of a failed run reports, in the script as it was read. -/
theorem exists_place_of_endScript {source : String} {script : Script}
    (hparse : parse source = .ok script) {c : Catalogue} {others : World → World → Prop}
    {w₀ w w' : World} {home : ScopeId} {o : RunOptions} {run : ScriptRun} {t' : Thread}
    {outcome : Except Fault Unit} {e : Error} (hbegin : w₀.beginScript script home o = (w, .ok run))
    (h : Thread.Reaches c others (fun _ => True) w run.thread w' t')
    (hresult : t'.result? = some outcome) (hend : (w'.endScript run outcome).2 = .error e) :
    ∃ fault st p, e = .script fault ∧ fault.kind ≠ .reading ∧ fault.position = some p ∧
      p ∈ st.marks ∧ script.everyStatement.filter (fun s => p ∈ s.marks) = [st] ∧
        Thread.ArisesIn c others script.statements w run.thread w' t' st fault.message := by
  rw [thread_of_beginScript hbegin] at h ⊢
  cases outcome with
  | ok done => cases hend
  | error fault =>
      obtain ⟨st, p, harises, hkind, hposition, hp⟩ := h.exists_place hresult
      cases hend
      refine ⟨_, st, p, rfl, hkind, hposition, hp, ?_, harises⟩
      obtain ⟨w₁, t₁, e₁, -, -, hexec, -⟩ := harises
      exact filter_eq_singleton (apart_of_parse hparse)
        (List.mem_append_left _ hexec.mem_within) hp

/-- **Where faults point.** A text that is no script is refused with a syntax error at one of its
characters or at its end. A run of a script that fails, whatever others do to the world meanwhile,
reports another error, at a place of the innermost statement that was executed when it arose; no
other statement of the script has that place. -/
theorem faults_point_into_script :
    (∀ (source : String) (fault : Fault), parse source = .error fault →
      fault.kind = .reading ∧
        ∃ k ≤ source.toList.length, fault.position = some (positionAt source.toList k)) ∧
    ∀ (source : String) (script : Script), parse source = .ok script →
      ∀ (c : Catalogue) (others : World → World → Prop) (w₀ w w' : World) (home : ScopeId)
        (o : RunOptions) (run : ScriptRun) (t' : Thread) (outcome : Except Fault Unit) (e : Error),
        w₀.beginScript script home o = (w, .ok run) →
        Thread.Reaches c others (fun _ => True) w run.thread w' t' →
        t'.result? = some outcome → (w'.endScript run outcome).2 = .error e →
        ∃ fault st p, e = .script fault ∧ fault.kind ≠ .reading ∧ fault.position = some p ∧
          p ∈ st.marks ∧ script.everyStatement.filter (fun s => p ∈ s.marks) = [st] ∧
            Thread.ArisesIn c others script.statements w run.thread w' t' st fault.message :=
  ⟨fun _ _ h => exists_offset_of_parse h,
    fun _ _ hparse _ _ _ _ _ _ _ _ _ _ _ hbegin h hresult hend =>
      exists_place_of_endScript hparse hbegin h hresult hend⟩

/-- A sign before what has none, in a branch. -/
def signSource : String := "if true \x7b\n  -null\n\x7d"

def signScript : Script :=
  ⟨[.choice (.mk (.comparison false ⟨1, 4⟩ (.literal (.bool true)) none)
    [.expression (.negate (.literal .null)) ⟨2, 3⟩]) [] none ⟨1, 1⟩], [], signSource, none⟩

theorem parse_signSource : parse signSource = .ok signScript := by cbv

/-- The world before a script: one scope and nothing else. -/
def plainWorld : World := { World.empty with store := ⟨#[⟨Record.empty, []⟩]⟩ }

/-- A name that is missing, and a sign that fails inside a branch: the place is that of the inner
statement. -/
theorem faults_point_into_script_sign :
    (∃ fault, parse "$" = .error fault ∧ fault.kind = .reading ∧
      ∃ k ≤ "$".toList.length, fault.position = some (positionAt "$".toList k)) ∧
    ∃ run w' t' fault, plainWorld.beginScript signScript 0 ⟨false, none⟩ = (plainWorld, .ok run) ∧
      Thread.Reaches .standard (fun _ _ => True) (fun _ => True) plainWorld run.thread w' t' ∧
      t'.result? = some (.error fault) ∧ fault.position = some ⟨2, 3⟩ ∧
      ∃ reported st p, (w'.endScript run (.error fault)).2 = .error (.script reported) ∧
        reported.position = some p ∧ p ∈ st.marks ∧
          signScript.everyStatement.filter (fun s => p ∈ s.marks) = [st] := by
  refine ⟨?_, ?_⟩
  · have hscan : Token.scan "$".toList = .error ⟨.noVariableName, ⟨1, 2⟩⟩ := by cbv
    have hread : parse "$" =
        .error ⟨.reading, "Expected variable name", some ⟨1, 2⟩, none, some "$"⟩ := by
      unfold parse Script.read
      rw [hscan]
      rfl
    exact ⟨_, hread, faults_point_into_script.1 _ _ hread⟩
  · have hreach : ∃ w', Thread.Reaches .standard (fun _ _ => True) (fun _ => True) plainWorld
        (.start signScript.statements 0) w'
          ⟨.failed ((RunFailure.badSign "null").fault.placed ⟨2, 3⟩), []⟩ :=
      ⟨_, .step (.step (.step (.step (.step (.step .here trivial) trivial) trivial) trivial)
        trivial) trivial⟩
    obtain ⟨w', h⟩ := hreach
    obtain ⟨reported, st, p, he, -, hposition, hp, honly, -⟩ :=
      faults_point_into_script.2 _ _ parse_signSource .standard (fun _ _ => True) plainWorld
        plainWorld w' 0 ⟨false, none⟩ _ _ _ _ rfl h rfl rfl
    exact ⟨_, w', _, _, rfl, h, rfl, rfl, reported, st, p, congrArg _ he, hposition, hp, honly⟩

end Script

end TabPilot
