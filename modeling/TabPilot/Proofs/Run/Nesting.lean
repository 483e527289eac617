import TabPilot.Proofs.Run.Course

set_option autoImplicit false

/-! # Where a thread is in its statements

What a thread does and has still to do tells where it is in the statements it was started with.
`Running` says this of a thread that runs statements: at which place they stand, and which loops
are around them. `Fits` extends it to everything that a thread does, and `Reaches.fits` says that
a thread fits its statements in its whole course, whatever others do to the world.
-/

namespace TabPilot

/-- Whether a loop with this header can be in this state. -/
def LoopState.Of : LoopState → LoopMode → Prop
  | .forever, .infinite => True
  | .counted _, .count _ => True
  | .over targets _, .items targets' _ => targets = targets'
  | .whilst test, .whilst test' => test = test'
  | .bounded test next, .bounded _ test' next' => test = test' ∧ next = next'
  | _, _ => False

namespace Nesting

/-- `Running whole rest loops frames`: the statements `rest` are an end of a body that stands in
`whole` inside the loops `loops`, innermost first, and a thread that runs them has `frames` still
to do after them. -/
inductive Running (whole : List Statement) : List Statement → List LoopRun → List Frame → Prop
  | whole : Running whole whole [] []
  | next {st : Statement} {rest : List Statement} {loops : List LoopRun} {frames : List Frame}
      (h : Running whole (st :: rest) loops frames) : Running whole rest loops frames
  | branch {first b : Branch} {others : List Branch} {otherwise : Option (List Statement)}
      {p : Position} {rest : List Statement} {loops : List LoopRun} {frames : List Frame}
      {s : ScopeId} (h : Running whole (.choice first others otherwise p :: rest) loops frames)
      (mem : b ∈ first :: others) :
      Running whole b.body loops (.statements p rest s :: frames)
  | otherwise {first : Branch} {others : List Branch} {body : List Statement}
      {p : Position} {rest : List Statement} {loops : List LoopRun} {frames : List Frame}
      {s : ScopeId} (h : Running whole (.choice first others (some body) p :: rest) loops frames) :
      Running whole body loops (.statements p rest s :: frames)
  | body {mode : LoopMode} {l : LoopRun} {p : Position} {rest : List Statement}
      {loops : List LoopRun} {frames : List Frame} {s : ScopeId}
      (h : Running whole (.loop mode l.body p :: rest) loops frames) (state : l.state.Of mode) :
      Running whole l.body (l :: loops) (.body l :: .statements p rest s :: frames)

/-! ## What has still to be done

The frames that may lie under a body or a statement, a loop, a choice, a condition or a command,
each at its place in `whole`.
-/

/-- What is to be done after a loop. -/
inductive Looping (whole : List Statement) (l : LoopRun) : List Frame → Prop
  | mk {mode : LoopMode} {p : Position} {rest : List Statement} {loops : List LoopRun}
      {frames : List Frame} {s : ScopeId}
      (h : Running whole (.loop mode l.body p :: rest) loops frames) (state : l.state.Of mode) :
      Looping whole l (.statements p rest s :: frames)

/-- What is to be done after a body or a statement. -/
inductive Returning (whole : List Statement) : List Frame → Prop
  | whole : Returning whole []
  | statements {st : Statement} {rest : List Statement} {loops : List LoopRun}
      {frames : List Frame} {s : ScopeId} (h : Running whole (st :: rest) loops frames) :
      Returning whole (.statements st.position rest s :: frames)
  | body {l : LoopRun} {frames : List Frame} (h : Looping whole l frames) :
      Returning whole (.body l :: frames)

/-- What is to be done after a choice that still has these branches. -/
inductive Choosing (whole : List Statement) (left : List Branch)
    (otherwise : Option (List Statement)) : List Frame → Prop
  | mk {first : Branch} {others : List Branch} {p : Position} {rest : List Statement}
      {loops : List LoopRun} {frames : List Frame} {s : ScopeId}
      (h : Running whole (.choice first others otherwise p :: rest) loops frames)
      (sub : left ⊆ first :: others) :
      Choosing whole left otherwise (.statements p rest s :: frames)

/-- What is to be done after a condition. -/
inductive Testing (whole : List Statement) : List Frame → Prop
  | branch {b : Branch} {inner outer : ScopeId} {others : List Branch}
      {otherwise : Option (List Statement)} {frames : List Frame}
      (h : Choosing whole (b :: others) otherwise frames) :
      Testing whole (.branch b.body inner others otherwise outer :: frames)
  | loop {l : LoopRun} {frames : List Frame} (h : Looping whole l frames) :
      Testing whole (.loopTest l :: frames)
  | negation {frames : List Frame} (h : Testing whole frames) :
      Testing whole (.negation :: frames)

/-- What is to be done after a command. -/
inductive Calling (whole : List Statement) : List Frame → Prop
  | commands {rest : List Command} {s : ScopeId} {frames : List Frame}
      (h : Returning whole frames) : Calling whole (.commands rest s :: frames)
  | thenTest {test : Condition} {s : ScopeId} {frames : List Frame} (h : Testing whole frames) :
      Calling whole (.thenTest test s :: frames)
  | truthiness {frames : List Frame} (h : Testing whole frames) :
      Calling whole (.truthiness :: frames)
  | clause {l : LoopRun} {frames : List Frame} (h : Looping whole l frames) :
      Calling whole (.clause l :: frames)
  | source {targets : List Target} {source : LoopSource} {body : List Statement} {p : Position}
      {rest : List Statement} {loops : List LoopRun} {frames : List Frame} {s s' : ScopeId}
      (h : Running whole (.loop (.items targets source) body p :: rest) loops frames) :
      Calling whole (.source targets body s :: .statements p rest s' :: frames)

/-- Whether a focus and the frames under it are at a place in `whole`. -/
def Fits (whole : List Statement) (frames : List Frame) : Focus → Prop
  | .run body _ => ∃ loops, Running whole body loops frames
  | .flow _ => Returning whole frames
  | .test _ _ | .truth _ => Testing whole frames
  | .call _ _ | .await _ _ | .pause _ _ | .value _ => Calling whole frames
  | .loop l => Looping whole l frames
  | .failed _ => True

/-- Whether what a step comes to, above the frames that it left, is at a place in `whole`. -/
def FitsAbove (whole : List Statement) (frames : List Frame) (r : World × Focus × List Frame) :
    Prop :=
  Fits whole (r.2.2 ++ frames) r.2.1

variable {whole : List Statement} {frames : List Frame} {w : World} {l : LoopRun}

theorem Running.returning {rest : List Statement} {loops : List LoopRun}
    (h : Running whole rest loops frames) : Returning whole frames := by
  induction h with
  | whole => exact .whole
  | next _ ih => exact ih
  | branch h _ => exact .statements h
  | otherwise h => exact .statements h
  | body h state => exact .body (.mk h state)

/-! ## Loops -/

/-- A loop in another run of its body, or in another of its states, stands where it stood. -/
theorem Looping.other {l' : LoopRun} (h : Looping whole l frames) (hbody : l'.body = l.body)
    (hstate : ∀ mode, l.state.Of mode → l'.state.Of mode) : Looping whole l' frames := by
  obtain ⟨h, state⟩ := h
  exact .mk (hbody ▸ h) (hstate _ state)

theorem Looping.returning (h : Looping whole l frames) : Returning whole frames := by
  obtain ⟨h, -⟩ := h
  exact .statements h

theorem Looping.enterBody (h : Looping whole l frames) :
    FitsAbove whole frames (w.enterBody l) := by
  obtain ⟨h, state⟩ := h
  exact ⟨_, .body h state⟩

theorem Looping.enterTest (h : Looping whole l frames) (test : Condition) :
    FitsAbove whole frames (w.enterTest l test) :=
  Testing.loop h

theorem Looping.runClause (h : Looping whole l frames) (clause : Clause) :
    FitsAbove whole frames (w.runClause l clause) := by
  cases clause with
  | command c p => exact Calling.clause h
  | assignment a =>
      rw [World.runClause]
      split
      · trivial
      · exact h

theorem Looping.iterate (h : Looping whole l frames) :
    FitsAbove whole frames (w.iterate l) := by
  obtain ⟨state, body, s, index⟩ := l
  cases state with
  | forever => exact h.enterBody
  | counted left =>
      cases left with
      | zero => exact h.returning
      | succ left =>
          have hnext : Looping whole ⟨.counted left, body, s, index⟩ frames :=
            h.other rfl fun mode hs => by cases mode <;> exact hs
          exact hnext.enterBody
  | «over» targets items =>
      cases items with
      | nil => exact h.returning
      | cons item rest =>
          have hnext : Looping whole ⟨.over targets rest, body, s, index⟩ frames :=
            h.other rfl fun mode hs => by cases mode <;> exact hs
          simp only [World.iterate]
          split
          · trivial
          · exact hnext.enterBody
  | whilst test => exact h.enterTest test
  | bounded test next => exact h.enterTest test

theorem Looping.afterBody (h : Looping whole l frames) :
    FitsAbove whole frames (w.afterBody l) := by
  have hnext : Looping whole { l with index := l.index + 1 } frames := h.other rfl fun _ hs => hs
  rw [World.afterBody]
  split
  · exact hnext.runClause _
  · exact hnext

/-- A loop over items, once they are known. -/
theorem Running.overItems {targets : List Target} {source : LoopSource} {body : List Statement}
    {p : Position} {rest : List Statement} {loops : List LoopRun} {s s' : ScopeId}
    (h : Running whole (.loop (.items targets source) body p :: rest) loops frames) (v : Value) :
    FitsAbove whole (.statements p rest s :: frames) (w.overItems targets body s' v) := by
  rw [World.overItems]
  split
  · exact Looping.mk (l := ⟨_, body, _, _⟩) h rfl
  · trivial

theorem Running.beginLoop {mode : LoopMode} {body : List Statement} {p : Position}
    {rest : List Statement} {loops : List LoopRun} {s : ScopeId}
    (h : Running whole (.loop mode body p :: rest) loops frames) (inner : ScopeId) :
    FitsAbove whole (.statements p rest s :: frames) (w.beginLoop inner mode body) := by
  cases mode with
  | infinite => exact Looping.mk (l := ⟨.forever, body, _, _⟩) h trivial
  | count times =>
      simp only [World.beginLoop]
      split
      · exact Looping.mk (l := ⟨.counted _, body, _, _⟩) h trivial
      · trivial
  | items targets source =>
      cases source with
      | command c => exact Calling.source h
      | «variable» v =>
          simp only [World.beginLoop]
          split
          · exact h.overItems _
          · trivial
  | whilst test => exact Looping.mk (l := ⟨.whilst test, body, _, _⟩) h rfl
  | bounded init test next =>
      have hloop : Looping whole ⟨.bounded test next, body, inner, 0⟩
          (.statements p rest s :: frames) := .mk h ⟨rfl, rfl⟩
      exact hloop.runClause init

/-! ## Choices -/

theorem Choosing.choose {left : List Branch} {otherwise : Option (List Statement)}
    (h : Choosing whole left otherwise frames) (s : ScopeId) :
    FitsAbove whole frames (w.choose left otherwise s) := by
  cases left with
  | cons b others =>
      obtain ⟨test, body⟩ := b
      exact Testing.branch (b := .mk test body) h
  | nil =>
      obtain ⟨h, -⟩ := h
      cases otherwise with
      | some body => exact ⟨_, .otherwise h⟩
      | none => exact Returning.statements h

/-! ## Statements and conditions -/

theorem Running.begin {st : Statement} {rest : List Statement} {loops : List LoopRun}
    (h : Running whole (st :: rest) loops frames) (s : ScopeId) :
    FitsAbove whole (.statements st.position rest s :: frames) (w.begin s st) := by
  have hreturn : Returning whole (.statements st.position rest s :: frames) := .statements h
  cases st with
  | assign a =>
      simp only [World.begin, World.ended]
      split
      · exact hreturn
      · trivial
  | unset vs p =>
      simp only [World.begin, World.ended]
      split
      · exact hreturn
      · trivial
  | expression e p =>
      simp only [World.begin]
      split
      · exact hreturn
      · trivial
  | choice first others otherwise p => exact (Choosing.mk h fun _ hb => hb).choose s
  | loop mode body p => exact h.beginLoop _
  | commands cs p =>
      cases cs with
      | nil => exact hreturn
      | cons c rest => exact Calling.commands hreturn
  | jump kind levels p => exact hreturn

/-- A negation that may be there changes nothing. -/
theorem Testing.negating (h : Testing whole frames) (negated : Bool) :
    Testing whole (World.negating negated ++ frames) := by
  cases negated with
  | false => exact h
  | true => exact h.negation

theorem Testing.test (h : Testing whole frames) (s : ScopeId) (test : Condition) :
    FitsAbove whole frames (w.test s test) := by
  cases test with
  | assigning negated p a rest =>
      simp only [World.test]
      split
      · trivial
      · exact h.negating negated
  | commanding negated p c rest => exact Calling.thenTest (h.negating negated)
  | command negated p c => exact Calling.truthiness (h.negating negated)
  | comparison negated p lhs comparison =>
      simp only [World.test]
      split
      · exact h
      · trivial

/-! ## Commands -/

theorem Calling.settle (h : Calling whole frames) (a : ActiveCommand) (r : Except Error Value) :
    Fits whole frames (w.settle a r).2 := by
  rw [World.settle]
  split
  · trivial
  · split
    · exact h
    · exact h

theorem Calling.proceed (h : Calling whole frames) (a : ActiveCommand) (progress : Progress) :
    Fits whole frames (w.proceed a progress).2 := by
  cases progress with
  | finished r => exact h.settle a r
  | waiting op => exact h

theorem Calling.callCommand (h : Calling whole frames) (c : Catalogue) (s : ScopeId)
    (cmd : Command) : Fits whole frames (w.callCommand c s cmd).2 := by
  rw [World.callCommand]
  split
  · trivial
  · exact h.proceed _ _

/-! ## What comes after -/

theorem Returning.afterFlow {frame : Frame} (h : Returning whole (frame :: frames)) (f : Flow) :
    FitsAbove whole frames (w.afterFlow f frame) := by
  cases h with
  | statements h =>
      cases f with
      | normal => exact ⟨_, h.next⟩
      | jump kind levels p => exact h.returning
  | body h =>
      cases f with
      | normal => exact h.afterBody
      | jump kind levels p =>
          simp only [World.afterFlow]
          split
          · exact h.returning
          · cases kind with
            | «break» => exact h.returning
            | «continue» => exact h.afterBody

theorem Testing.afterTruth {frame : Frame} (h : Testing whole (frame :: frames)) (b : Bool) :
    FitsAbove whole frames (w.afterTruth b frame) := by
  cases h with
  | branch h =>
      obtain ⟨h, hsub⟩ := h
      cases b with
      | true => exact ⟨_, .branch h (hsub (List.mem_cons_self ..))⟩
      | false => exact (Choosing.mk h fun _ hb => hsub (List.mem_cons_of_mem _ hb)).choose _
  | loop h =>
      cases b with
      | true => exact h.enterBody
      | false => exact h.returning
  | negation h => exact h

theorem Calling.afterValue {frame : Frame} (h : Calling whole (frame :: frames)) (v : Value) :
    FitsAbove whole frames (w.afterValue v frame) := by
  cases h with
  | @commands rest s _ h =>
      cases rest with
      | nil => exact h
      | cons c rest => exact Calling.commands h
  | thenTest h => exact h
  | truthiness h => exact h
  | clause h => exact h
  | source h => exact h.overItems v

/-! ## Threads -/

/-- **One step.** A thread that is at a place in its statements is at one after every step. -/
theorem Fits.step {t : Thread} (c : Catalogue) (h : Fits whole t.frames t.focus) :
    Fits whole (t.step c w).2.frames (t.step c w).2.focus := by
  obtain ⟨focus, frames⟩ := t
  -- What a focus may be is told by the innermost frame, and each frame has a lemma for its return.
  cases focus with
  | run body s =>
      obtain ⟨loops, h⟩ := h
      cases body with
      | nil => exact h.returning
      | cons st rest => exact h.begin s
  | test test s => exact Testing.test h s test
  | loop l => exact Looping.iterate h
  | call cmd s => exact Calling.callCommand h c s cmd
  | await a op =>
      simp only [Thread.step]
      split
      · exact Calling.proceed h _ _
      · exact h
  | pause stop v =>
      simp only [Thread.step]
      split
      · exact h
      · exact h
  | flow f =>
      cases frames with
      | nil =>
          cases f with
          | normal => exact h
          | jump kind levels p => trivial
      | cons frame frames => exact Returning.afterFlow h f
  | truth b =>
      cases frames with
      | nil => exact h
      | cons frame frames => exact Testing.afterTruth h b
  | value v =>
      cases frames with
      | nil => exact h
      | cons frame frames => exact Calling.afterValue h v
  | failed e =>
      cases frames with
      | nil => exact h
      | cons frame frames => trivial

end Nesting

/-- **The whole course.** Whatever others do to the world, a thread is always at a place in the
statements that it was started with. -/
theorem Thread.Reaches.fits {c : Catalogue} {others : World → World → Prop}
    {going : Thread → Prop} {whole : List Statement} {s : ScopeId} {w w' : World} {t : Thread}
    (h : Reaches c others going w (.start whole s) w' t) : Nesting.Fits whole t.frames t.focus :=
  Reaches.keeps (I := fun _ t => Nesting.Fits whole t.frames t.focus) h ⟨[], .whole⟩
    (fun _ _ _ hfits => hfits.step c) (fun _ _ _ _ hfits => hfits)

/-! ## Ends -/

/-- Whether a focus has come to its end, so that the next step takes up a frame. -/
def Focus.Ends : Focus → Prop
  | .flow _ | .truth _ | .value _ | .failed _ => True
  | _ => False

/-- Whether a frame goes on after such an end. Every frame passes a failure on. -/
def Frame.Takes : Frame → Focus → Prop
  | _, .failed _ => True
  | .statements .., .flow _ | .body _, .flow _ => True
  | .negation, .truth _ | .branch .., .truth _ | .loopTest _, .truth _ => True
  | .commands .., .value _ | .thenTest .., .value _ | .truthiness, .value _ => True
  | .clause _, .value _ | .source .., .value _ => True
  | _, _ => False

/-- What ends directly above a frame is what the frame takes. -/
theorem Nesting.Fits.takes {whole : List Statement} {focus : Focus} {frame : Frame}
    {frames : List Frame} (h : Fits whole (frame :: frames) focus) (ends : focus.Ends) :
    frame.Takes focus := by
  cases focus with
  | flow f => cases (h : Returning whole _) <;> trivial
  | truth b => cases (h : Testing whole _) <;> trivial
  | value v => cases (h : Calling whole _) <;> trivial
  | failed e => cases frame <;> trivial
  | _ => exact ends.elim

namespace Thread

variable (c : Catalogue) (w : World)

/-- A focus that has not come to its end leaves the frames. -/
theorem frames_step_of_not_ends {focus : Focus} (h : ¬ focus.Ends) (frames : List Frame) :
    ∃ new, (step c w ⟨focus, frames⟩).2.frames = new ++ frames := by
  cases focus with
  | run body s =>
      cases body with
      | nil => exact ⟨[], rfl⟩
      | cons st rest => exact ⟨_, (List.append_cons _ _ _).trans rfl⟩
  | test test s => exact ⟨_, rfl⟩
  | loop l => exact ⟨_, rfl⟩
  | call cmd s => exact ⟨[], rfl⟩
  | await a op =>
      simp only [step]
      split <;> exact ⟨[], rfl⟩
  | pause stop v =>
      simp only [step]
      split <;> exact ⟨[], rfl⟩
  | flow f => exact absurd trivial h
  | truth b => exact absurd trivial h
  | value v => exact absurd trivial h
  | failed e => exact absurd trivial h

/-- A step takes up one frame at most. -/
theorem frames_step_cons (focus : Focus) (frame : Frame) (frames : List Frame) :
    ∃ new, (step c w ⟨focus, frame :: frames⟩).2.frames = new ++ frames := by
  by_cases h : focus.Ends
  · cases focus with
    | flow f => exact ⟨_, rfl⟩
    | truth b => exact ⟨_, rfl⟩
    | value v => exact ⟨_, rfl⟩
    | failed e => exact ⟨[], rfl⟩
    | _ => exact h.elim
  · obtain ⟨new, hnew⟩ := frames_step_of_not_ends c w h (frame :: frames)
    exact ⟨new ++ [frame], by rw [hnew, List.append_assoc]; rfl⟩

/-- A frame stays where it is as long as something above it is to be done. -/
theorem frames_step_above {t : Thread} {above base : List Frame} {frame : Frame}
    (h : t.frames = above ++ frame :: base) :
    (∃ above', (t.step c w).2.frames = above' ++ frame :: base) ∨
      ∃ focus, t = ⟨focus, frame :: base⟩ ∧ focus.Ends := by
  obtain ⟨focus, frames⟩ := t
  obtain rfl : frames = above ++ frame :: base := h
  cases above with
  | nil =>
      by_cases hends : focus.Ends
      · exact .inr ⟨focus, rfl, hends⟩
      · exact .inl (frames_step_of_not_ends c w hends (frame :: base))
  | cons first above =>
      obtain ⟨new, hnew⟩ := frames_step_cons c w focus first (above ++ frame :: base)
      exact .inl ⟨new ++ above, by rw [List.append_assoc]; exact hnew⟩

end Thread

end TabPilot
