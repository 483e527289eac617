import TabPilot.Proofs.Run.Nesting

set_option autoImplicit false

/-! # Jumps out of nested loops

A `break` or `continue` over several loops passes the frames between it and the loop that takes it
up, one at each step. `Running.lands` follows it by induction on its place in the statements:
no other frame on the way is looked at, and nothing changes in the world.
`Thread.Reaches.jumps_over` says what this comes to wherever a thread meets a jump.
-/

namespace TabPilot

/-- What a jump comes to at the loop that takes it up, with what is to be done after the loop: the
loop has ended, or it goes on with the next run of its body, and first with the last clause of
its header if it has one. -/
def JumpKind.landing (kind : JumpKind) (l : LoopRun) (frames : List Frame) (w : World) :
    World × Thread :=
  let next := { l with index := l.index + 1 }
  match kind, l.state with
  | .break, _ => (w, ⟨.flow .normal, frames⟩)
  | .continue, .bounded _ clause => Thread.after frames (w.runClause next clause)
  | .continue, _ => (w, ⟨.loop next, frames⟩)

namespace Thread

def IsJumping (t : Thread) : Prop := ∃ kind n p, t.focus = .flow (.jump kind n p)

/-- `Unwinds c landing t`: whatever the world is at each of its steps, the thread `t` first takes
steps that leave it as it is, with a jump on its way after each of them, and then the step
`landing`. -/
inductive Unwinds (c : Catalogue) (landing : World → World × Thread) : Thread → Prop
  | lands {t : Thread} (h : ∀ w, t.step c w = landing w) : Unwinds c landing t
  | passes {t t' : Thread} (h : ∀ w, t.step c w = (w, t')) (jumping : t'.IsJumping)
      (rest : Unwinds c landing t') : Unwinds c landing t

end Thread

namespace Nesting

variable {c : Catalogue} {landing : World → World × Thread} {whole rest : List Statement}
variable {loops : List LoopRun} {frames : List Frame} {kind : JumpKind} {p : Position}

/-! ## One frame -/

/-- A jump passes the other statements of a body. -/
theorem unwinds_statements {n : Nat} {q : Position} {s : ScopeId}
    (h : Thread.Unwinds c landing ⟨.flow (.jump kind n p), frames⟩) :
    Thread.Unwinds c landing ⟨.flow (.jump kind n p), .statements q rest s :: frames⟩ :=
  .passes (fun _ => rfl) ⟨kind, n, p, rfl⟩ h

/-- A jump over several loops passes the innermost one and what follows it. -/
theorem unwinds_body {n : Nat} {l : LoopRun} {q : Position} {s : ScopeId}
    (h : Thread.Unwinds c landing ⟨.flow (.jump kind (n + 1) p), frames⟩) :
    Thread.Unwinds c landing
      ⟨.flow (.jump kind (n + 2) p), .body l :: .statements q rest s :: frames⟩ :=
  .passes (fun _ => rfl) ⟨kind, n + 1, p, rfl⟩ (unwinds_statements h)

/-- A jump over one loop is taken up by the innermost one. -/
theorem step_jump_body {n : Nat} (hn : n ≤ 1) (l : LoopRun) (w : World) :
    Thread.step c w ⟨.flow (.jump kind n p), .body l :: frames⟩ = kind.landing l frames w := by
  obtain rfl | rfl : n = 0 ∨ n = 1 := by omega
  all_goals
    obtain ⟨state, body, s, index⟩ := l
    cases kind with
    | «break» => rfl
    | «continue» => cases state <;> rfl

/-! ## All frames -/

/-- What becomes of the thread `t`, in which a jump over `n` loops is on its way inside `loops`.
The loop that takes it up is the `n`-th counted outwards, in a body that stands inside the loops
around it; the thread goes on at the statements after that loop, or with the loop. When there are
fewer loops the thread fails and stays so. (A jump over no loops, which cannot be written, would
be one over one loop.) -/
def Lands (c : Catalogue) (whole : List Statement) (loops : List LoopRun) (kind : JumpKind)
    (n : Nat) (p : Position) (t : Thread) : Prop :=
  match loops.drop (n - 1) with
  | l :: outer => ∃ mode p' after further s,
      Running whole (.loop mode l.body p' :: after) outer further ∧ l.state.Of mode ∧
        Thread.Unwinds c (kind.landing l (.statements p' after s :: further)) t
  | [] => ∃ fault failed,
      fault.message = s!"'{kind.word}' used outside of a loop" ∧ fault.position = some p ∧
        failed.result? = some (.error fault) ∧ (∀ w, failed.step c w = (w, failed)) ∧
        Thread.Unwinds c (fun w => (w, failed)) t

theorem Lands.before {n : Nat} {t t' : Thread} (h : Lands c whole loops kind n p t)
    (onward : ∀ landing, Thread.Unwinds c landing t → Thread.Unwinds c landing t') :
    Lands c whole loops kind n p t' := by
  unfold Lands at h ⊢
  split at h
  · obtain ⟨mode, p', after, further, s, hplace, hstate, hunwinds⟩ := h
    exact ⟨mode, p', after, further, s, hplace, hstate, onward _ hunwinds⟩
  · obtain ⟨fault, failed, hmessage, hposition, hresult, hstays, hunwinds⟩ := h
    exact ⟨fault, failed, hmessage, hposition, hresult, hstays, onward _ hunwinds⟩

/-- A jump that no loop is around. -/
theorem lands_outside (n : Nat) :
    Lands c whole [] kind n p ⟨.flow (.jump kind n p), []⟩ := by
  rw [Lands, List.drop_nil]
  exact ⟨Thread.strayJump kind p, ⟨.failed (Thread.strayJump kind p), []⟩, rfl, rfl, rfl,
    fun _ => rfl, .lands fun _ => rfl⟩

/-- Where a jump ends that was met inside `loops`, by induction on the place where it was met. -/
theorem Running.lands (h : Running whole rest loops frames) (n : Nat) :
    Lands c whole loops kind n p ⟨.flow (.jump kind n p), frames⟩ := by
  induction h generalizing n with
  | whole => exact lands_outside n
  | next _ ih => exact ih n
  | branch _ _ ih => exact (ih n).before fun _ => unwinds_statements
  | otherwise _ ih => exact (ih n).before fun _ => unwinds_statements
  | @body mode l p' rest loops frames s h state ih =>
      match n with
      | 0 => exact ⟨mode, p', rest, frames, s, h, state, .lands (step_jump_body (by simp) l)⟩
      | 1 => exact ⟨mode, p', rest, frames, s, h, state, .lands (step_jump_body (by simp) l)⟩
      | n + 2 =>
          have hrest : Lands c whole loops kind (n + 1) p
              ⟨.flow (.jump kind (n + 2) p), .body l :: .statements p' rest s :: frames⟩ :=
            (ih (n + 1)).before fun _ => unwinds_body
          exact hrest

end Nesting

/-- **Jumps over several loops.** Whatever others do to the world, wherever a thread that was
started with the statements `whole` comes to a `break` or `continue` over `n` loops, this jump
stands inside some loops, of each of which a run is under way, and it lands at the `n`-th of
them: up to there the thread changes nothing in the world and looks at no condition, clause, item
or statement. -/
theorem Thread.Reaches.jumps_over {c : Catalogue} {others : World → World → Prop}
    {going : Thread → Prop} {whole rest : List Statement} {s s' : ScopeId} {w w' : World}
    {kind : JumpKind} {n : Nat} {p : Position} {frames : List Frame}
    (h : Reaches c others going w (.start whole s) w' ⟨.run (.jump kind n p :: rest) s', frames⟩) :
    ∃ loops, Nesting.Running whole (.jump kind n p :: rest) loops frames ∧
      Nesting.Lands c whole loops kind n p ⟨.run (.jump kind n p :: rest) s', frames⟩ := by
  obtain ⟨loops, hplace⟩ := h.fits
  refine ⟨loops, hplace, (hplace.lands n).before fun _ hunwinds => ?_⟩
  exact .passes (fun _ => rfl) ⟨kind, n, p, rfl⟩ (Nesting.unwinds_statements hunwinds)

/-- Out of two loops at once. -/
theorem Thread.Reaches.jumps_over_two :
    let jump : Statement := .jump .break 2 ⟨3, 3⟩
    let inner : List Statement := [.loop .infinite [jump] ⟨2, 2⟩]
    let frames : List Frame :=
      [.body ⟨.forever, [jump], 2, 0⟩, .statements ⟨2, 2⟩ [] 1,
        .body ⟨.forever, inner, 1, 0⟩, .statements ⟨1, 1⟩ [] 0]
    let w : World := { World.empty with store := ⟨#[⟨Record.empty, []⟩]⟩ }
    ∃ w', Reaches .standard (fun _ _ => True) (fun _ => True)
        w (.start [.loop .infinite inner ⟨1, 1⟩] 0) w' ⟨.run [jump] 2, frames⟩ ∧
      ∃ loops, Nesting.Running [.loop .infinite inner ⟨1, 1⟩] [jump] loops frames ∧
        Nesting.Lands .standard [.loop .infinite inner ⟨1, 1⟩] loops .break 2 ⟨3, 3⟩
          ⟨.run [jump] 2, frames⟩ := by
  intro jump inner frames w
  have hreach : ∃ w', Reaches .standard (fun _ _ => True) (fun _ => True)
      w (.start [.loop .infinite inner ⟨1, 1⟩] 0) w' ⟨.run [jump] 2, frames⟩ :=
    ⟨_, .step (.step (.step (.step .here trivial) trivial) trivial) trivial⟩
  obtain ⟨w', h⟩ := hreach
  exact ⟨w', h, h.jumps_over⟩

end TabPilot
