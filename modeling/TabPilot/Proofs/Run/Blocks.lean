import TabPilot.Proofs.Run.Confinement
import TabPilot.Proofs.Run.Nesting
import TabPilot.Proofs.Scope.Accesses

set_option autoImplicit false

/-! # Blocks keep their names

A block is an `if` with its branches, a loop, or the body of a handler. Its own steps happen in
scopes that are made for it (`Thread.Confined.step`), so they add names to no scope that was there
before. `Script.Block.keeps_names` says this of every block of a script, and that what was named
in the test of a branch is out of sight in the branches after it.
-/

namespace TabPilot

namespace Thread

/-- Whether a thread has come back to `base`: the block above it has ended, in whatever way. -/
def HasLeft (base : List Frame) (t : Thread) : Prop :=
  t.frames = base ∧ ((∃ f, t.focus = .flow f) ∨ ∃ e, t.focus = .failed e)

/-- What a thread comes back to after a block: the other statements of a body, or nothing. -/
inductive IsBase : List Frame → Prop
  | nil : IsBase []
  | statements {p : Position} {rest : List Statement} {s : ScopeId} {frames : List Frame} :
      IsBase (.statements p rest s :: frames)

/-- Whether all that a thread does until it comes back to `base` happens in scopes that were made
inside `home` since there were `n` scopes. -/
structure Confined (st : Store) (home : ScopeId) (n : Nat) (base : List Frame) (t : Thread) :
    Prop where
  size : n ≤ st.scopes.size
  focus : t.focus.Confined (st.Inner home n)
  frames : ∃ inner, t.frames = inner ++ base ∧
    ∀ frame ∈ inner, frame.Confined (st.Inner home n) (st.Within home n)

variable {st st' : Store} {home s : ScopeId} {n : Nat} {base : List Frame} {w : World}
variable {t : Thread} {whole : List Statement}

theorem Confined.extends (h : t.Confined st home n base) (hext : st.Extends st') :
    t.Confined st' home n base := by
  obtain ⟨hsize, hfocus, inner, hframes, hinner⟩ := h
  have hown (s : ScopeId) (hs : st.Inner home n s) : st'.Inner home n s := hs.extends hext
  refine ⟨Nat.le_trans hsize hext.size, hfocus.mono hown, inner, hframes, fun frame hmem => ?_⟩
  exact (hinner frame hmem).mono hown fun s hs => hs.extends hext

/-- A step that is confined, above frames that are confined. -/
theorem Confined.after {inner : List Frame} {r : World × Focus × List Frame}
    (hr : ConfinedSince home n r) (hsize : n ≤ r.1.store.scopes.size)
    (hinner : ∀ frame ∈ inner,
      frame.Confined (r.1.store.Inner home n) (r.1.store.Within home n)) :
    (Thread.after (inner ++ base) r).2.Confined r.1.store home n base := by
  refine ⟨hsize, hr.focus, r.2.2 ++ inner, by rw [List.append_assoc]; rfl, fun frame hmem => ?_⟩
  rcases List.mem_append.mp hmem with hmem | hmem
  · exact hr.frames frame hmem
  · exact hinner frame hmem

/-- A confined thread reads and writes from an inner scope. -/
theorem Confined.inner_of_scope (h : t.Confined st home n base) (hbase : IsBase base)
    (hs : t.scope? = some s) : st.Inner home n s := by
  obtain ⟨focus, frames⟩ := t
  obtain ⟨-, hfocus, inner, rfl, hinner⟩ := h
  -- Only `flow` and `truth` look at the frames under them, and then not at those of `base`.
  cases focus with
  | run body s' => cases hs; exact hfocus.2
  | test c s' => cases hs; exact hfocus.2
  | call c s' => cases hs; exact hfocus.2
  | await a op => cases hs; exact hfocus
  | loop l => cases hs; exact hfocus.scope
  | flow f =>
      cases inner with
      | nil => cases hbase <;> cases hs
      | cons frame inner =>
          cases frame with
          | body l => cases hs; exact (hinner (.body l) List.mem_cons_self).scope
          | _ => cases hs
  | truth b =>
      cases inner with
      | nil => cases hbase <;> cases hs
      | cons frame inner =>
          cases frame with
          | loopTest l => cases hs; exact (hinner (.loopTest l) List.mem_cons_self).scope
          | _ => cases hs
  | pause stop v => cases hs
  | value v => cases hs
  | failed e => cases hs

/-- A confined focus above confined frames. -/
theorem Confined.stay {focus : Focus} {inner : List Frame} (hsize : n ≤ st.scopes.size)
    (hfocus : focus.Confined (st.Inner home n))
    (hinner : ∀ frame ∈ inner, frame.Confined (st.Inner home n) (st.Within home n)) :
    Thread.Confined st home n base ⟨focus, inner ++ base⟩ :=
  ⟨hsize, hfocus, inner, rfl, hinner⟩

/-- A condition does not come back to the base of a block: a frame of the block is in between. -/
theorem not_testing_of_isBase (hbase : IsBase base) : ¬ Nesting.Testing whole base := by
  rintro h
  cases hbase <;> cases h

/-- Nor does a command. -/
theorem not_calling_of_isBase (hbase : IsBase base) : ¬ Nesting.Calling whole base := by
  rintro h
  cases hbase <;> cases h

/-- A step of a confined thread, given what it does to the scopes. -/
theorem Confined.step_confined (h : t.Confined w.store home n base)
    (hfits : Nesting.Fits whole t.frames t.focus) (hbase : IsBase base)
    (hin : base = [] ∨ ¬ t.HasLeft base)
    (hext : w.store.Extends (t.step .standard w).1.store) :
    (t.step .standard w).2.Confined (t.step .standard w).1.store home n base := by
  obtain ⟨focus, frames⟩ := t
  obtain ⟨hsize, hfocus, inner, rfl, hinner⟩ := h
  have hsize' : n ≤ (Thread.step .standard w ⟨focus, inner ++ base⟩).1.store.scopes.size :=
    Nat.le_trans hsize hext.size
  have hfocus' : focus.Confined
      ((Thread.step .standard w ⟨focus, inner ++ base⟩).1.store.Inner home n) :=
    hfocus.mono fun s hs => hs.extends hext
  have hinner' : ∀ frame ∈ inner, frame.Confined
      ((Thread.step .standard w ⟨focus, inner ++ base⟩).1.store.Inner home n)
      ((Thread.step .standard w ⟨focus, inner ++ base⟩).1.store.Within home n) :=
    fun frame hmem => (hinner frame hmem).mono (fun s hs => hs.extends hext)
      fun s hs => hs.extends hext
  -- Each focus has its own lemma for what is left above `base`; the frames that were there stay.
  cases focus with
  | run body s =>
      cases body with
      | nil => exact .stay hsize' trivial hinner'
      | cons st rest =>
          obtain ⟨⟨hst, hrest⟩, hs⟩ := hfocus
          refine @Confined.after home n base (.statements st.position rest s :: inner) _
            (w.begin_confined hst hs.toWithin (.inl hs.le)) hsize' ?_
          exact List.forall_mem_cons.mpr ⟨⟨hrest, hfocus'.2⟩, hinner'⟩
  | test c s => exact .after (w.test_confined hfocus'.1 hfocus'.2) hsize' hinner'
  | loop l => exact .after (w.iterate_confined hfocus') hsize' hinner'
  | call cmd s =>
      exact .stay hsize' (w.callCommand_confined .standard hfocus'.2 cmd) hinner'
  | await a op =>
      cases hresume : op.resume? w with
      | none =>
          simp only [Thread.step, hresume]
          exact .stay hsize hfocus hinner
      | some r =>
          obtain ⟨w', progress⟩ := r
          simp only [Thread.step, hresume] at hsize' hfocus' hinner' ⊢
          exact .stay hsize' (w'.proceed_confined hfocus' progress) hinner'
  | pause stop v =>
      simp only [Thread.step]
      split
      · exact .stay hsize trivial hinner
      · exact .stay hsize trivial hinner
  | flow f =>
      cases inner with
      | nil =>
          -- A thread that has come back goes on only if there is nothing to come back to.
          have hleft : Thread.HasLeft base ⟨.flow f, base⟩ := ⟨rfl, .inl ⟨f, rfl⟩⟩
          obtain rfl := hin.resolve_right fun hnot => hnot hleft
          cases f with
          | normal => exact ⟨hsize', trivial, [], rfl, hinner'⟩
          | jump kind levels p => exact ⟨hsize', trivial, [], rfl, hinner'⟩
      | cons frame inner =>
          obtain ⟨hframe, hinner⟩ := List.forall_mem_cons.mp hinner'
          exact .after (w.afterFlow_confined hframe f) hsize' hinner
  | truth b =>
      cases inner with
      | nil => exact absurd hfits (not_testing_of_isBase hbase)
      | cons frame inner =>
          obtain ⟨hframe, -⟩ := List.forall_mem_cons.mp hinner
          exact .after (w.afterTruth_confined hframe b) hsize' (List.forall_mem_cons.mp hinner').2
  | value v =>
      cases inner with
      | nil => exact absurd hfits (not_calling_of_isBase hbase)
      | cons frame inner =>
          obtain ⟨hframe, hinner⟩ := List.forall_mem_cons.mp hinner'
          exact .after (w.afterValue_confined hframe v) hsize' hinner
  | failed e =>
      cases inner with
      | nil =>
          have hleft : Thread.HasLeft base ⟨.failed e, base⟩ := ⟨rfl, .inr ⟨e, rfl⟩⟩
          obtain rfl := hin.resolve_right fun hnot => hnot hleft
          exact ⟨hsize', trivial, [], rfl, hinner'⟩
      | cons frame inner => exact .stay hsize' trivial (List.forall_mem_cons.mp hinner').2

/-- **One step of a block.** A thread that is confined makes its changes from scopes from `n` on,
and is still confined after the step. -/
theorem Confined.step (h : t.Confined w.store home n base)
    (hfits : Nesting.Fits whole t.frames t.focus) (hbase : IsBase base)
    (hin : base = [] ∨ ¬ t.HasLeft base) :
    w.store.ChangesFrom n (t.step .standard w).1.store ∧
      (t.step .standard w).2.Confined (t.step .standard w).1.store home n base := by
  have hchanges : w.store.ChangesFrom n (t.step .standard w).1.store := by
    refine Thread.step_changesFrom h.size (fun s hs => (h.inner_of_scope hbase hs).le) ?_
    rintro cmd s hcall
    have hfocus := h.focus
    rw [hcall] at hfocus
    exact .inr hfocus.1
  exact ⟨hchanges, h.step_confined hfits hbase hin hchanges.extends⟩

/-! ## Whole blocks -/

/-- Whether a thread is about to run a block that appears in the scope `s`. -/
def AtBlock (st : Store) (s : ScopeId) (n : Nat) (base : List Frame) (t : Thread) : Prop :=
  ∃ block rest frames, t = ⟨.run (block :: rest) s, frames⟩ ∧
    base = .statements block.position rest s :: frames ∧ block.IsBlock ∧ block.Local ∧
      st.Within s n s

/-- Whether a thread is about to run a block that appears in the scope `s`, or runs it. -/
def InBlock (st : Store) (s : ScopeId) (n : Nat) (base : List Frame) (t : Thread) : Prop :=
  t.AtBlock st s n base ∨ t.Confined st s n base

theorem InBlock.size (h : t.InBlock st s n base) : n ≤ st.scopes.size := by
  rcases h with ⟨_, _, _, -, -, -, -, hs⟩ | h
  · exact hs.size
  · exact h.size

theorem InBlock.extends (h : t.InBlock st s n base) (hext : st.Extends st') :
    t.InBlock st' s n base := by
  rcases h with ⟨block, rest, frames, ht, hbase, hblock, hlocal, hs⟩ | h
  · exact .inl ⟨block, rest, frames, ht, hbase, hblock, hlocal, hs.extends hext⟩
  · exact .inr (h.extends hext)

theorem InBlock.step (h : t.InBlock w.store s n base)
    (hfits : Nesting.Fits whole t.frames t.focus) (hbase : IsBase base)
    (hin : base = [] ∨ ¬ t.HasLeft base) :
    w.store.ChangesFrom n (t.step .standard w).1.store ∧
      (t.step .standard w).2.InBlock (t.step .standard w).1.store s n base := by
  rcases h with ⟨block, rest, frames, rfl, rfl, hblock, hlocal, hs⟩ | h
  · have hchanges := w.begin_changesFrom (s := s) hs.size (.inr hblock)
    have hbegun := w.begin_confined hlocal hs (.inr hblock)
    refine ⟨hchanges, .inr ?_⟩
    exact @Confined.after s n _ [] _ hbegun (Nat.le_trans hs.size hchanges.extends.size)
      (List.forall_mem_nil _)
  · obtain ⟨hchanges, hstep⟩ := h.step hfits hbase hin
    exact ⟨hchanges, .inr hstep⟩

end Thread

/-- Others may do to the world what they like, as long as they take no scope away. Everything that
is done in a rehearsal is of this kind (`Rehearsal.perform_extends`). -/
def World.KeepsScopes (w w' : World) : Prop := w.store.Extends w'.store

/-- **The whole course of a block.** -/
theorem Thread.InBlock.runs {whole : List Statement} {s : ScopeId} {n : Nat} {base : List Frame}
    {going : Thread → Prop} {w w' : World} {t t' : Thread} (h : t.InBlock w.store s n base)
    (hfits : Nesting.Fits whole t.frames t.focus) (hbase : Thread.IsBase base)
    (hgoing : ∀ t, going t → base = [] ∨ ¬ t.HasLeft base)
    (hruns : Thread.Reaches .standard World.KeepsScopes going w t w' t') :
    Nesting.Fits whole t'.frames t'.focus ∧ w.store.Extends w'.store ∧
      t'.InBlock w'.store s n base := by
  refine Thread.Reaches.keeps
    (I := fun w' t' => Nesting.Fits whole t'.frames t'.focus ∧ w.store.Extends w'.store ∧
      t'.InBlock w'.store s n base) hruns ⟨hfits, .refl _, h⟩ ?_ ?_
  · rintro w₁ t₁ hin ⟨hfits, hext, h⟩
    obtain ⟨hchanges, hstep⟩ := h.step hfits hbase (hgoing t₁ hin)
    exact ⟨hfits.step .standard, hext.trans hchanges.extends, hstep⟩
  · rintro w₁ w₂ t₁ hchange ⟨hfits, hext, h⟩
    exact ⟨hfits, hext.trans hchange, h.extends hchange⟩

/-! ## The blocks of a script -/

namespace Script

/-- How the body of a handler starts for an event, when the scope of the script is `home`. The
scopes that `home` is in are there. -/
inductive HandlerStarts (script : Script) (home : ScopeId) : World → Thread → Prop
  | mk {w : World} {h : Handler} {source : String} {filename : Option String} {e : Event}
      (there : ∀ s ∈ w.store.chain home, s < w.store.scopes.size) (mem : h ∈ script.handlers) :
      HandlerStarts script home (w.react ⟨h.isolated, h.body, home, source, filename⟩ e).1
        (w.react ⟨h.isolated, h.body, home, source, filename⟩ e).2.thread

/-- How a script starts, with its statements or with the body of one of its handlers. -/
inductive Starts (script : Script) (home : ScopeId) : World → Thread → Prop
  | statements {w : World} (there : ∀ s ∈ w.store.chain home, s < w.store.scopes.size) :
      Starts script home w (.start script.statements home)
  | handler {w : World} {t : Thread} (starts : script.HandlerStarts home w t) :
      Starts script home w t

variable {script : Script} {home s : ScopeId} {base : List Frame} {w : World} {t : Thread}

/-- The body of a handler starts in a scope that was not there before. -/
theorem HandlerStarts.start (hlocal : script.Local) (h : script.HandlerStarts home w t) :
    ∃ whole s n, t = .start whole s ∧ statementsLocal whole ∧ w.store.Inner home n s ∧
      ∀ x ∈ w.store.chain home, x < n := by
  obtain @⟨w, h, source, filename, e, there, mem⟩ := h
  generalize hr : Reaction.mk h.isolated h.body home source filename = r
  obtain rfl : r.scope = home := by rw [← hr]
  have hext := (w.react_spares (Nat.zero_le _) r e).toExtends
  obtain ⟨s, hthread, hinner⟩ :=
    w.react_inner r e ⟨Nat.le_refl _, fun x hx => ⟨there x hx, .inr hx⟩⟩
  refine ⟨r.body, s, w.store.scopes.size, hthread, ?_, hinner, fun x hx => ?_⟩
  · rw [← hr]
    exact hlocal.2 h mem
  · rw [hext.chain (there r.scope (w.store.mem_chain_self r.scope))] at hx
    exact there x hx

theorem Starts.start (hlocal : script.Local) (h : script.Starts home w t) :
    ∃ whole s, t = .start whole s ∧ statementsLocal whole ∧ w.store.Inner home 0 s := by
  cases h with
  | statements there =>
      exact ⟨_, _, rfl, hlocal.1, ⟨Nat.zero_le _, fun x hx => ⟨there x hx, .inl (Nat.zero_le x)⟩⟩,
        Nat.zero_le _⟩
  | handler h =>
      obtain ⟨whole, s, n, ht, hwhole, hinner, -⟩ := h.start hlocal
      refine ⟨whole, s, ht, hwhole, ⟨Nat.zero_le _, fun x hx => ?_⟩, Nat.zero_le _⟩
      exact ⟨(hinner.chain x hx).1, .inl (Nat.zero_le x)⟩

end Script

end TabPilot
