import Mathlib
import TabPilot.Proofs.Run.Course
import TabPilot.Proofs.Run.Effects
import TabPilot.Proofs.Run.Twins

set_option autoImplicit false

/-! # Isolated handlers

The body of an isolated handler runs in a scope that stands alone, with the event in it. So its
course depends on nothing in the scopes that were there before, and changes nothing in them
(`Reaction.Course.same_of_isolated`): two courses that begin with different scopes, and in which
the same happens beside the scopes, run in parallel from beginning to end. What others do in
between is decided by what they see beside the scopes, and leaves the scopes of the handler alone,
as the steps of all threads do that were begun elsewhere (`Thread.Without.step`).
-/

namespace TabPilot

/-! ## The course of a handler -/

/-- What happens next in the course of a handler: it takes a step, or others change the world. -/
inductive Turn
  | own
  | others (change : World → World)

/-- How the body of a handler goes on that is begun for an event in the world `w`, when the turns
were these, the latest first. What others do to the scopes is left open, but they leave those of
the handler alone: its scope has the next free number in `w`, and the others are inside it. -/
inductive Reaction.Course (c : Catalogue) (w : World) (r : Reaction) (e : Event) :
    List Turn → World → Thread → Prop
  | begun : Course c w r e [] (w.react r e).1 (w.react r e).2.thread
  | own {turns : List Turn} {w' : World} {t : Thread} (h : Course c w r e turns w' t) :
      Course c w r e (.own :: turns) (t.step c w').1 (t.step c w').2
  | others {turns : List Turn} {w' w'' : World} {t : Thread} (h : Course c w r e turns w' t)
      (change : World → World) (same : w''.beside = (change w'.beside).beside)
      (scopes : w'.store.Extends w''.store)
      (kept : ∀ s, w.store.scopes.size ∈ w'.store.chain s → w''.store.vars s = w'.store.vars s) :
      Course c w r e (.others change :: turns) w'' t

/-- Time may pass. -/
theorem Reaction.Course.later {c : Catalogue} {w w' : World} {r : Reaction} {e : Event}
    {turns : List Turn} {t : Thread} (h : r.Course c w e turns w' t) (now : Instant) :
    r.Course c w e (.others (fun w => { w with now }) :: turns) { w' with now } t := by
  refine h.others _ ?_ (.refl w'.store) fun _ _ => rfl
  have hidem := congrArg (fun w : World => { w with now }) w'.beside_beside
  exact hidem.symm

/-- Whatever the turns are, there is a course with them. -/
theorem Reaction.exists_course (c : Catalogue) (w : World) (r : Reaction) (e : Event)
    (turns : List Turn) : ∃ w' t, r.Course c w e turns w' t := by
  induction turns with
  | nil => exact ⟨_, _, .begun⟩
  | cons turn turns ih =>
      obtain ⟨w', t, h⟩ := ih
      cases turn with
      | own => exact ⟨_, _, h.own⟩
      | others change =>
          refine ⟨{ change w'.beside with store := w'.store }, t, ?_⟩
          exact h.others change rfl (.refl w'.store) fun _ _ => rfl

/-- The command that a thread calls next, with the values of its argument and its options, or why
it cannot be called. -/
def Thread.dueCall? (c : Catalogue) (w : World) (t : Thread) :
    Option (Except RunFailure (Command × Option Value × Record Value)) :=
  match t.focus with
  | .call cmd s =>
      some ((c.prepare (w.read s) s cmd).map fun p =>
        (cmd, p.invocation.argument, p.invocation.options))
  | _ => none

namespace Thread.Twin

variable {a : Realm × Realm} {R : ScopeId → ScopeId → Prop} {w₁ w₂ : World} {t₁ t₂ : Thread}

theorem result? (h : t₁.Twin R t₂) : t₁.result? = t₂.result? := by
  obtain ⟨focus₁, frames₁⟩ := t₁
  obtain ⟨focus₂, frames₂⟩ := t₂
  obtain ⟨hfocus, hframes⟩ := h
  cases hframes with
  | nil => cases hfocus <;> rfl
  | cons =>
      cases hfocus with
      | flow f => cases f <;> rfl
      | _ => rfl

theorem dueCall? (h : t₁.Twin R t₂) (hw : w₁.Twins a R w₂) (c : Catalogue) :
    t₁.dueCall? c w₁ = t₂.dueCall? c w₂ := by
  obtain ⟨focus₁, frames₁⟩ := t₁
  obtain ⟨focus₂, frames₂⟩ := t₂
  obtain ⟨hfocus, -⟩ := h
  cases hfocus with
  | call cmd hst =>
      simp only [Thread.dueCall?, hw.read hst]
      refine congrArg some ((c.prepare_twin _ hst cmd).map ?_).eq
      rintro p₁ p₂ ⟨-, -, hinvocation⟩
      cases hinvocation
      rfl
  | _ => rfl

end Thread.Twin

/-! ## Two courses -/

/-- The surroundings of a handler whose scope stands alone and has the number `n`: all scopes that
were there before are foreign to it. -/
def Realm.alone (n : ScopeId) (st : Store) : Realm := ⟨{n}, {s | s < n}, st⟩

/-- What foreign scopes hold may be taken down anew at any time. -/
theorem World.Twins.renew {v₁ v₂ : World} {n₁ n₂ : ScopeId} {st₁ st₂ : Store}
    {R : ScopeId → ScopeId → Prop} (h : v₁.Twins (.alone n₁ st₁, .alone n₂ st₂) R v₂) :
    v₁.Twins (.alone n₁ v₁.store, .alone n₂ v₂.store) R v₂ :=
  ⟨h.beside, h.store.since (.refl _) (.refl _) (fun _ _ => rfl) fun _ _ => rfl⟩

theorem World.react_isolated {r : Reaction} (hr : r.isolated = true) (w : World) (s : ScopeId)
    (e : Event) :
    w.react { r with scope := s } e =
      ({ w with store := (w.store.addRoot (Record.empty.insert "event" e.toValue)).1 },
        ⟨.start r.body w.store.scopes.size, e.name, r.source, r.filename⟩) := by
  simp only [World.react, World.changeStore, hr, if_true]
  rfl

namespace Reaction.Course

variable {r : Reaction} {s₁ s₂ : ScopeId} {e : Event} {turns : List Turn}
variable {w₁ w₂ v₁ v₂ : World} {t₁ t₂ : Thread}

/-- Two courses of an isolated handler with the same turns run in parallel. -/
theorem twins (hr : r.isolated = true) (same : w₁.beside = w₂.beside)
    (h₁ : Course .standard w₁ { r with scope := s₁ } e turns v₁ t₁)
    (h₂ : Course .standard w₂ { r with scope := s₂ } e turns v₂ t₂) :
    ∃ R : ScopeId → ScopeId → Prop, R w₁.store.scopes.size w₂.store.scopes.size ∧
      v₁.Twins (.alone w₁.store.scopes.size v₁.store, .alone w₂.store.scopes.size v₂.store) R v₂ ∧
      t₁.Twin R t₂ := by
  -- The first course is followed; the turns say what the second one did at the same time.
  induction h₁ generalizing v₂ t₂ with
  | begun =>
      cases h₂
      rw [World.react_isolated hr, World.react_isolated hr]
      have hbegun := Store.Twins.begun
        (a := (.alone w₁.store.scopes.size w₁.store, .alone w₂.store.scopes.size w₂.store))
        (fun _ hs => hs) (fun _ hs => hs)
      have hnew := hbegun.add .nil ⟨_, List.mem_singleton_self _, rfl⟩
        ⟨_, List.mem_singleton_self _, rfl⟩ (Record.empty.insert "event" e.toValue)
      have hroot : Store.Joined (fun _ _ => False) w₁.store.scopes.size w₂.store.scopes.size
          w₁.store.scopes.size w₂.store.scopes.size := .inr ⟨rfl, rfl⟩
      exact ⟨_, hroot, World.Twins.renew ⟨same, hnew⟩, .run r.body hroot, .nil⟩
  | own _ ih =>
      cases h₂ with
      | own h₂ =>
          obtain ⟨R, hroot, hw, ht⟩ := ih h₂
          obtain ⟨R', hsub, hworld, hthread⟩ := Thread.step_twin hw ht
          exact ⟨R', hsub _ _ hroot, hworld.renew, hthread⟩
  | others _ change same₁ scopes₁ kept₁ ih =>
      cases h₂ with
      | others h₂ _ same₂ scopes₂ kept₂ =>
          obtain ⟨R, hroot, hw, ht⟩ := ih h₂
          have hinside {n : ScopeId} {st st' : Store}
              (hkept : ∀ s, n ∈ st.chain s → st'.vars s = st.vars s) :
              ∀ s, (∃ u ∈ st.chain s, u ∈ ({n} : Set ScopeId)) → st'.vars s = st.vars s := by
            rintro s ⟨_, hu, rfl⟩
            exact hkept s hu
          have hstore := hw.store.since scopes₁ scopes₂ (hinside kept₁) (hinside kept₂)
          refine ⟨R, hroot, ⟨?_, hstore⟩, ht⟩
          rw [same₁, same₂, hw.beside]

/-- No step of an isolated handler changes a scope that was there before the handler. -/
theorem step_same {w v : World} {t : Thread} (hr : r.isolated = true)
    (h : Course .standard w r e turns v t) :
    v.store.SameBelow w.store.scopes.size (t.step .standard v).1.store := by
  intro s hs
  -- The course is its own twin, and `s` is foreign to it.
  obtain ⟨R, -, hw, ht⟩ := twins hr rfl h h
  obtain ⟨R', -, hworld, -⟩ := Thread.step_twin hw ht
  have hthere := (hw.store.first.foreign s hs).1
  exact (t.step_extends v).getElem?_eq hthere (hworld.store.first.foreign s hs).2

/-- **Isolated handlers.** Let the body of an isolated handler be run for an event twice: with any
two scopes of the script, in worlds that are the same beside the scopes, with the same turns. Then
the courses are the same at every point: in the world beside the scopes, which includes the
execution options, the log and all that was written to the browser; in how the body has ended, if
it has; in the variables of the scope of the handler; and in the command that is called next, with
the values of its argument and its options. Neither the beginning nor any step changes a scope
that was there before: not the scopes of the script, and not those around them. The body may
contain whatever it likes, commands on variables with any `parent` included. -/
theorem same_of_isolated (hr : r.isolated = true) (same : w₁.beside = w₂.beside)
    (h₁ : Course .standard w₁ { r with scope := s₁ } e turns v₁ t₁)
    (h₂ : Course .standard w₂ { r with scope := s₂ } e turns v₂ t₂) :
    v₁.beside = v₂.beside ∧ t₁.result? = t₂.result? ∧
    v₁.store.vars w₁.store.scopes.size = v₂.store.vars w₂.store.scopes.size ∧
    t₁.dueCall? .standard v₁ = t₂.dueCall? .standard v₂ ∧
    (w₁.store.SameBelow w₁.store.scopes.size (w₁.react { r with scope := s₁ } e).1.store ∧
      v₁.store.SameBelow w₁.store.scopes.size (t₁.step .standard v₁).1.store) ∧
    w₂.store.SameBelow w₂.store.scopes.size (w₂.react { r with scope := s₂ } e).1.store ∧
      v₂.store.SameBelow w₂.store.scopes.size (t₂.step .standard v₂).1.store := by
  obtain ⟨R, hroot, hw, ht⟩ := twins hr same h₁ h₂
  have hbegun (w : World) (s : ScopeId) :
      w.store.SameBelow w.store.scopes.size (w.react { r with scope := s } e).1.store := by
    intro u hu
    rw [World.react_isolated hr]
    simp [Store.addRoot, Store.add, Array.getElem?_push, Nat.ne_of_lt hu]
  exact ⟨hw.beside, ht.result?, hw.store.vars hroot, ht.dueCall? hw _,
    ⟨hbegun w₁ s₁, h₁.step_same (r := { r with scope := s₁ }) hr⟩,
    hbegun w₂ s₂, h₂.step_same (r := { r with scope := s₂ }) hr⟩

end Reaction.Course

/-! ## A handler that asks for more than it may see -/

/-- A handler that looks for a secret in the scope around its own. -/
def prying : Reaction where
  isolated := true
  body :=
    [.commands
      [⟨"vars::get", some (.text "secret" false),
        some [("fallback", .text "hidden" false), ("parent", .literal (.bool true))],
        .variable ⟨"peek", []⟩, ⟨2, 3⟩⟩] ⟨2, 3⟩]
  scope := 0
  source := ""
  filename := none

def loaded : Event := ⟨"Page", "loadEventFired", .null⟩

/-- A world whose script runs in the outermost scope, where the secret is. -/
def openWorld : World :=
  { World.empty with store := ⟨#[⟨⟨[("secret", .int 1)]⟩, []⟩]⟩ }

/-- A world whose script runs in a scope inside the one where the secret is. -/
def nestedWorld : World :=
  { World.empty with
    store := ⟨#[⟨⟨[("secret", .string "s3cret")]⟩, []⟩, ⟨Record.empty, [0]⟩]⟩ }

/-- There is no such scope, and the handler finds nothing; when the command is due, time passes. -/
theorem Reaction.Course.same_of_isolated_prying : ∃ turns v₁ v₂ t₁ t₂,
    prying.isolated = true ∧ openWorld.beside = nestedWorld.beside ∧
    Course .standard openWorld { prying with scope := 0 } loaded turns v₁ t₁ ∧
    Course .standard nestedWorld { prying with scope := 1 } loaded turns v₂ t₂ ∧
    t₁.result? = some (.ok ()) ∧ (v₁.store.vars 1).get? "peek" = some (.string "hidden") ∧
    v₁.beside = v₂.beside ∧ t₁.result? = t₂.result? ∧ v₁.store.vars 1 = v₂.store.vars 2 := by
  have hcourse (w : World) (s : ScopeId) :=
    ((@Course.begun .standard w { prying with scope := s } loaded).own.later 7).own.own.own.own
  have hsame : openWorld.beside = nestedWorld.beside := rfl
  have h₁ := hcourse openWorld 0
  have h₂ := hcourse nestedWorld 1
  obtain ⟨hbeside, hresult, hvars, -⟩ := Course.same_of_isolated (r := prying) rfl hsame h₁ h₂
  refine ⟨_, _, _, _, _, rfl, hsame, h₁, h₂, ?_, ?_, hbeside, hresult, hvars⟩
  · cbv
  · cbv

/-! ## Other threads -/

/-- Scopes that are paired off with themselves. -/
def Diagonal (own : ScopeId → Prop) (s t : ScopeId) : Prop := own s ∧ s = t

/-- A thread sees nothing of the scope `root`: it works in scopes that are not inside it. -/
def Thread.Without (root : ScopeId) (st : Store) (t : Thread) : Prop :=
  ∃ own : ScopeId → Prop, t.Twin (Diagonal own) t ∧
    ∀ s, own s → s < st.scopes.size ∧ ∀ u ∈ st.chain s, own u ∧ u ≠ root

section Diagonal

variable {R : ScopeId → ScopeId → Prop}

theorem LoopRun.Twin.diagonal {l : LoopRun} (h : l.Twin R l) :
    l.Twin (Diagonal fun s => R s s) l := by
  obtain ⟨state, body, index, hst⟩ := h
  exact .mk state body index ⟨hst, rfl⟩

theorem Focus.Twin.diagonal {focus : Focus} (h : focus.Twin R focus) :
    focus.Twin (Diagonal fun s => R s s) focus := by
  cases h with
  | run body h => exact .run body ⟨h, rfl⟩
  | flow f => exact .flow f
  | test c h => exact .test c ⟨h, rfl⟩
  | truth b => exact .truth b
  | call c h => exact .call c ⟨h, rfl⟩
  | await h op =>
      obtain ⟨command, name, target, h⟩ := h
      exact .await (.mk command name target ⟨h, rfl⟩) op
  | pause stop v => exact .pause stop v
  | value v => exact .value v
  | loop h => exact .loop h.diagonal
  | failed e => exact .failed e

theorem Frame.Twin.diagonal {frame : Frame} (h : frame.Twin R frame) :
    frame.Twin (Diagonal fun s => R s s) frame := by
  cases h with
  | statements p rest h => exact .statements p rest ⟨h, rfl⟩
  | commands rest h => exact .commands rest ⟨h, rfl⟩
  | branch body others otherwise hinner houter =>
      exact .branch body others otherwise ⟨hinner, rfl⟩ ⟨houter, rfl⟩
  | negation => exact .negation
  | truthiness => exact .truthiness
  | thenTest c h => exact .thenTest c ⟨h, rfl⟩
  | body h => exact .body h.diagonal
  | loopTest h => exact .loopTest h.diagonal
  | clause h => exact .clause h.diagonal
  | source targets repeated h => exact .source targets repeated ⟨h, rfl⟩

/-- What a thread is paired off with in itself is only itself. -/
theorem Thread.Twin.diagonal {t : Thread} (h : t.Twin R t) :
    t.Twin (Diagonal fun s => R s s) t where
  focus := h.focus.diagonal
  frames := List.forall₂_same.mpr fun frame hframe =>
    (List.forall₂_same.mp h.frames frame hframe).diagonal

end Diagonal

/-- The surroundings of a thread that sees nothing of the scope `root`: all that is inside `root`
is foreign to it. -/
def Realm.outside (root : ScopeId) (st : Store) : Realm :=
  ⟨Set.univ, {s | s < st.scopes.size ∧ root ∈ st.chain s}, st⟩

section Outside

variable {root : ScopeId} {st : Store} {own : ScopeId → Prop}
  (hown : ∀ s, own s → s < st.scopes.size ∧ ∀ u ∈ st.chain s, own u ∧ u ≠ root)
include hown

theorem Store.Apart.outside {own' : ScopeId → Prop} (h : ∀ s, own' s → own s) :
    st.Apart (.outside root st) own' where
  there s hs := (hown s (h s hs)).1
  inside s _ := ⟨s, List.mem_cons_self, trivial⟩
  disjoint s hs hforeign := ((hown s (h s hs)).2 root hforeign.2).2 rfl
  foreign _ hs := ⟨hs.1, rfl⟩

/-- A store is its own twin. -/
theorem Store.Twins.diagonal :
    st.Twins (.outside root st, .outside root st) (Diagonal own) st where
  first := .outside hown fun _ ⟨_, hs⟩ => hs.1
  second := .outside hown fun _ ⟨_, hs⟩ => hs.2 ▸ hs.1
  unique := ⟨fun _ _ _ h h' => h.2.trans h'.2.symm, fun _ _ _ h h' => h.2.symm.trans h'.2⟩
  vars h := congrArg st.vars h.2
  chain h := by
    obtain ⟨hs, rfl⟩ := h
    exact List.forall₂_same.mpr fun u hu => ⟨((hown _ hs).2 u hu).1, rfl⟩

end Outside

namespace Thread.Without

variable {root s : ScopeId} {st st' : Store} {w : World} {t : Thread}

/-- A thread that is begun in a scope which is not inside `root`. -/
theorem start (body : List Statement)
    (h : ∀ u ∈ st.chain s, u ≠ root ∧ u < st.scopes.size ∧ ∀ x ∈ st.chain u, x ∈ st.chain s) :
    (Thread.start body s).Without root st := by
  refine ⟨(· ∈ st.chain s), ⟨.run body ⟨List.mem_cons_self, rfl⟩, .nil⟩, fun u hu => ?_⟩
  obtain ⟨-, hlt, hinside⟩ := h u hu
  exact ⟨hlt, fun x hx => ⟨hinside x hx, (h x (hinside x hx)).1⟩⟩

/-- It sees nothing of it whatever scopes are added. -/
theorem «extends» (h : t.Without root st) (hext : st.Extends st') : t.Without root st' := by
  obtain ⟨own, ht, hown⟩ := h
  refine ⟨own, ht, fun s hs => ?_⟩
  obtain ⟨hlt, hchain⟩ := hown s hs
  rw [hext.chain hlt]
  exact ⟨Nat.lt_of_lt_of_le hlt hext.size, hchain⟩

/-- **The steps of others.** A thread that sees nothing of the scope `root` leaves the variables
of this scope and of all inside it alone, and sees nothing of it after the step. -/
theorem step (hroot : root < w.store.scopes.size) (h : t.Without root w.store) :
    (t.step .standard w).2.Without root (t.step .standard w).1.store ∧
      ∀ s, root ∈ w.store.chain s → (t.step .standard w).1.store.vars s = w.store.vars s := by
  obtain ⟨own, ht, hown⟩ := h
  have hw : w.Twins (.outside root w.store, .outside root w.store) (Diagonal own) w :=
    ⟨rfl, .diagonal hown⟩
  obtain ⟨R, -, hworld, hthread⟩ := Thread.step_twin hw ht
  have hapart' := hworld.store.first
  -- `root` itself is foreign, so it is in no chain of the scopes that the thread has now.
  refine ⟨⟨_, hthread.diagonal, fun s hs => ⟨hapart'.there s ⟨s, hs⟩, fun u hu => ?_⟩⟩, ?_⟩
  · have huu : R u u := List.forall₂_same.mp (hworld.store.chain hs) u hu
    refine ⟨huu, ?_⟩
    rintro rfl
    exact hapart'.disjoint u ⟨u, huu⟩ ⟨hroot, List.mem_cons_self⟩
  · intro s hs
    have hlt : s < w.store.scopes.size := by
      by_contra hge
      rw [Store.chain, Store.outer, Array.getElem?_eq_none (Nat.not_lt.mp hge),
        List.mem_singleton] at hs
      exact hge (hs ▸ hroot)
    exact (hapart'.foreign s ⟨hlt, hs⟩).2

end Thread.Without

/-- In the course of an isolated handler another thread may take a step at any time, if it sees
nothing of the scope of the handler. -/
theorem Reaction.Course.others_step {r : Reaction} {e : Event} {turns : List Turn} {w v : World}
    {t u : Thread} (hr : r.isolated = true) (h : r.Course .standard w e turns v t)
    (hu : u.Without w.store.scopes.size v.store) :
    r.Course .standard w e (.others (fun _ => (u.step .standard v).1) :: turns)
      (u.step .standard v).1 t ∧
    (u.step .standard v).2.Without w.store.scopes.size (u.step .standard v).1.store := by
  obtain ⟨R, hroot, hw, -⟩ := twins hr rfl h h
  obtain ⟨hwithout, hkept⟩ := hu.step (hw.store.first.there _ ⟨_, hroot⟩)
  exact ⟨h.others _ rfl (u.step_extends v) hkept, hwithout⟩

end TabPilot
