import TabPilot.Proofs.Run.Blocks
import TabPilot.Proofs.Scope.LoopVariables

set_option autoImplicit false

/-! # Steps of a loop

A thread that is in a loop is outside of its body or inside. This and the number of runs so far
determine what the loop has kept for itself (`Loop.Outside`, `Loop.Inside`): how often it still has
to run its body or which items are left, its scope and its counter. `Outside.step` and
`Inside.step` say what one step comes to, and `Starts.started` what is in the scope of the loop
when a run of the body starts. Nothing that the body does plays a part in that.
-/

namespace TabPilot

namespace Thread

/-- Whether a run of the body of the loop above `base` is under way. -/
def InBody (base : List Frame) (t : Thread) : Prop :=
  ∃ above l, t.frames = above ++ .body l :: base

/-- Whether the loop above `base` goes on or ends in the next step. -/
def AtTurn (base : List Frame) (t : Thread) : Prop := t.frames = base ∧ ∃ l, t.focus = .loop l

/-- Whether a run of the body of the loop above `base` starts in the next step. -/
structure StartsRun (base : List Frame) (w : World) (t : Thread) : Prop where
  on : ¬ t.HasLeft base
  outside : ¬ t.InBody base
  inside : (t.step .standard w).2.InBody base

end Thread

/-- Whether the loop goes on after a run of its body that has ended so. -/
def Flow.GoesOn : Flow → Prop
  | .normal => True
  | .jump kind levels _ => kind = .continue ∧ levels ≤ 1

/-! ## Runs and what is left -/

namespace LoopState

/-- What is left after `k` runs of the body. -/
def after (first : LoopState) (k : Nat) : LoopState :=
  match first with
  | .counted n => .counted (n - k)
  | .over targets items => .over targets (items.drop k)
  | other => other

def runs? : LoopState → Option Nat
  | .counted n => some n
  | .over _ items => some items.length
  | _ => none

/-- Whether a loop may come to `k` runs of its body. -/
def Allows (first : LoopState) (k : Nat) : Prop := ∀ n, first.runs? = some n → k ≤ n

variable {first : LoopState} {k : Nat}

theorem after_zero (first : LoopState) : first.after 0 = first := by
  cases first <;> rfl

theorem after_of_open (h : first.runs? = none) : first.after k = first := by
  cases first <;> first | rfl | cases h

theorem allows_zero (first : LoopState) : first.Allows 0 := fun _ _ => Nat.zero_le _

theorem allows_of_open (h : first.runs? = none) : first.Allows k := by
  intro n hn
  rw [h] at hn
  cases hn

end LoopState

namespace Loop

/-! The loop has the body `body` and the scope `inner`, and `base` is to be done after it. It has
begun in one of the states `firsts`. -/

variable (firsts : LoopState → Prop) (body : List Statement) (inner : ScopeId) (base : List Frame)

/-- A thread that is in a loop, but not in its body, after `k` runs of the body. -/
inductive Outside : Nat → Thread → Prop
  | source {targets : List Target} {above : List Frame} {t : Thread}
      (h : ∀ items, firsts (.over targets items))
      (frames : t.frames = above ++ .source targets body inner :: base) : Outside 0 t
  | turn {first : LoopState} {k : Nat} (h : firsts first) (allows : first.Allows k) :
      Outside k ⟨.loop ⟨first.after k, body, inner, k⟩, base⟩
  | testing {first : LoopState} {k : Nat} {above : List Frame} {t : Thread} (h : firsts first)
      (unsettled : first.runs? = none)
      (frames : t.frames = above ++ .loopTest ⟨first, body, inner, k⟩ :: base) : Outside k t
  | clause {first : LoopState} {k : Nat} {above : List Frame} {t : Thread} (h : firsts first)
      (unsettled : first.runs? = none)
      (frames : t.frames = above ++ .clause ⟨first, body, inner, k⟩ :: base) : Outside k t

/-- A thread that is in the last of `k` runs of the body of a loop. What the loop has left counts
this run already; its counter, like `index`, is one behind until the run has ended. -/
inductive Inside : Nat → Thread → Prop
  | mk {first : LoopState} {k : Nat} {above : List Frame} {t : Thread} (h : firsts first)
      (allows : first.Allows (k + 1))
      (frames : t.frames = above ++ .body ⟨first.after (k + 1), body, inner, k⟩ :: base) :
      Inside (k + 1) t

/-- How a thread `t` may leave a loop after `k` runs of the body: by a jump or a failure, or when
all runs that were settled have been made. -/
inductive Leaves (k : Nat) (t : Thread) : Thread → Prop
  | jump {f f' : Flow} (h : t.focus = .flow f) (out : ¬ f.GoesOn) : Leaves k t ⟨.flow f', base⟩
  | failed {e : Fault} : Leaves k t ⟨.failed e, base⟩
  | done {first : LoopState} (h : firsts first) (all : ∀ n, first.runs? = some n → k = n) :
      Leaves k t ⟨.flow .normal, base⟩

/-- What precedes the run number `k` of a body: the targets of the loop are bound, if it has any. -/
def Prepares (k : Nat) (w w' : World) : LoopState → Prop
  | .over targets items => ∃ item, items[k]? = some item ∧
      (w.changeStore fun st => st.bindItem inner targets item) = (w', none)
  | _ => w' = w

/-- Whether the next step of a thread starts the run number `k` of the body. -/
def Starts (k : Nat) (w : World) (t : Thread) : Prop :=
  ∃ first w', firsts first ∧ first.Allows (k + 1) ∧ Prepares inner k w w' first ∧
    t.step .standard w =
      Thread.after base (w'.enterBody ⟨first.after (k + 1), body, inner, k⟩)

variable {firsts body inner base} {k : Nat} {t : Thread} {w : World} {whole : List Statement}

theorem prepares_of_open {first : LoopState} (h : first.runs? = none) :
    Prepares inner k w w first := by
  cases first <;> first | rfl | cases h

/-- Only one frame lies directly above the others. -/
theorem eq_of_append_cons {above above' : List Frame} {frame frame' : Frame}
    (h : above ++ frame :: base = above' ++ frame' :: base) : frame = frame' := by
  have hcons : (above ++ [frame]) ++ base = (above' ++ [frame']) ++ base := by
    rw [List.append_assoc, List.append_assoc]
    exact h
  exact (List.cons.inj (List.append_inj' (List.append_cancel_right hcons) rfl).2).1

theorem append_cons_ne (above : List Frame) (frame : Frame) : above ++ frame :: base ≠ base := by
  intro h
  have hlength := congrArg List.length h
  simp only [List.length_append, List.length_cons] at hlength
  omega

theorem Outside.not_inBody (h : Outside firsts body inner base k t) : ¬ t.InBody base := by
  rintro ⟨above', l, hbody⟩
  cases h with
  | source _ hframes => cases eq_of_append_cons (hframes.symm.trans hbody)
  | turn => exact append_cons_ne _ _ hbody.symm
  | testing _ _ hframes => cases eq_of_append_cons (hframes.symm.trans hbody)
  | clause _ _ hframes => cases eq_of_append_cons (hframes.symm.trans hbody)

theorem Inside.inBody (h : Inside firsts body inner base k t) : t.InBody base := by
  cases h with
  | mk _ _ hframes => exact ⟨_, _, hframes⟩

theorem Outside.not_hasLeft (h : Outside firsts body inner base k t) : ¬ t.HasLeft base := by
  rintro ⟨hbase, hfocus⟩
  cases h with
  | source _ hframes => exact append_cons_ne _ _ (hframes.symm.trans hbase)
  | turn => rcases hfocus with ⟨f, hf⟩ | ⟨e, he⟩ <;> contradiction
  | testing _ _ hframes => exact append_cons_ne _ _ (hframes.symm.trans hbase)
  | clause _ _ hframes => exact append_cons_ne _ _ (hframes.symm.trans hbase)

theorem Inside.not_hasLeft (h : Inside firsts body inner base k t) : ¬ t.HasLeft base := by
  rintro ⟨hbase, -⟩
  cases h with
  | mk _ _ hframes => exact append_cons_ne _ _ (hframes.symm.trans hbase)

theorem Leaves.hasLeft {t' : Thread} (h : Leaves firsts base k t t') : t'.HasLeft base := by
  cases h with
  | jump => exact ⟨rfl, .inl ⟨_, rfl⟩⟩
  | failed => exact ⟨rfl, .inr ⟨_, rfl⟩⟩
  | done => exact ⟨rfl, .inl ⟨_, rfl⟩⟩

theorem Leaves.of_failed {t' : Thread} (h : ∃ e, t' = ⟨.failed e, base⟩) :
    Leaves firsts base k t t' := by
  obtain ⟨e, rfl⟩ := h
  exact .failed

/-! ## Steps outside of the body -/

/-- A loop that has made all runs that were settled ends at its turn. -/
theorem turn_ends {first : LoopState} (hruns : first.runs? = some k) (w : World) :
    Thread.step .standard w ⟨.loop ⟨first.after k, body, inner, k⟩, base⟩ =
      (w, ⟨.flow .normal, base⟩) := by
  have hstate : first.after k = .counted 0 ∨ ∃ targets, first.after k = .over targets [] := by
    cases first with
    | counted n =>
        obtain rfl := Option.some.inj hruns
        exact .inl (by rw [LoopState.after, Nat.sub_self])
    | «over» targets items =>
        obtain rfl := Option.some.inj hruns
        exact .inr ⟨targets, by rw [LoopState.after, List.drop_length]⟩
    | _ => cases hruns
  rcases hstate with hstate | ⟨targets, hstate⟩
  · rw [hstate]
    rfl
  · rw [hstate]
    rfl

/-- A loop that has not made them all starts another run, or cannot bind its targets. -/
theorem turn_starts {first : LoopState} {n : Nat} (h : firsts first)
    (hruns : first.runs? = some n) (hlt : k < n) (w : World) :
    let t : Thread := ⟨.loop ⟨first.after k, body, inner, k⟩, base⟩
    Starts firsts body inner base k w t ∨
      Leaves firsts base k t (t.step .standard w).2 ∧ ∃ targets items item,
        first = .over targets items ∧ (w.store.bindItem inner targets item).2 ≠ none := by
  intro t
  have hallows : first.Allows (k + 1) := by
    intro m hm
    obtain rfl := Option.some.inj (hruns.symm.trans hm)
    exact hlt
  cases first with
  -- What is left after `k` runs is one run and the rest, with a count as with items.
  | counted n =>
      obtain rfl := Option.some.inj hruns
      have hstate : (LoopState.counted n).after k = .counted (n - (k + 1) + 1) := by
        rw [LoopState.after, Nat.sub_add_eq, Nat.sub_add_cancel (by omega)]
      refine .inl ⟨.counted n, w, h, hallows, rfl, ?_⟩
      show Thread.step .standard w ⟨.loop ⟨_, body, inner, k⟩, base⟩ = _
      rw [hstate]
      rfl
  | «over» targets items =>
      obtain rfl := Option.some.inj hruns
      have hstate : (LoopState.over targets items).after k =
          .over targets (items[k] :: items.drop (k + 1)) := by
        rw [LoopState.after, List.drop_eq_getElem_cons hlt]
      have hstep : t.step .standard w =
          Thread.after base (w.iterate
            ⟨.over targets (items[k] :: items.drop (k + 1)), body, inner, k⟩) := by
        show Thread.step .standard w ⟨.loop ⟨_, body, inner, k⟩, base⟩ = _
        rw [hstate]
        rfl
      -- Only the binding of the item can fail, and then the loop is left.
      cases hbind : w.changeStore fun st => st.bindItem inner targets items[k] with
      | mk w' failure =>
          cases failure with
          | some e =>
              have hfailure : (w.store.bindItem inner targets items[k]).2 = some e :=
                congrArg (fun r => r.2) hbind
              refine .inr ⟨?_, targets, items, items[k], rfl, by rw [hfailure]; exact nofun⟩
              rw [hstep]
              simp only [World.iterate, hbind]
              exact .failed
          | none =>
              refine .inl ⟨.over targets items, w', h, hallows, ⟨items[k], ?_, hbind⟩, ?_⟩
              · exact List.getElem?_eq_getElem hlt
              · rw [hstep]
                simp only [World.iterate, hbind]
                rfl
  | _ => cases hruns

/-- At its turn a loop ends, fails, tests its condition or starts a run of its body. -/
theorem turn_step {first : LoopState} (h : firsts first) (allows : first.Allows k) (w : World) :
    let t : Thread := ⟨.loop ⟨first.after k, body, inner, k⟩, base⟩
    Outside firsts body inner base k (t.step .standard w).2 ∨
      Leaves firsts base k t (t.step .standard w).2 ∨ Starts firsts body inner base k w t := by
  intro t
  cases hruns : first.runs? with
  | some n =>
      rcases Nat.lt_or_eq_of_le (allows n hruns) with hlt | rfl
      · exact .inr ((turn_starts h hruns hlt w).symm.imp_left And.left)
      · have hends : t.step .standard w = (w, ⟨.flow .normal, base⟩) := turn_ends hruns w
        rw [hends]
        refine .inr (.inl (.done h fun n hn => ?_))
        exact Option.some.inj (hruns.symm.trans hn)
  | none =>
      cases first with
      | forever => exact .inr (.inr ⟨.forever, w, h, LoopState.allows_of_open rfl, rfl, rfl⟩)
      | whilst test => exact .inl (.testing h rfl (List.nil_append _).symm)
      | bounded test next => exact .inl (.testing h rfl (List.nil_append _).symm)
      | _ => cases hruns

theorem Outside.first {first : LoopState} (h : firsts first) :
    Outside firsts body inner base 0 ⟨.loop ⟨first, body, inner, 0⟩, base⟩ := by
  have hturn : Outside firsts body inner base 0 ⟨.loop ⟨first.after 0, body, inner, 0⟩, base⟩ :=
    .turn h first.allows_zero
  rwa [LoopState.after_zero] at hturn

theorem overItems_outside {targets : List Target} {v : Value}
    (h : ∀ items, v.items = .ok items → firsts (.over targets items)) (w : World) :
    let r := Thread.after base (w.overItems targets body inner v)
    Outside firsts body inner base 0 r.2 ∨ ∃ e, r.2 = ⟨.failed e, base⟩ := by
  intro r
  simp only [r, World.overItems]
  split
  · next items hitems => exact .inl (.first (h items hitems))
  · exact .inr ⟨_, rfl⟩

theorem runClause_outside {test : Condition} {next : Clause} (h : firsts (.bounded test next))
    (clause : Clause) (k : Nat) (w : World) :
    let r := Thread.after base (w.runClause ⟨.bounded test next, body, inner, k⟩ clause)
    Outside firsts body inner base k r.2 ∨ ∃ e, r.2 = ⟨.failed e, base⟩ := by
  intro r
  cases clause with
  | command c p => exact .inl (.clause h rfl (List.nil_append _).symm)
  | assignment a =>
      simp only [r, World.runClause]
      split
      · exact .inr ⟨_, rfl⟩
      · exact .inl (.turn h (LoopState.allows_of_open rfl))

/-- **A step outside of the body** stays outside, leaves the loop or starts a run of the body. -/
theorem Outside.step (h : Outside firsts body inner base k t)
    (hfits : Nesting.Fits whole t.frames t.focus) (w : World) :
    Outside firsts body inner base k (t.step .standard w).2 ∨
      Leaves firsts base k t (t.step .standard w).2 ∨ Starts firsts body inner base k w t := by
  cases h with
  -- While something stands above the frame of the loop, the frame stays; when it is on top, what
  -- comes back to it is what `Nesting.Fits` says that it takes, or a failure.
  | source h hframes =>
      rcases Thread.frames_step_above .standard w hframes with
        ⟨above', habove⟩ | ⟨focus, rfl, hends⟩
      · exact .inl (.source h habove)
      · have htakes := hfits.takes hends
        cases focus with
        | value v =>
            refine (overItems_outside ?_ w).imp_right fun hfailed => .inl (.of_failed hfailed)
            exact fun items _ => h items
        | failed e => exact .inr (.inl .failed)
        | _ => exact False.elim htakes
  | turn h allows => exact turn_step h allows w
  | @testing first k above t h unsettled hframes =>
      rcases Thread.frames_step_above .standard w hframes with
        ⟨above', habove⟩ | ⟨focus, rfl, hends⟩
      · exact .inl (.testing h unsettled habove)
      · have htakes := hfits.takes hends
        cases focus with
        | truth b =>
            cases b with
            | true =>
                refine .inr (.inr ⟨first, w, h, LoopState.allows_of_open unsettled, ?_, ?_⟩)
                · exact prepares_of_open unsettled
                · rw [LoopState.after_of_open unsettled]
                  rfl
            | false =>
                refine .inr (.inl (.done h fun n hn => ?_))
                rw [unsettled] at hn
                cases hn
        | failed e => exact .inr (.inl .failed)
        | _ => exact False.elim htakes
  | @clause first k above t h unsettled hframes =>
      rcases Thread.frames_step_above .standard w hframes with
        ⟨above', habove⟩ | ⟨focus, rfl, hends⟩
      · exact .inl (.clause h unsettled habove)
      · have htakes := hfits.takes hends
        cases focus with
        | value v =>
            have hturn : Outside firsts body inner base k
                ⟨.loop ⟨first.after k, body, inner, k⟩, base⟩ :=
              .turn h (LoopState.allows_of_open unsettled)
            rw [LoopState.after_of_open unsettled] at hturn
            exact .inl hturn
        | failed e => exact .inr (.inl .failed)
        | _ => exact False.elim htakes

/-! ## Steps in the body -/

theorem step_flow (w : World) (f : Flow) (frame : Frame) (frames : List Frame) :
    Thread.step .standard w ⟨.flow f, frame :: frames⟩ =
      Thread.after frames (w.afterFlow f frame) := rfl

theorem afterFlow_of_goesOn {f : Flow} (h : f.GoesOn) (w : World) (l : LoopRun) :
    w.afterFlow f (.body l) = w.afterBody l := by
  cases f with
  | normal => rfl
  | jump kind levels p =>
      obtain ⟨rfl, hlevels⟩ := h
      simp only [World.afterFlow, if_neg (Nat.not_lt.mpr hlevels)]

theorem afterFlow_of_not_goesOn {f : Flow} (h : ¬ f.GoesOn) (w : World) (l : LoopRun) :
    ∃ f', w.afterFlow f (.body l) = (w, .flow f', []) := by
  cases f with
  | normal => exact absurd trivial h
  | jump kind levels p =>
      by_cases hlevels : 1 < levels
      · exact ⟨_, if_pos hlevels⟩
      · cases kind with
        | «break» => exact ⟨_, if_neg hlevels⟩
        | «continue» => exact absurd ⟨rfl, Nat.not_lt.mp hlevels⟩ h

theorem afterBody_outside {first : LoopState} (h : firsts first) (allows : first.Allows (k + 1))
    (w : World) :
    let r := Thread.after base (w.afterBody ⟨first.after (k + 1), body, inner, k⟩)
    Outside firsts body inner base (k + 1) r.2 ∨ ∃ e, r.2 = ⟨.failed e, base⟩ := by
  cases first with
  | bounded test next => exact runClause_outside h next (k + 1) w
  | _ => exact .inl (.turn h allows)

/-- **A step in the body** stays there, ends the run or leaves the loop. -/
theorem Inside.step (h : Inside firsts body inner base k t)
    (hfits : Nesting.Fits whole t.frames t.focus) (w : World) :
    Inside firsts body inner base k (t.step .standard w).2 ∨
      Outside firsts body inner base k (t.step .standard w).2 ∨
      Leaves firsts base k t (t.step .standard w).2 := by
  cases h with
  | @mk first k above t h allows hframes =>
      rcases Thread.frames_step_above .standard w hframes with
        ⟨above', habove⟩ | ⟨focus, rfl, hends⟩
      · exact .inl (.mk h allows habove)
      · right
        have htakes := hfits.takes hends
        cases focus with
        | flow f =>
            rw [step_flow]
            by_cases hgoes : f.GoesOn
            · rw [afterFlow_of_goesOn hgoes]
              exact (afterBody_outside h allows w).imp_right .of_failed
            · obtain ⟨f', hf'⟩ := afterFlow_of_not_goesOn hgoes w
                ⟨first.after (k + 1), body, inner, k⟩
              rw [hf']
              exact .inr (.jump rfl hgoes)
        | failed e => exact .inr .failed
        | _ => exact False.elim htakes

/-! ## Beginning -/

/-- Whether a loop of the given mode can begin in the states `firsts` only, with what it reads in
its scope at the beginning. -/
def Opens (firsts : LoopState → Prop) (read : Path → Option Value) : LoopMode → Prop
  | .infinite => firsts .forever
  | .count times => ∀ n, (times.eval read).bind Value.loopCount = .ok n → firsts (.counted n)
  | .whilst test => firsts (.whilst test)
  | .bounded _ test next => firsts (.bounded test next)
  | .items targets (.variable x) => ∀ path items, x.path read = .ok path →
      ((read path).getD .null).items = .ok items → firsts (.over targets items)
  | .items targets (.command _) => ∀ items, firsts (.over targets items)

theorem beginLoop_outside {mode : LoopMode} (h : Opens firsts (w.read inner) mode) :
    let r := Thread.after base (w.beginLoop inner mode body)
    Outside firsts body inner base 0 r.2 ∨ ∃ e, r.2 = ⟨.failed e, base⟩ := by
  intro r
  cases mode with
  | infinite => exact .inl (.first h)
  | whilst test => exact .inl (.first h)
  | bounded init test next => exact runClause_outside h init 0 w
  | count times =>
      simp only [r, World.beginLoop]
      split
      · next n hn => exact .inl (.first (h n hn))
      · exact .inr ⟨_, rfl⟩
  | items targets source =>
      cases source with
      | command c => exact .inl (.source h (List.nil_append _).symm)
      | «variable» x =>
          simp only [r, World.beginLoop]
          split
          · next path hpath => exact overItems_outside (fun items => h path items hpath) w
          · exact .inr ⟨_, rfl⟩

/-! ## What a turn writes -/

theorem iterate_sameBeside (w : World) (l : LoopRun) :
    Store.SameBeside l.scope w.store (w.iterate l).1.store := by
  have hindex (w : World) (state : LoopState) : Store.SameBeside l.scope w.store
      (w.enterBody { l with state }).1.store := Store.setIndex_sameBeside _ _ _
  unfold World.iterate
  split
  · exact Store.setIndex_sameBeside _ _ _
  · exact .refl _ _
  · exact hindex w _
  · exact .refl _ _
  · next targets item rest _ =>
      have hbind : Store.SameBeside l.scope w.store
          (w.changeStore fun st => st.bindItem l.scope targets item).1.store :=
        Store.bindItem_sameBeside _ _ _ _
      split
      · next heq => rwa [heq] at hbind
      · next heq =>
          rw [heq] at hbind
          exact hbind.trans (hindex _ _)
  · exact Store.setIndex_sameBeside _ _ _
  · exact Store.setIndex_sameBeside _ _ _

theorem Prepares.bound {first : LoopState} {w' : World} (h : Prepares inner k w w' first) :
    Store.SameBeside inner w.store w'.store ∧ w.store.Extends w'.store ∧
      ∀ targets items, first = .over targets items → ∃ item, items[k]? = some item ∧
        w'.store = (w.store.bindItem inner targets item).1 := by
  cases first with
  | «over» targets items =>
      obtain ⟨item, hitem, hbind⟩ := h
      have hstore : w'.store = (w.store.bindItem inner targets item).1 :=
        congrArg (fun r => r.1.store) hbind.symm
      refine ⟨?_, ?_, ?_⟩
      · rw [hstore]
        exact Store.bindItem_sameBeside _ _ _ _
      · rw [hstore]
        exact (Store.bindItem_changesFrom (Nat.zero_le inner) _ _).extends
      · rintro _ _ ⟨⟩
        exact ⟨item, hitem, hstore⟩
  | _ =>
      obtain rfl : w' = w := h
      exact ⟨.refl _ _, .refl _, nofun⟩

theorem Starts.sameBeside (h : Starts firsts body inner base k w t) :
    Store.SameBeside inner w.store (t.step .standard w).1.store := by
  obtain ⟨first, w', -, -, hprepares, hstep⟩ := h
  rw [hstep]
  exact hprepares.bound.1.trans (Store.setIndex_sameBeside w'.store inner k)

/-- Whether in the scope `inner` the run number `k` of a body can start: the counter is `k`, and
different targets are bound to the parts of the item number `k`. -/
def Started (firsts : LoopState → Prop) (inner : ScopeId) (k : Nat) (w : World) : Prop :=
  (w.store.vars inner).get? "index" = some (.int k) ∧
    ∃ first, firsts first ∧ ∀ targets items, first = .over targets items →
      Target.Distinct targets → ∃ item, items[k]? = some item ∧
        (w.store.vars inner).Holds targets (item.parts targets)

theorem Starts.started (h : Starts firsts body inner base k w t)
    (hs : inner < w.store.scopes.size) : Started firsts inner k (t.step .standard w).1 := by
  obtain ⟨first, w', hfirst, -, hprepares, hstep⟩ := h
  obtain ⟨-, hext, hitem⟩ := hprepares.bound
  have hvars : (t.step .standard w).1.store.vars inner =
      (w'.store.vars inner).insert "index" (.int k) := by
    rw [hstep]
    exact Store.vars_setIndex (Nat.lt_of_lt_of_le hs hext.size) k
  rw [Started, hvars]
  refine ⟨by simp, first, hfirst, fun targets items heq distinct => ?_⟩
  obtain ⟨item, hmem, hstore⟩ := hitem targets items heq
  have hholds := (Store.bindItem_holds hs distinct item).2
  rw [← hstore] at hholds
  exact ⟨item, hmem, hholds.counter distinct _⟩

theorem Starts.startsRun (h : Starts firsts body inner base k w t)
    (houtside : Outside firsts body inner base k t) : t.StartsRun base w := by
  obtain ⟨first, w', -, -, -, hstep⟩ := h
  refine ⟨houtside.not_hasLeft, houtside.not_inBody, ?_⟩
  rw [hstep]
  exact ⟨[], _, rfl⟩

theorem Starts.inside (h : Starts firsts body inner base k w t) :
    Inside firsts body inner base (k + 1) (t.step .standard w).2 := by
  obtain ⟨first, w', hfirst, hallows, -, hstep⟩ := h
  rw [hstep]
  exact .mk hfirst hallows (List.nil_append _).symm

end Loop

end TabPilot
