import TabPilot.Proofs.Run.LoopScopes
import TabPilot.Proofs.Run.LoopSteps

set_option autoImplicit false

/-! # The runs of the body of a loop

`Thread.Laps` is the course of a thread in a loop, whatever others do meanwhile; it records the
worlds in which the runs of the body start. `Loop.Standing` says where the thread stands after so
many runs, and every step keeps it. `Thread.Reaches.runs_of_loop` puts together what is in the scope
of the loop when a run starts, what the loop writes elsewhere, and how many runs there are.
-/

namespace TabPilot

namespace Thread

/-- How a thread goes on in a loop until it comes back to `base`, whatever others do meanwhile.
The list holds the worlds in which the runs of the body have started. -/
inductive Laps (base : List Frame) (w : World) (t : Thread) : List World → World → Thread → Prop
  | here : Laps base w t [] w t
  | start {starts : List World} {w' : World} {t' : Thread} (h : Laps base w t starts w' t')
      (run : t'.StartsRun base w') :
      Laps base w t (starts ++ [(t'.step .standard w').1]) (t'.step .standard w').1
        (t'.step .standard w').2
  | step {starts : List World} {w' : World} {t' : Thread} (h : Laps base w t starts w' t')
      (on : ¬ t'.HasLeft base) (run : ¬ t'.StartsRun base w') :
      Laps base w t starts (t'.step .standard w').1 (t'.step .standard w').2
  | meanwhile {starts : List World} {w' w'' : World} {t' : Thread}
      (h : Laps base w t starts w' t') (keeps : w'.KeepsScopes w'') :
      Laps base w t starts w'' t'

/-- Whether a thread begins a loop over `body` in the next step, in the scope `inner` and with
`base` to be done after it: the loop is its next statement, or the items of the loop have come
from a command. -/
inductive Begins (body : List Statement) : ScopeId → List Frame → World → Thread → Prop
  | statement {mode : LoopMode} {p : Position} {rest : List Statement} {s : ScopeId}
      {frames : List Frame} {w : World} :
      Begins body w.store.scopes.size (.statements p rest s :: frames) w
        ⟨.run (.loop mode body p :: rest) s, frames⟩
  | result {targets : List Target} {inner : ScopeId} {base : List Frame} {w : World} {v : Value} :
      Begins body inner base w ⟨.value v, .source targets body inner :: base⟩

/-- Whether the loop with a count that a thread is about to begin has the count `n`. -/
inductive Counts (n : Nat) : World → Thread → Prop
  | mk {times : Expr} {body : List Statement} {p : Position} {rest : List Statement} {s : ScopeId}
      {frames : List Frame} {w : World}
      (h : times.eval ((w.child s).1.read (w.child s).2) = .ok (.int n)) :
      Counts n w ⟨.run (.loop (.count times) body p :: rest) s, frames⟩

/-- Whether the loop with targets that a thread is about to begin goes through the value `v`: what
is found at the path of its variable, or what its command has given. -/
inductive GoesThrough (targets : List Target) : Value → World → Thread → Prop
  | «variable» {x : Variable} {path : Path} {body : List Statement} {p : Position}
      {rest : List Statement} {s : ScopeId} {frames : List Frame} {w : World}
      (h : x.path ((w.child s).1.read (w.child s).2) = .ok path) :
      GoesThrough targets (((w.child s).1.read (w.child s).2 path).getD .null) w
        ⟨.run (.loop (.items targets (.variable x)) body p :: rest) s, frames⟩
  | command {body : List Statement} {inner : ScopeId} {base : List Frame} {w : World} {v : Value} :
      GoesThrough targets v w ⟨.value v, .source targets body inner :: base⟩

/-- Whether a loop that has started `k` runs of its body makes `n` runs in all. After a run the
loop comes to its turn, unless the run was ended by a jump out of the loop or a failure. At its
turn it starts another run as long as there are fewer, and ends normally when there are not. It is
left in no other way. -/
structure MakesRuns (base : List Frame) (n k : Nat) (w : World) (t : Thread) : Prop where
  le : k ≤ n
  again : ∀ l f, t.frames = .body l :: base → t.focus = .flow f → f.GoesOn →
    (t.step .standard w).2.AtTurn base
  next : t.AtTurn base → k < n → t.StartsRun base w
  last : t.AtTurn base → k = n → (t.step .standard w).2 = ⟨.flow .normal, base⟩
  leaving : ¬ t.HasLeft base → (t.step .standard w).2.HasLeft base →
    (∃ f, t.focus = .flow f ∧ ¬ f.GoesOn) ∨ (∃ e, (t.step .standard w).2.focus = .failed e) ∨
      k = n ∧ (t.step .standard w).2.focus = .flow .normal

end Thread

namespace Loop

variable {firsts : LoopState → Prop} {body : List Statement} {inner : ScopeId}
variable {base : List Frame} {k : Nat} {t : Thread} {w : World} {whole : List Statement}

/-! ## The whole course -/

/-- Whether a loop can come to `k` runs of its body, as far as they are settled. -/
def Within (firsts : LoopState → Prop) (k : Nat) : Prop :=
  k = 0 ∨ ∃ first, firsts first ∧ first.Allows k

/-- Where a thread is that has begun a loop, after `k` runs of the body. -/
inductive Standing (firsts : LoopState → Prop) (body : List Statement) (inner : ScopeId)
    (base : List Frame) (k : Nat) (t : Thread) : Prop
  | outside (h : Outside firsts body inner base k t)
  | inside (h : Inside firsts body inner base k t)
  | left (h : t.HasLeft base) (within : Within firsts k)

theorem Outside.within (h : Outside firsts body inner base k t) : Within firsts k := by
  cases h with
  | source => exact .inl rfl
  | turn h allows => exact .inr ⟨_, h, allows⟩
  | testing h unsettled => exact .inr ⟨_, h, LoopState.allows_of_open unsettled⟩
  | clause h unsettled => exact .inr ⟨_, h, LoopState.allows_of_open unsettled⟩

theorem Inside.within (h : Inside firsts body inner base k t) : Within firsts k := by
  cases h with
  | mk h allows => exact .inr ⟨_, h, allows⟩

theorem Standing.within (h : Standing firsts body inner base k t) : Within firsts k := by
  cases h with
  | outside h => exact h.within
  | inside h => exact h.within
  | left _ within => exact within

/-- A run of the body starts in the next step as described. -/
theorem Standing.starts (h : Standing firsts body inner base k t)
    (hfits : Nesting.Fits whole t.frames t.focus) (hrun : t.StartsRun base w) :
    Starts firsts body inner base k w t := by
  cases h with
  | outside h =>
      rcases h.step hfits w with hstep | hstep | hstep
      · exact absurd hrun.inside hstep.not_inBody
      · obtain ⟨hframes, -⟩ := hstep.hasLeft
        obtain ⟨above, l, hinside⟩ := hrun.inside
        exact absurd (hinside.symm.trans hframes) (append_cons_ne above _)
      · exact hstep
  | inside h => exact absurd h.inBody hrun.outside
  | left h => exact absurd h hrun.on

/-- Any other step starts no run. -/
theorem Standing.step (h : Standing firsts body inner base k t)
    (hfits : Nesting.Fits whole t.frames t.focus) (on : ¬ t.HasLeft base)
    (hrun : ¬ t.StartsRun base w) :
    Standing firsts body inner base k (t.step .standard w).2 := by
  cases h with
  | outside h =>
      rcases h.step hfits w with hstep | hstep | hstep
      · exact .outside hstep
      · exact .left hstep.hasLeft h.within
      · exact absurd (hstep.startsRun h) hrun
  | inside h =>
      rcases h.step hfits w with hstep | hstep | hstep
      · exact .inside hstep
      · exact .outside hstep
      · exact .left hstep.hasLeft h.within
  | left h => exact absurd h on

structure Holds (whole : List Statement) (firsts : LoopState → Prop) (body : List Statement)
    (inner : ScopeId) (base : List Frame) (starts : List World) (w : World) (t : Thread) :
    Prop where
  fits : Nesting.Fits whole t.frames t.focus
  there : inner < w.store.scopes.size
  standing : Standing firsts body inner base starts.length t
  started : ∀ k w₁, starts[k]? = some w₁ → Started firsts inner k w₁

theorem holds_of_laps {starts : List World} {w' : World} {t' : Thread}
    (h : Thread.Laps base w t starts w' t') (hholds : Holds whole firsts body inner base [] w t) :
    Holds whole firsts body inner base starts w' t' := by
  induction h with
  | here => exact hholds
  | @start starts w' t' _ hrun ih =>
      have hstarts := ih.standing.starts ih.fits hrun
      refine ⟨ih.fits.step .standard,
        Nat.lt_of_lt_of_le ih.there (t'.step_extends w').size, .inside ?_, fun k w₁ hw₁ => ?_⟩
      · rw [List.length_append]
        exact hstarts.inside
      · rcases Nat.lt_trichotomy k starts.length with hlt | rfl | hgt
        · rw [List.getElem?_append_left hlt] at hw₁
          exact ih.started k w₁ hw₁
        · rw [List.getElem?_concat_length] at hw₁
          obtain rfl := Option.some.inj hw₁
          exact hstarts.started ih.there
        · rw [List.getElem?_eq_none (by simp; omega)] at hw₁
          cases hw₁
  | @step starts w' t' _ on hrun ih =>
      exact ⟨ih.fits.step .standard, Nat.lt_of_lt_of_le ih.there (t'.step_extends w').size,
        ih.standing.step ih.fits on hrun, ih.started⟩
  | meanwhile _ keeps ih =>
      exact ⟨ih.fits, Nat.lt_of_lt_of_le ih.there keeps.size, ih.standing, ih.started⟩

/-! ## Beginning and ending -/

/-- Whether a loop that a thread is about to begin can begin in the states `firsts` only. -/
def Plans (firsts : LoopState → Prop) (w : World) (t : Thread) : Prop :=
  match t.focus, t.frames with
  | .run (.loop mode _ _ :: _) s, _ => Opens firsts ((w.child s).1.read (w.child s).2) mode
  | .value v, .source targets _ _ :: _ =>
      ∀ items, v.items = .ok items → firsts (.over targets items)
  | _, _ => False

theorem standing_of_begins (h : Thread.Begins body inner base w t) (hplans : Plans firsts w t) :
    Standing firsts body inner base 0 (t.step .standard w).2 := by
  have hbegun : Outside firsts body inner base 0 (t.step .standard w).2 ∨
      ∃ e, (t.step .standard w).2 = ⟨.failed e, base⟩ := by
    cases h with
    | statement => exact beginLoop_outside hplans
    | result => exact overItems_outside hplans w
  rcases hbegun with houtside | ⟨e, he⟩
  · exact .outside houtside
  · rw [he]
    exact .left ⟨rfl, .inr ⟨e, rfl⟩⟩ (.inl rfl)

/-- A loop begins in a scope that is there and is not the scope of a loop around it. -/
theorem scope_of_begins (h : Thread.Begins body inner base w t) (hapart : t.LoopsApart w) :
    inner < (t.step .standard w).1.store.scopes.size ∧ ∀ l, .body l ∈ base → l.scope ≠ inner := by
  have hmem {frames : List Frame} {l : LoopRun} (hl : .body l ∈ frames) :
      l.scope ∈ frames.filterMap Frame.loopScope? := List.mem_filterMap.mpr ⟨_, hl, rfl⟩
  cases h with
  | @statement mode p rest s frames =>
      refine ⟨World.size_lt_begin_loop w s mode body p, fun l hl => Nat.ne_of_lt ?_⟩
      exact hapart.there _ (hmem ((List.mem_cons.mp hl).resolve_left nofun))
  | result =>
      have hnested := hapart.nested
      rw [Thread.loopScopes_cons rfl] at hnested
      refine ⟨Nat.lt_of_lt_of_le (hapart.there inner ?_) (Thread.step_extends w _).size,
        fun l hl => Nat.ne_of_lt ((List.pairwise_cons.mp hnested).1 _ (hmem hl))⟩
      rw [Thread.loopScopes_cons rfl]
      exact List.mem_cons_self

theorem plans_anything (h : Thread.Begins body inner base w t) : Plans (fun _ => True) w t := by
  cases h with
  | @statement mode =>
      cases mode with
      | infinite | whilst test => exact trivial
      | bounded init test next => exact trivial
      | count times => exact fun _ _ => trivial
      | items targets source =>
          cases source with
          | command c => exact fun _ => trivial
          | «variable» x => exact fun _ _ _ _ => trivial
  | result => exact fun _ _ => trivial

theorem loopCount_eq_ok_iff {v : Value} {n : Nat} : v.loopCount = .ok n ↔ v = .int n := by
  constructor
  · intro h
    unfold Value.loopCount at h
    split at h
    · next hn =>
        cases h
        exact Value.unsigned?_eq_some_iff.mp hn
    · cases h
  · intro h
    rw [Value.loopCount, Value.unsigned?_eq_some_iff.mpr h]

theorem bind_loopCount {times : Expr} {read : Path → Option Value} {n : Nat}
    (h : times.eval read = .ok (.int n)) : (times.eval read).bind Value.loopCount = .ok n := by
  rw [h]
  exact loopCount_eq_ok_iff.mpr rfl

theorem plans_counted {n : Nat} (h : t.Counts n w) : Plans (· = .counted n) w t := by
  obtain ⟨h⟩ := h
  intro m hm
  rw [Except.ok.inj (hm.symm.trans (bind_loopCount h))]

theorem plans_over {targets : List Target} {v : Value} {items : List Value}
    (h : t.GoesThrough targets v w) (hitems : v.items = .ok items) :
    Plans (· = .over targets items) w t := by
  cases h with
  | «variable» hpath =>
      intro path' items' hpath' hitems'
      obtain rfl := Except.ok.inj (hpath'.symm.trans hpath)
      rw [Except.ok.inj (hitems'.symm.trans hitems)]
  | command =>
      intro items' hitems'
      rw [Except.ok.inj (hitems'.symm.trans hitems)]

/-- A loop comes to its first turn at once when its count is known. -/
theorem turn_of_counts {n : Nat} (h : Thread.Begins body inner base w t) (hn : t.Counts n w) :
    (t.step .standard w).2.AtTurn base := by
  obtain ⟨hcount⟩ := hn
  cases h with
  | statement =>
      simp only [Thread.step, World.begin, World.beginLoop, bind_loopCount hcount]
      exact ⟨rfl, _, rfl⟩

theorem turn_of_goesThrough {targets : List Target} {v : Value} {items : List Value}
    (h : Thread.Begins body inner base w t) (hgoes : t.GoesThrough targets v w)
    (hitems : v.items = .ok items) : (t.step .standard w).2.AtTurn base := by
  cases hgoes with
  | «variable» hpath =>
      cases h with
      | statement =>
          simp only [Thread.step, World.begin, World.beginLoop, hpath, World.overItems, hitems]
          exact ⟨rfl, _, rfl⟩
  | command =>
      cases h with
      | result =>
          simp only [Thread.step, World.afterValue, World.overItems, hitems]
          exact ⟨rfl, _, rfl⟩

/-- A thread at the turn of a loop knows what is left. -/
theorem Standing.at_turn (h : Standing firsts body inner base k t) (hturn : t.AtTurn base) :
    ∃ first, firsts first ∧ t = ⟨.loop ⟨first.after k, body, inner, k⟩, base⟩ := by
  obtain ⟨hbase, l, hl⟩ := hturn
  cases h with
  | outside h =>
      cases h with
      | source _ hframes => exact absurd (hframes.symm.trans hbase) (append_cons_ne _ _)
      | turn h => exact ⟨_, h, rfl⟩
      | testing _ _ hframes => exact absurd (hframes.symm.trans hbase) (append_cons_ne _ _)
      | clause _ _ hframes => exact absurd (hframes.symm.trans hbase) (append_cons_ne _ _)
  | inside h =>
      obtain ⟨-, -, hframes⟩ := h
      exact absurd (hframes.symm.trans hbase) (append_cons_ne _ _)
  | left h =>
      obtain ⟨-, ⟨f, hf⟩ | ⟨e, he⟩⟩ := h
      · cases hl.symm.trans hf
      · cases hl.symm.trans he

/-- The turn of a loop writes in the scope of the loop only. -/
theorem Standing.turn_sameBeside (h : Standing firsts body inner base k t)
    (hturn : t.AtTurn base) :
    Store.SameBeside inner w.store (t.step .standard w).1.store := by
  obtain ⟨first, -, rfl⟩ := h.at_turn hturn
  exact iterate_sameBeside w ⟨first.after k, body, inner, k⟩

theorem Standing.leaves (h : Standing firsts body inner base k t)
    (hfits : Nesting.Fits whole t.frames t.focus) (on : ¬ t.HasLeft base)
    (hleft : (t.step .standard w).2.HasLeft base) :
    Leaves firsts base k t (t.step .standard w).2 := by
  cases h with
  | outside h =>
      rcases h.step hfits w with hstep | hstep | hstep
      · exact absurd hleft hstep.not_hasLeft
      · exact hstep
      · exact absurd hleft hstep.inside.not_hasLeft
  | inside h =>
      rcases h.step hfits w with hstep | hstep | hstep
      · exact absurd hleft hstep.not_hasLeft
      · exact absurd hleft hstep.not_hasLeft
      · exact hstep
  | left h => exact absurd h on

theorem Leaves.cause {n : Nat} {t' : Thread} (h : Leaves firsts base k t t')
    (hruns : ∀ first, firsts first → first.runs? = some n) :
    (∃ f, t.focus = .flow f ∧ ¬ f.GoesOn) ∨ (∃ e, t'.focus = .failed e) ∨
      k = n ∧ t'.focus = .flow .normal := by
  cases h with
  | jump h out => exact .inl ⟨_, h, out⟩
  | failed => exact .inr (.inl ⟨_, rfl⟩)
  | done hfirst all => exact .inr (.inr ⟨all n (hruns _ hfirst), rfl⟩)

/-- A loop for which the number of runs is settled comes to its turn after a run. -/
theorem Standing.again {n : Nat} (h : Standing firsts body inner base k t)
    (hruns : ∀ first, firsts first → first.runs? = some n) {l : LoopRun} {f : Flow}
    (hframes : t.frames = .body l :: base) (hfocus : t.focus = .flow f) (hgoes : f.GoesOn) :
    (t.step .standard w).2.AtTurn base := by
  obtain ⟨focus, frames⟩ := t
  obtain rfl : focus = .flow f := hfocus
  obtain rfl : frames = .body l :: base := hframes
  rw [step_flow, afterFlow_of_goesOn hgoes]
  cases h with
  | outside h => exact absurd ⟨[], l, rfl⟩ h.not_inBody
  | left h => exact absurd h.1 (append_cons_ne [] _)
  | inside h =>
      obtain @⟨first, k, above, _, hfirst, -, hbody⟩ := h
      have hl : Frame.body l = .body ⟨first.after (k + 1), body, inner, k⟩ :=
        eq_of_append_cons ((List.nil_append _).trans hbody)
      obtain rfl := Frame.body.inj hl
      have hsettled := hruns first hfirst
      cases first with
      | counted n => exact ⟨rfl, _, rfl⟩
      | «over» targets items => exact ⟨rfl, _, rfl⟩
      | _ => cases hsettled

/-- **The number of runs** of a loop for which it is settled. -/
theorem Standing.makesRuns {n : Nat} (h : Standing firsts body inner base k t)
    (hruns : ∀ first, firsts first → first.runs? = some n)
    (distinct : ∀ targets items, firsts (.over targets items) → Target.Distinct targets)
    (hfits : Nesting.Fits whole t.frames t.focus) (hs : inner < w.store.scopes.size) :
    t.MakesRuns base n k w where
  le := by
    rcases h.within with rfl | ⟨first, hfirst, allows⟩
    · exact Nat.zero_le n
    · exact allows n (hruns first hfirst)
  again _ _ := h.again hruns
  next hturn hlt := by
    obtain ⟨first, hfirst, rfl⟩ := h.at_turn hturn
    rcases turn_starts hfirst (hruns first hfirst) hlt w with
      hstarts | ⟨-, targets, items, item, rfl, hne⟩
    · refine hstarts.startsRun (.turn hfirst fun m hm => ?_)
      obtain rfl := Option.some.inj ((hruns first hfirst).symm.trans hm)
      exact Nat.le_of_lt hlt
    · exact absurd (Store.bindItem_holds hs (distinct targets items hfirst) item).1 hne
  last hturn hend := by
    obtain ⟨first, hfirst, rfl⟩ := h.at_turn hturn
    rw [turn_ends (hend ▸ hruns first hfirst) w]
  leaving on hleft := (h.leaves hfits on hleft).cause hruns

/-- While a command is still to give the items, no run of the body has started. -/
theorem Standing.source (h : Standing firsts body inner base k t) {above : List Frame}
    {targets : List Target} (hsource : t.frames = above ++ .source targets body inner :: base) :
    k = 0 := by
  have habsurd {above' : List Frame} {frame : Frame} (hframes : t.frames = above' ++ frame :: base)
      (hne : frame ≠ .source targets body inner) : k = 0 :=
    absurd (eq_of_append_cons (hframes.symm.trans hsource)) hne
  cases h with
  | outside h =>
      cases h with
      | source => rfl
      | turn => exact absurd hsource.symm (append_cons_ne above _)
      | testing _ _ hframes => exact habsurd hframes nofun
      | clause _ _ hframes => exact habsurd hframes nofun
  | inside h =>
      cases h with
      | mk _ _ hframes => exact habsurd hframes nofun
  | left h => exact absurd (hsource.symm.trans h.1) (append_cons_ne above _)

/-- A run of the body starts with its first statement. -/
theorem Starts.focus (h : Starts firsts body inner base k w t) :
    (t.step .standard w).2.focus = .run body inner := by
  obtain ⟨first, w', -, -, -, hstep⟩ := h
  rw [hstep]
  rfl

end Loop

/-- **The runs of the body of a loop.** Let a thread come to a loop, wherever that stands in the
statements it was started with and whatever others do meanwhile, and let it be at any point of the
course of the loop.

* Every run starts at the beginning of the body, in the scope `inner` of the loop. The run number
  `k`, counted from zero, starts with `index` being `k` in that scope.
* The steps in which the loop counts and starts its runs write in no other scope, and the loops
  around it have other scopes.
* A loop with a count makes as many runs as the count was when the loop began.
* A loop over a value with different variables makes one run for every item that the value had when
  the loop began, in their order, and each run starts with the variables bound to the parts of its
  item.
* While a command is still to give the value, no run has started. -/
theorem Thread.Reaches.runs_of_loop {going : Thread → Prop} {whole body : List Statement}
    {s₀ inner : ScopeId} {base : List Frame} {w₀ w w' : World} {t t' : Thread}
    {starts : List World}
    (hreached : Reaches .standard World.KeepsScopes going w₀ (.start whole s₀) w t)
    (hbegins : t.Begins body inner base w)
    (hlaps : Laps base (t.step .standard w).1 (t.step .standard w).2 starts w' t') :
    (t'.StartsRun base w' → (t'.step .standard w').2.focus = .run body inner) ∧
    (∀ (k : Nat) (w₁ : World), starts[k]? = some w₁ →
      (w₁.store.vars inner).get? "index" = some (.int k)) ∧
    (t'.AtTurn base ∨ t'.StartsRun base w' →
      Store.SameBeside inner w'.store (t'.step .standard w').1.store) ∧
    (∀ l, .body l ∈ base → l.scope ≠ inner) ∧
    (∀ n, t.Counts n w →
      (t.step .standard w).2.AtTurn base ∧ t'.MakesRuns base n starts.length w') ∧
    (∀ targets v items, t.GoesThrough targets v w → v.Lists items → Target.Distinct targets →
      (t.step .standard w).2.AtTurn base ∧ t'.MakesRuns base items.length starts.length w' ∧
        ∀ (k : Nat) (w₁ : World), starts[k]? = some w₁ → ∃ item, items[k]? = some item ∧
          (w₁.store.vars inner).Holds targets (item.parts targets)) ∧
    ∀ above targets, t'.frames = above ++ .source targets body inner :: base → starts = [] := by
  have hfits : Nesting.Fits whole (t.step .standard w).2.frames (t.step .standard w).2.focus :=
    hreached.fits.step .standard
  obtain ⟨hsize, haround⟩ := Loop.scope_of_begins hbegins hreached.loopsApart
  -- The course is the same for everything that is known of the state the loop begins in.
  have hcourse {firsts : LoopState → Prop} (hplans : Loop.Plans firsts w t) :
      Loop.Holds whole firsts body inner base starts w' t' :=
    Loop.holds_of_laps hlaps ⟨hfits, hsize, Loop.standing_of_begins hbegins hplans, nofun⟩
  have hany := hcourse (Loop.plans_anything hbegins)
  refine ⟨fun hrun => (hany.standing.starts hany.fits hrun).focus,
    fun k w₁ hw₁ => (hany.started k w₁ hw₁).1, ?_, haround, fun n hn => ?_, ?_, ?_⟩
  · rintro (hturn | hrun)
    · exact hany.standing.turn_sameBeside hturn
    · exact (hany.standing.starts hany.fits hrun).sameBeside
  · have hcounted := hcourse (Loop.plans_counted hn)
    exact ⟨Loop.turn_of_counts hbegins hn,
      hcounted.standing.makesRuns (fun _ h => h ▸ rfl) nofun hcounted.fits hcounted.there⟩
  · intro targets v items hgoes hlists distinct
    have hitems := Value.items_of_lists hlists
    have hover := hcourse (Loop.plans_over hgoes hitems)
    refine ⟨Loop.turn_of_goesThrough hbegins hgoes hitems,
      hover.standing.makesRuns (fun _ h => h ▸ rfl) ?_ hover.fits hover.there, fun k w₁ hw₁ => ?_⟩
    · rintro _ _ ⟨⟩
      exact distinct
    · obtain ⟨-, _, rfl, hbound⟩ := hover.started k w₁ hw₁
      exact hbound targets items rfl distinct
  · exact fun above targets hsource => List.length_eq_zero_iff.mp (hany.standing.source hsource)

/-- The first of two runs over the members of an object. -/
theorem Thread.Reaches.runs_of_loop_pairs :
    let body : List Statement := [.unset [⟨"page", []⟩] ⟨2, 3⟩]
    let targets : List Target := [.variable ⟨"k", []⟩, .variable ⟨"v", []⟩]
    let page : Record Value := Record.ofList [("b", .int 2), ("a", .int 1)]
    let w : World :=
      { World.empty with store := ⟨#[⟨Record.ofList [("page", .object page)], []⟩]⟩ }
    let t : Thread := .start [.loop (.items targets (.variable ⟨"page", []⟩)) body ⟨1, 1⟩] 0
    let base : List Frame := [.statements ⟨1, 1⟩ [] 0]
    ∃ w₁ t₁, Laps base (t.step .standard w).1 (t.step .standard w).2 [w₁] w₁ t₁ ∧
      t₁.MakesRuns base 2 1 w₁ ∧ (w₁.store.vars 1).get? "index" = some (.int 0) ∧
      (w₁.store.vars 1).get? "k" = some (.string "a") ∧
      (w₁.store.vars 1).get? "v" = some (.int 1) := by
  intro body targets page w t base
  have hbegins : t.Begins body 1 base w := @Begins.statement body _ ⟨1, 1⟩ [] 0 [] w
  have hgoes : t.GoesThrough targets (.object page) w :=
    @GoesThrough.variable targets ⟨"page", []⟩ [.key "page"] body ⟨1, 1⟩ [] 0 [] w rfl
  have hlists : (Value.object page).Lists
      [.array [.string "a", .int 1], .array [.string "b", .int 2]] :=
    @Value.Lists.object page (Record.ordered_ofList _)
  have distinct : Target.Distinct targets := by
    refine ⟨fun v hv => ?_, by decide, by decide⟩
    simp only [targets, List.mem_cons, Target.variable.injEq, List.not_mem_nil, or_false] at hv
    rcases hv with rfl | rfl <;> rfl
  have hrun : (t.step .standard w).2.StartsRun base (t.step .standard w).1 := by
    refine ⟨?_, ?_, ⟨[], _, rfl⟩⟩
    · rintro ⟨-, ⟨f, hf⟩ | ⟨e, he⟩⟩ <;> contradiction
    · rintro ⟨above, l, hframes⟩
      exact Loop.append_cons_ne above (.body l) hframes.symm
  have hreached : Reaches .standard World.KeepsScopes (fun _ => True) w t w t := .here
  obtain ⟨-, hindex, -, -, -, hover, -⟩ := runs_of_loop hreached hbegins (.start .here hrun)
  obtain ⟨-, hmakes, hholds⟩ := hover targets _ _ hgoes hlists distinct
  obtain ⟨item, hitem, hparts⟩ := hholds 0 _ rfl
  obtain rfl := Option.some.inj hitem
  exact ⟨_, _, .start .here hrun, hmakes, hindex 0 _ rfl, hparts 0 ⟨"k", []⟩ rfl,
    hparts 1 ⟨"v", []⟩ rfl⟩

end TabPilot
