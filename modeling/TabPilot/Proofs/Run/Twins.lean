import TabPilot.Proofs.Command.Twins

set_option autoImplicit false

/-! # Twin runs

Two threads are twins if they do the same in scopes that are paired off. In twin worlds a step
takes twin threads to twin threads, and leaves the worlds twins (`Thread.step_twin`): it calls the
same command, writes the same, and fails with the same fault. Where blocks open scopes, these are
new pairs.
-/

namespace TabPilot

open List (Forall₂)

/-! ## What a thread does and has still to do -/

/-- A loop that runs, in scopes that are paired off. -/
inductive LoopRun.Twin (R : ScopeId → ScopeId → Prop) : LoopRun → LoopRun → Prop
  | mk (state : LoopState) (body : List Statement) (index : Nat) {s t : ScopeId} (h : R s t) :
      Twin R ⟨state, body, s, index⟩ ⟨state, body, t, index⟩

/-- What two threads do is the same, in scopes that are paired off. -/
inductive Focus.Twin (R : ScopeId → ScopeId → Prop) : Focus → Focus → Prop
  | run (body : List Statement) {s t : ScopeId} (h : R s t) : Twin R (.run body s) (.run body t)
  | flow (f : Flow) : Twin R (.flow f) (.flow f)
  | test (c : Condition) {s t : ScopeId} (h : R s t) : Twin R (.test c s) (.test c t)
  | truth (b : Bool) : Twin R (.truth b) (.truth b)
  | call (c : Command) {s t : ScopeId} (h : R s t) : Twin R (.call c s) (.call c t)
  | await {a₁ a₂ : ActiveCommand} (h : a₁.Twin R a₂) (op : Operation) :
      Twin R (.await a₁ op) (.await a₂ op)
  | pause (stop : Instant) (v : Value) : Twin R (.pause stop v) (.pause stop v)
  | value (v : Value) : Twin R (.value v) (.value v)
  | loop {l₁ l₂ : LoopRun} (h : l₁.Twin R l₂) : Twin R (.loop l₁) (.loop l₂)
  | failed (e : Fault) : Twin R (.failed e) (.failed e)

/-- What two threads have still to do is the same, in scopes that are paired off. -/
inductive Frame.Twin (R : ScopeId → ScopeId → Prop) : Frame → Frame → Prop
  | statements (p : Position) (rest : List Statement) {s t : ScopeId} (h : R s t) :
      Twin R (.statements p rest s) (.statements p rest t)
  | commands (rest : List Command) {s t : ScopeId} (h : R s t) :
      Twin R (.commands rest s) (.commands rest t)
  | branch (body : List Statement) (others : List Branch) (otherwise : Option (List Statement))
      {inner₁ inner₂ outer₁ outer₂ : ScopeId} (hinner : R inner₁ inner₂)
      (houter : R outer₁ outer₂) :
      Twin R (.branch body inner₁ others otherwise outer₁)
        (.branch body inner₂ others otherwise outer₂)
  | negation : Twin R .negation .negation
  | truthiness : Twin R .truthiness .truthiness
  | thenTest (c : Condition) {s t : ScopeId} (h : R s t) : Twin R (.thenTest c s) (.thenTest c t)
  | body {l₁ l₂ : LoopRun} (h : l₁.Twin R l₂) : Twin R (.body l₁) (.body l₂)
  | loopTest {l₁ l₂ : LoopRun} (h : l₁.Twin R l₂) : Twin R (.loopTest l₁) (.loopTest l₂)
  | clause {l₁ l₂ : LoopRun} (h : l₁.Twin R l₂) : Twin R (.clause l₁) (.clause l₂)
  | source (targets : List Target) (repeated : List Statement) {s t : ScopeId} (h : R s t) :
      Twin R (.source targets repeated s) (.source targets repeated t)

/-- Two threads are the same but for their scopes, which are paired off. -/
structure Thread.Twin (R : ScopeId → ScopeId → Prop) (t₁ t₂ : Thread) : Prop where
  focus : t₁.focus.Twin R t₂.focus
  frames : Forall₂ (Frame.Twin R) t₁.frames t₂.frames

section Mono

variable {R R' : ScopeId → ScopeId → Prop} (hsub : ∀ s t, R s t → R' s t)
include hsub

theorem LoopRun.Twin.mono {l₁ l₂ : LoopRun} (h : l₁.Twin R l₂) : l₁.Twin R' l₂ := by
  obtain ⟨state, body, index, hst⟩ := h
  exact .mk state body index (hsub _ _ hst)

theorem Frame.Twin.mono {f₁ f₂ : Frame} (h : f₁.Twin R f₂) : f₁.Twin R' f₂ := by
  cases h with
  | statements p rest h => exact .statements p rest (hsub _ _ h)
  | commands rest h => exact .commands rest (hsub _ _ h)
  | branch body others otherwise hinner houter =>
      exact .branch body others otherwise (hsub _ _ hinner) (hsub _ _ houter)
  | negation => exact .negation
  | truthiness => exact .truthiness
  | thenTest c h => exact .thenTest c (hsub _ _ h)
  | body h => exact .body (LoopRun.Twin.mono hsub h)
  | loopTest h => exact .loopTest (LoopRun.Twin.mono hsub h)
  | clause h => exact .clause (LoopRun.Twin.mono hsub h)
  | source targets repeated h => exact .source targets repeated (hsub _ _ h)

end Mono

/-! ## Steps -/

/-- What a step of a command in twin worlds comes to. -/
structure TwinFocus (a : Realm × Realm) (R : ScopeId → ScopeId → Prop)
    (r₁ r₂ : World × Focus) : Prop where
  world : r₁.1.Twins a R r₂.1
  focus : r₁.2.Twin R r₂.2

/-- What a step in twin worlds comes to, above the frames that it left. -/
structure TwinsAbove (a : Realm × Realm) (R : ScopeId → ScopeId → Prop)
    (r₁ r₂ : World × Focus × List Frame) : Prop where
  world : r₁.1.Twins a R r₂.1
  focus : r₁.2.1.Twin R r₂.2.1
  frames : Forall₂ (Frame.Twin R) r₁.2.2 r₂.2.2

/-- The same, where scopes may be new. -/
def GrownAbove (a : Realm × Realm) (R : ScopeId → ScopeId → Prop)
    (r₁ r₂ : World × Focus × List Frame) : Prop :=
  ∃ R', (∀ s t, R s t → R' s t) ∧ TwinsAbove a R' r₁ r₂

variable {a : Realm × Realm} {R : ScopeId → ScopeId → Prop} {w₁ w₂ : World} {s t : ScopeId}

namespace TwinsAbove

variable {focus₁ focus₂ : Focus} {frame₁ frame₂ : Frame} {r₁ r₂ : World × Focus × List Frame}

/-- Steps that leave nothing to do but their focus. -/
theorem bare (hw : w₁.Twins a R w₂) (h : focus₁.Twin R focus₂) :
    TwinsAbove a R (w₁, focus₁, []) (w₂, focus₂, []) :=
  ⟨hw, h, .nil⟩

/-- Steps that leave one thing to do after their focus. -/
theorem single (hw : w₁.Twins a R w₂) (h : focus₁.Twin R focus₂) (hframe : frame₁.Twin R frame₂) :
    TwinsAbove a R (w₁, focus₁, [frame₁]) (w₂, focus₂, [frame₂]) :=
  ⟨hw, h, .cons hframe .nil⟩

theorem grown (h : TwinsAbove a R r₁ r₂) : GrownAbove a R r₁ r₂ := ⟨R, fun _ _ => id, h⟩

end TwinsAbove

namespace World.Twins

theorem assign (h : w₁.Twins a R w₂) (reach : Store.Reach) (hst : R s t) (b : Assignment) :
    TwinResults a R (w₁.assign reach s b) (w₂.assign reach t b) :=
  h.changeStore (h.store.assign reach hst b)

theorem child (h : w₁.Twins a R w₂) (hst : R s t) :
    ∃ R', (∀ s t, R s t → R' s t) ∧ (w₁.child s).1.Twins a R' (w₂.child t).1 ∧
      R' (w₁.child s).2 (w₂.child t).2 :=
  ⟨Store.Joined R w₁.store.scopes.size w₂.store.scopes.size, fun _ _ => .inl,
    ⟨h.beside, h.store.addChild hst _⟩, .inr ⟨rfl, rfl⟩⟩

/-! ### Loops -/

variable {l₁ l₂ : LoopRun}

theorem enterBody (h : w₁.Twins a R w₂) (hl : l₁.Twin R l₂) :
    TwinsAbove a R (w₁.enterBody l₁) (w₂.enterBody l₂) := by
  obtain ⟨state, body, index, hst⟩ := hl
  exact .single ⟨h.beside, h.store.setIndex hst index⟩ (.run body hst)
    (.body (.mk state body index hst))

theorem enterTest (h : w₁.Twins a R w₂) (hl : l₁.Twin R l₂) (test : Condition) :
    TwinsAbove a R (w₁.enterTest l₁ test) (w₂.enterTest l₂ test) := by
  obtain ⟨state, body, index, hst⟩ := hl
  exact .single ⟨h.beside, h.store.setIndex hst index⟩ (.test test hst)
    (.loopTest (.mk state body index hst))

theorem iterate (h : w₁.Twins a R w₂) (hl : l₁.Twin R l₂) :
    TwinsAbove a R (w₁.iterate l₁) (w₂.iterate l₂) := by
  obtain @⟨state, body, index, s, t, hst⟩ := hl
  cases state with
  | forever => exact h.enterBody (.mk .forever body index hst)
  | counted left =>
      cases left with
      | zero => exact .bare h (.flow .normal)
      | succ left => exact h.enterBody (.mk (.counted left) body index hst)
  | «over» targets items =>
      cases items with
      | nil => exact .bare h (.flow .normal)
      | cons item rest =>
          have hbound : TwinResults a R (w₁.changeStore fun st => st.bindItem s targets item)
              (w₂.changeStore fun st => st.bindItem t targets item) :=
            h.changeStore (h.store.bindItem hst targets item)
          obtain ⟨w₁', w₂', failure, h₁, h₂, hw⟩ := hbound.exists_eq
          simp only [World.iterate, h₁, h₂]
          cases failure with
          | some e => exact .bare hw (.failed e.fault)
          | none => exact hw.enterBody (.mk (.over targets rest) body index hst)
  | whilst test => exact h.enterTest (.mk (.whilst test) body index hst) test
  | bounded test next => exact h.enterTest (.mk (.bounded test next) body index hst) test

theorem runClause (h : w₁.Twins a R w₂) (hl : l₁.Twin R l₂) (clause : Clause) :
    TwinsAbove a R (w₁.runClause l₁ clause) (w₂.runClause l₂ clause) := by
  obtain ⟨state, body, index, hst⟩ := hl
  cases clause with
  | command c p => exact .single h (.call c hst) (.clause (.mk state body index hst))
  | assignment b =>
      obtain ⟨w₁', w₂', failure, h₁, h₂, hw⟩ := (h.assign .owner hst b).exists_eq
      simp only [World.runClause, h₁, h₂]
      cases failure with
      | some e => exact .bare hw (.failed e.fault)
      | none => exact .bare hw (.loop (.mk state body index hst))

theorem afterBody (h : w₁.Twins a R w₂) (hl : l₁.Twin R l₂) :
    TwinsAbove a R (w₁.afterBody l₁) (w₂.afterBody l₂) := by
  obtain ⟨state, body, index, hst⟩ := hl
  have hnext : LoopRun.Twin R ⟨state, body, _, index + 1⟩ ⟨state, body, _, index + 1⟩ :=
    .mk state body (index + 1) hst
  cases state with
  | bounded test clause => exact h.runClause hnext clause
  | _ => exact .bare h (.loop hnext)

theorem overItems (h : w₁.Twins a R w₂) (targets : List Target) (body : List Statement)
    (hst : R s t) (v : Value) :
    TwinsAbove a R (w₁.overItems targets body s v) (w₂.overItems targets body t v) := by
  unfold World.overItems
  cases v.items with
  | ok items => exact .bare h (.loop (.mk (.over targets items) body 0 hst))
  | error e => exact .bare h (.failed e.fault)

theorem beginLoop (h : w₁.Twins a R w₂) (hst : R s t) (mode : LoopMode) (body : List Statement) :
    TwinsAbove a R (w₁.beginLoop s mode body) (w₂.beginLoop t mode body) := by
  have hloop (state : LoopState) : LoopRun.Twin R ⟨state, body, s, 0⟩ ⟨state, body, t, 0⟩ :=
    .mk state body 0 hst
  cases mode with
  | infinite => exact .bare h (.loop (hloop .forever))
  | count times =>
      simp only [World.beginLoop, h.read hst]
      split
      · exact .bare h (.loop (hloop (.counted _)))
      · exact .bare h (.failed _)
  | whilst test => exact .bare h (.loop (hloop (.whilst test)))
  | bounded init test next => exact h.runClause (hloop (.bounded test next)) init
  | items targets source =>
      cases source with
      | command c => exact .single h (.call c hst) (.source targets body hst)
      | «variable» v =>
          simp only [World.beginLoop, h.read hst]
          split
          · exact h.overItems targets body hst _
          · exact .bare h (.failed _)

/-! ### Statements and conditions -/

theorem choose (h : w₁.Twins a R w₂) (branches : List Branch) (otherwise : Option (List Statement))
    (hst : R s t) :
    GrownAbove a R (w₁.choose branches otherwise s) (w₂.choose branches otherwise t) := by
  obtain ⟨R', hsub, hchild, hinner⟩ := h.child hst
  cases branches with
  | cons b others =>
      obtain ⟨test, body⟩ := b
      exact ⟨R', hsub, .single hchild (.test test hinner)
        (.branch body others otherwise hinner (hsub _ _ hst))⟩
  | nil =>
      cases otherwise with
      | some body => exact ⟨R', hsub, .bare hchild (.run body hinner)⟩
      | none => exact (TwinsAbove.bare h (.flow .normal)).grown

theorem ended {r₁ r₂ : World × Option RunFailure} (h : TwinResults a R r₁ r₂) :
    TwinsAbove a R (ended r₁) (ended r₂) := by
  obtain ⟨w₁, w₂, failure, rfl, rfl, hw⟩ := h.exists_eq
  cases failure with
  | none => exact .bare hw (.flow .normal)
  | some e => exact .bare hw (.failed e.fault)

theorem begin (h : w₁.Twins a R w₂) (hst : R s t) (st : Statement) :
    GrownAbove a R (w₁.begin s st) (w₂.begin t st) := by
  cases st with
  | assign b => exact (ended (h.assign .owner hst b)).grown
  | unset vs p => exact (ended (h.changeStore (h.store.unsetAll hst vs))).grown
  | expression e p =>
      simp only [World.begin, h.read hst]
      split
      · exact (TwinsAbove.bare h (.flow .normal)).grown
      · exact (TwinsAbove.bare h (.failed _)).grown
  | choice first others otherwise p => exact h.choose (first :: others) otherwise hst
  | loop mode body p =>
      obtain ⟨R', hsub, hchild, hinner⟩ := h.child hst
      exact ⟨R', hsub, hchild.beginLoop hinner mode body⟩
  | commands cs p =>
      cases cs with
      | nil => exact (TwinsAbove.bare h (.flow .normal)).grown
      | cons c rest => exact (TwinsAbove.single h (.call c hst) (.commands rest hst)).grown
  | jump kind levels p => exact (TwinsAbove.bare h (.flow (.jump kind levels p))).grown

theorem test (h : w₁.Twins a R w₂) (hst : R s t) (test : Condition) :
    TwinsAbove a R (w₁.test s test) (w₂.test t test) := by
  have hnegating (negated : Bool) :
      Forall₂ (Frame.Twin R) (negating negated) (negating negated) := by
    cases negated with
    | true => exact .cons .negation .nil
    | false => exact .nil
  cases test with
  | assigning negated p b rest =>
      obtain ⟨w₁', w₂', failure, h₁, h₂, hw⟩ := (h.assign .itself hst b).exists_eq
      simp only [World.test, h₁, h₂]
      cases failure with
      | some e => exact .bare hw (.failed e.fault)
      | none => exact ⟨hw, .test rest hst, hnegating negated⟩
  | commanding negated p c rest =>
      exact ⟨h, .call c hst, .cons (.thenTest rest hst) (hnegating negated)⟩
  | command negated p c => exact ⟨h, .call c hst, .cons .truthiness (hnegating negated)⟩
  | comparison negated p lhs comparison =>
      simp only [World.test, h.read hst]
      split
      · exact .bare h (.truth _)
      · exact .bare h (.failed _)

/-! ### Commands -/

variable {a₁ a₂ : ActiveCommand}

/-- A command that has ended is followed by the same pause in both worlds. -/
theorem settle (h : w₁.Twins a R w₂) (ha : a₁.Twin R a₂) (r : Except Error Value) :
    TwinFocus a R (w₁.settle a₁ r) (w₂.settle a₂ r) := by
  obtain ⟨w₁', w₂', outcome, h₁, h₂, hw⟩ := (h.conclude ha r).exists_eq
  simp only [World.settle, h₁, h₂]
  cases outcome with
  | error fault => exact ⟨hw, .failed fault⟩
  | ok v =>
      simp only [hw.commandDelay?_eq]
      split
      · rw [hw.now_eq]
        exact ⟨hw, .pause _ v⟩
      · exact ⟨hw, .value v⟩

theorem proceed (h : w₁.Twins a R w₂) (ha : a₁.Twin R a₂) (progress : Progress) :
    TwinFocus a R (w₁.proceed a₁ progress) (w₂.proceed a₂ progress) := by
  cases progress with
  | finished r => exact h.settle ha r
  | waiting op => exact ⟨h, .await ha op⟩

/-- **One call** of a built-in command in the scopes of a pair. -/
theorem callCommand (h : w₁.Twins a R w₂) (hst : R s t) (cmd : Command) :
    TwinFocus a R (w₁.callCommand .standard s cmd) (w₂.callCommand .standard t cmd) := by
  have hprepared := Catalogue.standard.prepare_twin (w₂.read t) hst cmd
  unfold World.callCommand
  rw [h.read hst]
  obtain ⟨e, h₁, h₂⟩ | ⟨p₁, p₂, h₁, h₂, hp⟩ := hprepared.error_or_ok
  · rw [h₁, h₂]
    exact ⟨h, .failed _⟩
  · obtain ⟨⟨set, hset, e, he, hbody⟩, -⟩ := Catalogue.prepare_cases h₁
    rw [h₁, h₂]
    obtain ⟨hactive, body, hinvocation⟩ := hp
    obtain rfl : body = e.body := hbody
    obtain ⟨hworld, houtcome⟩ := Catalogue.standard_keepsTwins hset he h hinvocation
    dsimp only
    rw [houtcome]
    exact hworld.proceed hactive _

/-! ### What comes after -/

variable {frame₁ frame₂ : Frame}

theorem afterFlow (h : w₁.Twins a R w₂) (hframe : frame₁.Twin R frame₂) (f : Flow) :
    TwinsAbove a R (w₁.afterFlow f frame₁) (w₂.afterFlow f frame₂) := by
  cases hframe with
  | statements p rest hst =>
      cases f with
      | normal => exact .bare h (.run rest hst)
      | jump kind levels p => exact .bare h (.flow _)
  | body hl =>
      cases f with
      | normal => exact h.afterBody hl
      | jump kind levels p =>
          simp only [World.afterFlow]
          split
          · exact .bare h (.flow _)
          · cases kind with
            | «break» => exact .bare h (.flow .normal)
            | «continue» => exact h.afterBody hl
  | _ => exact .bare h (.flow f)

theorem afterTruth (h : w₁.Twins a R w₂) (hframe : frame₁.Twin R frame₂) (b : Bool) :
    GrownAbove a R (w₁.afterTruth b frame₁) (w₂.afterTruth b frame₂) := by
  cases hframe with
  | branch body others otherwise hinner houter =>
      cases b with
      | true => exact (TwinsAbove.bare h (.run body hinner)).grown
      | false => exact h.choose others otherwise houter
  | loopTest hl =>
      cases b with
      | true => exact (h.enterBody hl).grown
      | false => exact (TwinsAbove.bare h (.flow .normal)).grown
  | _ => exact (TwinsAbove.bare h (.truth _)).grown

theorem afterValue (h : w₁.Twins a R w₂) (hframe : frame₁.Twin R frame₂) (v : Value) :
    TwinsAbove a R (w₁.afterValue v frame₁) (w₂.afterValue v frame₂) := by
  cases hframe with
  | commands rest hst =>
      cases rest with
      | nil => exact .bare h (.flow .normal)
      | cons c rest => exact .single h (.call c hst) (.commands rest hst)
  | thenTest c hst => exact .bare h (.test c hst)
  | truthiness => exact .bare h (.truth _)
  | clause hl => exact .bare h (.loop hl)
  | source targets body hst => exact h.overItems targets body hst v
  | _ => exact .bare h (.value v)

end World.Twins

theorem World.afterFailure_twin {frame₁ frame₂ : Frame} (h : frame₁.Twin R frame₂) (e : Fault) :
    afterFailure e frame₁ = afterFailure e frame₂ := by
  cases h <;> rfl

/-! ## Threads -/

namespace Thread

variable {t₁ t₂ : Thread}

/-- What a step of twin threads in twin worlds comes to. -/
structure TwinStep (a : Realm × Realm) (R : ScopeId → ScopeId → Prop)
    (r₁ r₂ : World × Thread) : Prop where
  world : r₁.1.Twins a R r₂.1
  thread : r₁.2.Twin R r₂.2

theorem twinStep_after {r₁ r₂ : World × Focus × List Frame} {frames₁ frames₂ : List Frame}
    (h : GrownAbove a R r₁ r₂) (hframes : Forall₂ (Frame.Twin R) frames₁ frames₂) :
    ∃ R', (∀ s t, R s t → R' s t) ∧ TwinStep a R' (after frames₁ r₁) (after frames₂ r₂) := by
  obtain ⟨R', hsub, hworld, hfocus, hframes'⟩ := h
  have hold := hframes.imp fun _ _ => Frame.Twin.mono hsub
  exact ⟨R', hsub, hworld, hfocus, List.rel_append hframes' hold⟩

/-- **One step.** Twin threads in twin worlds take a step to twin threads in twin worlds. -/
theorem step_twin (h : w₁.Twins a R w₂) (ht : t₁.Twin R t₂) :
    ∃ R', (∀ s t, R s t → R' s t) ∧
      TwinStep a R' (t₁.step .standard w₁) (t₂.step .standard w₂) := by
  obtain ⟨focus₁, frames₁⟩ := t₁
  obtain ⟨focus₂, frames₂⟩ := t₂
  obtain ⟨hfocus, hframes⟩ := ht
  -- Scopes are paired anew only where a step adds one on both sides.
  have hstays {r₁ r₂ : World × Thread} (hr : TwinStep a R r₁ r₂) :
      ∃ R', (∀ s t, R s t → R' s t) ∧ TwinStep a R' r₁ r₂ := ⟨R, fun _ _ => id, hr⟩
  cases hfocus with
  | run body hst =>
      cases body with
      | nil => exact hstays ⟨h, .flow .normal, hframes⟩
      | cons st rest =>
          exact twinStep_after (h.begin hst st) (.cons (.statements st.position rest hst) hframes)
  | test c hst => exact twinStep_after (h.test hst c).grown hframes
  | loop hl => exact twinStep_after (h.iterate hl).grown hframes
  | call cmd hst =>
      obtain ⟨hworld, hnext⟩ := h.callCommand hst cmd
      exact hstays ⟨hworld, hnext, hframes⟩
  | await ha op =>
      have hresumed := op.resume?_twin h
      simp only [step]
      generalize op.resume? w₁ = r₁ at hresumed ⊢
      generalize op.resume? w₂ = r₂ at hresumed ⊢
      cases hresumed with
      | none => exact hstays ⟨h, .await ha op, hframes⟩
      | some hr =>
          obtain ⟨w₁', w₂', progress, rfl, rfl, hw⟩ := hr.exists_eq
          obtain ⟨hworld, hnext⟩ := hw.proceed ha progress
          exact hstays ⟨hworld, hnext, hframes⟩
  | pause stop v =>
      simp only [step, h.now_eq]
      split
      · exact hstays ⟨h, .value v, hframes⟩
      · exact hstays ⟨h, .pause stop v, hframes⟩
  | flow f =>
      cases hframes with
      | nil =>
          cases f with
          | normal => exact hstays ⟨h, .flow .normal, .nil⟩
          | jump kind levels p => exact hstays ⟨h, .failed _, .nil⟩
      | cons hframe hframes => exact twinStep_after (h.afterFlow hframe f).grown hframes
  | truth b =>
      cases hframes with
      | nil => exact hstays ⟨h, .truth b, .nil⟩
      | cons hframe hframes => exact twinStep_after (h.afterTruth hframe b) hframes
  | value v =>
      cases hframes with
      | nil => exact hstays ⟨h, .value v, .nil⟩
      | cons hframe hframes => exact twinStep_after (h.afterValue hframe v).grown hframes
  | failed e =>
      cases hframes with
      | nil => exact hstays ⟨h, .failed e, .nil⟩
      | cons hframe hframes =>
          simp only [step, World.afterFailure_twin hframe]
          exact hstays ⟨h, .failed _, hframes⟩

end Thread

end TabPilot
