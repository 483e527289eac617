import Mathlib.Data.List.Forall2
import TabPilot.Proofs.Scope.Names
import TabPilot.Run.Assignment

set_option autoImplicit false

/-! # Twin scopes

Two runs of one body have scopes of their own, which need not have the same numbers. `Twins` says
that a relation pairs them off: scopes of a pair hold the same variables, and the chains around
them run in parallel, so that neither sees a scope that is not paired. Then reading finds the same
in both stores, and every way of writing from the scopes of a pair keeps the stores twins, with the
same outcome. It also says of each store which scopes are foreign to the run; those are left alone.
-/

namespace TabPilot

/-- The surroundings of a run: every scope of the run is one of `roots` or inside one, and the
scopes in `foreign` are not the run's. They hold what they hold in the store `before`. -/
structure Realm where
  roots : Set ScopeId
  foreign : Set ScopeId
  before : Store

/-- The same surroundings at a later time. -/
def Realm.since (b : Realm) (st : Store) : Realm := { b with before := st }

namespace Store

open Relator

/-- A run has the scopes `own`. They are inside the realm, and the foreign ones are untouched. -/
structure Apart (a : Realm) (own : ScopeId → Prop) (st : Store) : Prop where
  there : ∀ s, own s → s < st.scopes.size
  inside : ∀ s, own s → ∃ t ∈ st.chain s, t ∈ a.roots
  disjoint : ∀ s, own s → s ∉ a.foreign
  foreign : ∀ s ∈ a.foreign, s < st.scopes.size ∧ st.vars s = a.before.vars s

/-- A relation pairs the scopes of a run in one store with those of a run in another. -/
structure Twins (a : Realm × Realm) (R : ScopeId → ScopeId → Prop) (st₁ st₂ : Store) : Prop where
  first : st₁.Apart a.1 fun s => ∃ t, R s t
  second : st₂.Apart a.2 fun t => ∃ s, R s t
  unique : BiUnique R
  vars : ∀ {s t : ScopeId}, R s t → st₁.vars s = st₂.vars t
  chain : ∀ {s t : ScopeId}, R s t → List.Forall₂ R (st₁.chain s) (st₂.chain t)

/-- Two scopes besides those that are paired off. -/
def Joined (R : ScopeId → ScopeId → Prop) (n₁ n₂ : ScopeId) (s t : ScopeId) : Prop :=
  R s t ∨ s = n₁ ∧ t = n₂

/-- What two changes of twin stores come to: twins again, with the same outcome. -/
structure TwinResults {α : Type} (a : Realm × Realm) (R : ScopeId → ScopeId → Prop)
    (r₁ r₂ : Store × α) : Prop where
  store : r₁.1.Twins a R r₂.1
  outcome : r₁.2 = r₂.2

theorem TwinResults.exists_eq {α : Type} {a : Realm × Realm} {R : ScopeId → ScopeId → Prop}
    {r₁ r₂ : Store × α} (h : TwinResults a R r₁ r₂) :
    ∃ st₁ st₂ x, r₁ = (st₁, x) ∧ r₂ = (st₂, x) ∧ st₁.Twins a R st₂ :=
  ⟨r₁.1, r₂.1, r₁.2, rfl, by rw [h.outcome], h.store⟩

variable {a : Realm × Realm} {R : ScopeId → ScopeId → Prop} {st st₁ st₂ : Store}
variable {s t : ScopeId}

/-! ## One store -/

theorem vars_add (st : Store) (vars : Record Value) (outer : List ScopeId) (s : ScopeId) :
    (st.add vars outer).1.vars s = if s = st.scopes.size then vars else st.vars s := by
  simp only [Store.vars, Store.add, Array.getElem?_push]
  by_cases hs : s = st.scopes.size
  · simp [hs]
  · simp [hs]

theorem extends_add (st : Store) (vars : Record Value) (outer : List ScopeId) :
    st.Extends (st.add vars outer).1 :=
  (add_spares (Nat.zero_le _) vars outer).toExtends

theorem Apart.setVars {b : Realm} {own : ScopeId → Prop} (h : st.Apart b own) (hs : own s)
    (vars : Record Value) : (st.setVars s vars).Apart b own where
  there t ht := by simpa [Store.setVars] using h.there t ht
  inside t ht := by
    rw [chain_setVars]
    exact h.inside t ht
  disjoint := h.disjoint
  foreign t ht := by
    have hne : t ≠ s := fun heq => h.disjoint s hs (heq ▸ ht)
    rw [vars_setVars, if_neg fun hts => hne hts.1]
    simpa [Store.setVars] using h.foreign t ht

/-- A new scope is not foreign, for all foreign scopes are there. -/
theorem Apart.add {b : Realm} {own own' : ScopeId → Prop} (h : st.Apart b own)
    {outer : List ScopeId} (hinside : ∃ t ∈ st.scopes.size :: outer, t ∈ b.roots)
    (hown : ∀ s, own' s → own s ∨ s = st.scopes.size) (vars : Record Value) :
    (st.add vars outer).1.Apart b own' where
  there s hs := by
    have hgrown : (st.add vars outer).1.scopes.size = st.scopes.size + 1 := by simp [Store.add]
    rw [hgrown]
    rcases hown s hs with hs | rfl
    · exact Nat.lt_succ_of_lt (h.there s hs)
    · exact Nat.lt_succ_self _
  inside s hs := by
    rcases hown s hs with hs | rfl
    · rw [(extends_add st vars outer).chain (h.there s hs)]
      exact h.inside s hs
    · exact (chain_add st vars outer).symm ▸ hinside
  disjoint s hs := by
    rcases hown s hs with hs | rfl
    · exact h.disjoint s hs
    · exact fun hforeign => Nat.lt_irrefl _ (h.foreign _ hforeign).1
  foreign s hs := by
    obtain ⟨hlt, hvars⟩ := h.foreign s hs
    rw [vars_add, if_neg (Nat.ne_of_lt hlt)]
    exact ⟨Nat.lt_of_lt_of_le hlt (extends_add st vars outer).size, hvars⟩

/-- Others may do anything to scopes that are not inside the realm. -/
theorem Apart.since {b : Realm} {own : ScopeId → Prop} {st' : Store} (h : st.Apart b own)
    (hext : st.Extends st') : st'.Apart (b.since st') own where
  there s hs := Nat.lt_of_lt_of_le (h.there s hs) hext.size
  inside s hs := by
    rw [hext.chain (h.there s hs)]
    exact h.inside s hs
  disjoint := h.disjoint
  foreign s hs := ⟨Nat.lt_of_lt_of_le (h.foreign s hs).1 hext.size, rfl⟩

/-- A run without scopes. -/
theorem Apart.begun {b : Realm} {own : ScopeId → Prop} (hown : ∀ s, ¬ own s)
    (h : ∀ s ∈ b.foreign, s < st.scopes.size) : st.Apart (b.since st) own where
  there s hs := absurd hs (hown s)
  inside s hs := absurd hs (hown s)
  disjoint s hs := absurd hs (hown s)
  foreign s hs := ⟨h s hs, rfl⟩

/-! ## Reading -/

namespace Twins

theorem eq_iff (h : st₁.Twins a R st₂) {s' t' : ScopeId} (hs : R s t) (ht : R s' t') :
    s = s' ↔ t = t' :=
  rel_eq h.unique hs ht

/-- The nearest scopes that satisfy the same are a pair. -/
theorem rel_find? {l₁ l₂ : List ScopeId} (h : List.Forall₂ R l₁ l₂) {p q : ScopeId → Bool}
    (hpq : ∀ s t, R s t → p s = q t) : Option.Rel R (l₁.find? p) (l₂.find? q) := by
  induction h with
  | nil => exact .none
  | @cons s t l₁ l₂ hst _ ih =>
      rw [List.find?_cons, List.find?_cons, hpq s t hst]
      split
      · exact .some hst
      · exact ih

theorem rel_getLastD {l₁ l₂ : List ScopeId} (h : List.Forall₂ R l₁ l₂) (hst : R s t) :
    R (l₁.getLastD s) (l₂.getLastD t) := by
  induction h generalizing s t with
  | nil => exact hst
  | cons hhead _ ih =>
      rw [List.getLastD_cons, List.getLastD_cons]
      exact ih hhead

theorem owner? (h : st₁.Twins a R st₂) (hst : R s t) (name : String) :
    Option.Rel R (st₁.owner? s name) (st₂.owner? t name) :=
  rel_find? (h.chain hst) fun _ _ hst => by rw [h.vars hst]

/-- **Reading.** The scopes of a pair find the same at every path. -/
theorem get (h : st₁.Twins a R st₂) (hst : R s t) : st₁.get s = st₂.get t := by
  funext p
  cases p with
  | nil => rfl
  | cons first rest =>
      have howner := h.owner? hst first.memberName
      simp only [Store.get]
      generalize st₁.owner? s first.memberName = u₁ at howner ⊢
      generalize st₂.owner? t first.memberName = u₂ at howner ⊢
      cases howner with
      | none => rfl
      | some howner => simp only [Option.bind_some, h.vars howner]

theorem contains (h : st₁.Twins a R st₂) (hst : R s t) (p : Path) :
    st₁.contains s p = st₂.contains t p := by
  rw [Store.contains, h.get hst, Store.contains]

theorem mapping (h : st₁.Twins a R st₂) (hst : R s t) : st₁.mapping s = st₂.mapping t := by
  have hstep : (Eq ⇒ R ⇒ Eq) (fun below u => Record.overlay below (st₁.vars u))
      (fun below u => Record.overlay below (st₂.vars u)) := by
    rintro below _ rfl u₁ u₂ hu
    exact congrArg below.overlay (h.vars hu)
  exact List.rel_foldl hstep rfl (List.rel_reverse (h.chain hst))

/-- Going outwards by the same number of steps leads from a pair to a pair. -/
theorem level (h : st₁.Twins a R st₂) (hst : R s t) (levels : Nat) :
    R (st₁.level s levels) (st₂.level t levels) := by
  have hchain := h.chain hst
  have hlength := hchain.length_eq
  unfold Store.level
  rcases Nat.lt_or_ge levels (st₁.chain s).length with hlt | hge
  · have hlt₂ : levels < (st₂.chain t).length := hlength ▸ hlt
    rw [List.getElem?_eq_getElem hlt, List.getElem?_eq_getElem hlt₂]
    exact hchain.get hlt hlt₂
  · rw [List.getElem?_eq_none hge, List.getElem?_eq_none (hlength ▸ hge)]
    exact rel_getLastD hchain hst

/-! ## Writing -/

theorem setVars (h : st₁.Twins a R st₂) (hst : R s t) (vars : Record Value) :
    (st₁.setVars s vars).Twins a R (st₂.setVars t vars) where
  first := h.first.setVars ⟨t, hst⟩ vars
  second := h.second.setVars ⟨s, hst⟩ vars
  unique := h.unique
  vars {s' t'} hst' := by
    have hs' := h.first.there s' ⟨t', hst'⟩
    have ht' := h.second.there t' ⟨s', hst'⟩
    simp only [vars_setVars, hs', ht', and_true, h.eq_iff hst' hst, h.vars hst']
  chain {s' t'} hst' := by
    rw [chain_setVars, chain_setVars]
    exact h.chain hst'

theorem setLocal (h : st₁.Twins a R st₂) (hst : R s t) (p : Path) (v : Value) :
    TwinResults a R (st₁.setLocal s p v) (st₂.setLocal t p v) := by
  unfold Store.setLocal
  rw [h.vars hst]
  exact ⟨h.setVars hst _, rfl⟩

theorem set (h : st₁.Twins a R st₂) (hst : R s t) (p : Path) (v : Value) :
    TwinResults a R (st₁.set s p v) (st₂.set t p v) := by
  refine h.setLocal ?_ p v
  cases p.root? with
  | none => exact hst
  | some name =>
      have howner := h.owner? hst name
      simp only [Option.bind_some]
      generalize st₁.owner? s name = u₁ at howner ⊢
      generalize st₂.owner? t name = u₂ at howner ⊢
      cases howner with
      | none => exact hst
      | some howner => exact howner

theorem put (h : st₁.Twins a R st₂) (reach : Reach) (hst : R s t) (p : Path) (v : Value) :
    TwinResults a R (st₁.put reach s p v) (st₂.put reach t p v) := by
  cases reach with
  | owner =>
      obtain ⟨hstore, houtcome⟩ := h.set hst p v
      exact ⟨hstore, congrArg (Option.map RunFailure.variable) houtcome⟩
  | itself =>
      obtain ⟨hstore, houtcome⟩ := h.setLocal hst p v
      exact ⟨hstore, congrArg (Option.map RunFailure.variable) houtcome⟩

/-- Where something is taken away first, and what remains there. -/
theorem rel_findSome? {l₁ l₂ : List ScopeId} (h : List.Forall₂ R l₁ l₂)
    {f g : ScopeId → Option (Record Value)} (hfg : ∀ s t, R s t → f s = g t) :
    Option.Rel (fun x y => R x.1 y.1 ∧ x.2 = y.2)
      (l₁.findSome? fun s => (f s).map fun vars => (s, vars))
      (l₂.findSome? fun t => (g t).map fun vars => (t, vars)) := by
  induction h with
  | nil => exact .none
  | @cons s t l₁ l₂ hst _ ih =>
      rw [List.findSome?_cons, List.findSome?_cons, hfg s t hst]
      cases g t with
      | none => exact ih
      | some vars => exact .some ⟨hst, rfl⟩

theorem unset (h : st₁.Twins a R st₂) (hst : R s t) (p : Path) :
    (st₁.unset s p).Twins a R (st₂.unset t p) := by
  have hfound := rel_findSome? (h.chain hst) fun u₁ u₂ hu =>
    congrArg (erase? · p) (h.vars hu)
  unfold Store.unset
  dsimp only
  generalize (st₁.chain s).findSome? _ = found₁ at hfound ⊢
  generalize (st₂.chain t).findSome? _ = found₂ at hfound ⊢
  cases hfound with
  | none => exact h
  | some hfound =>
      obtain ⟨hu, hvars⟩ := hfound
      dsimp only
      rw [hvars]
      exact h.setVars hu _

/-! ## Assignments -/

theorem assignTo (h : st₁.Twins a R st₂) (reach : Reach) (hst : R s t) (op : AssignOp)
    (targets : List Target) (values : List Value) :
    TwinResults a R (st₁.assignTo reach s op targets values)
      (st₂.assignTo reach t op targets values) := by
  induction targets generalizing st₁ st₂ values with
  | nil => exact ⟨h, rfl⟩
  | cons target targets ih =>
      cases target with
      | skip => exact ih h _
      | «variable» v =>
          simp only [Store.assignTo, h.get hst]
          split
          · exact ⟨h, rfl⟩
          · next p _ =>
              split
              · exact ⟨h, rfl⟩
              · next new _ =>
                  obtain ⟨st₁', st₂', failure, h₁, h₂, hput⟩ := (h.put reach hst p new).exists_eq
                  rw [h₁, h₂]
                  cases failure with
                  | some e => exact ⟨hput, rfl⟩
                  | none => exact ih hput _

theorem assign (h : st₁.Twins a R st₂) (reach : Reach) (hst : R s t) (b : Assignment) :
    TwinResults a R (st₁.assign reach s b) (st₂.assign reach t b) := by
  rw [Store.assign, Store.assign, h.get hst]
  split
  · exact ⟨h, rfl⟩
  · exact h.assignTo reach hst _ _ _

theorem unsetAll (h : st₁.Twins a R st₂) (hst : R s t) (vs : List Variable) :
    TwinResults a R (st₁.unsetAll s vs) (st₂.unsetAll t vs) := by
  induction vs generalizing st₁ st₂ with
  | nil => exact ⟨h, rfl⟩
  | cons v rest ih =>
      rw [Store.unsetAll, Store.unsetAll, h.get hst]
      split
      · exact ⟨h, rfl⟩
      · exact ih (h.unset hst _)

theorem bindItem (h : st₁.Twins a R st₂) (hst : R s t) (targets : List Target) (item : Value) :
    TwinResults a R (st₁.bindItem s targets item) (st₂.bindItem t targets item) :=
  h.assignTo .itself hst .set targets _

theorem setIndex (h : st₁.Twins a R st₂) (hst : R s t) (index : Nat) :
    (st₁.setIndex s index).Twins a R (st₂.setIndex t index) :=
  (h.setLocal hst _ _).store

/-! ## New scopes -/

/-- New scopes with the same variables, whose surroundings are paired off, are a pair. -/
theorem add (h : st₁.Twins a R st₂) {outer₁ outer₂ : List ScopeId}
    (houter : List.Forall₂ R outer₁ outer₂)
    (hinside₁ : ∃ u ∈ st₁.scopes.size :: outer₁, u ∈ a.1.roots)
    (hinside₂ : ∃ u ∈ st₂.scopes.size :: outer₂, u ∈ a.2.roots) (vars : Record Value) :
    (st₁.add vars outer₁).1.Twins a (Joined R st₁.scopes.size st₂.scopes.size)
      (st₂.add vars outer₂).1 := by
  have hold {s t : ScopeId} (hst : R s t) : s < st₁.scopes.size ∧ t < st₂.scopes.size :=
    ⟨h.first.there s ⟨t, hst⟩, h.second.there t ⟨s, hst⟩⟩
  have hmono : ∀ s t, R s t → Joined R st₁.scopes.size st₂.scopes.size s t := fun s t => .inl
  constructor
  case first =>
    refine h.first.add hinside₁ ?_ vars
    rintro s ⟨t, hst | ⟨rfl, -⟩⟩
    · exact .inl ⟨t, hst⟩
    · exact .inr rfl
  case second =>
    refine h.second.add hinside₂ ?_ vars
    rintro t ⟨s, hst | ⟨-, rfl⟩⟩
    · exact .inl ⟨s, hst⟩
    · exact .inr rfl
  case unique =>
    -- No old pair has a part in common with the new one, whose numbers were free.
    constructor
    · rintro s s' t (hst | ⟨rfl, rfl⟩) (hst' | ⟨rfl, heq⟩)
      · exact h.unique.1 hst hst'
      · exact absurd (hold hst).2 (heq ▸ Nat.lt_irrefl _)
      · exact absurd (hold hst').2 (Nat.lt_irrefl _)
      · rfl
    · rintro s t t' (hst | ⟨rfl, rfl⟩) (hst' | ⟨heq, rfl⟩)
      · exact h.unique.2 hst hst'
      · exact absurd (hold hst).1 (heq ▸ Nat.lt_irrefl _)
      · exact absurd (hold hst').1 (Nat.lt_irrefl _)
      · rfl
  case vars =>
    rintro s t (hst | ⟨rfl, rfl⟩)
    · rw [vars_add, vars_add, if_neg (Nat.ne_of_lt (hold hst).1),
        if_neg (Nat.ne_of_lt (hold hst).2), h.vars hst]
    · rw [vars_add, vars_add, if_pos rfl, if_pos rfl]
  case chain =>
    rintro s t (hst | ⟨rfl, rfl⟩)
    · rw [(extends_add st₁ vars outer₁).chain (hold hst).1,
        (extends_add st₂ vars outer₂).chain (hold hst).2]
      exact (h.chain hst).imp hmono
    · have hchain₁ := chain_add st₁ vars outer₁
      have hchain₂ := chain_add st₂ vars outer₂
      exact hchain₁ ▸ hchain₂ ▸ .cons (.inr ⟨rfl, rfl⟩) (houter.imp hmono)

/-- New scopes inside a pair are a pair. -/
theorem addChild (h : st₁.Twins a R st₂) (hst : R s t) (vars : Record Value) :
    (st₁.addChild s vars).1.Twins a (Joined R st₁.scopes.size st₂.scopes.size)
      (st₂.addChild t vars).1 := by
  obtain ⟨u₁, hu₁, hroot₁⟩ := h.first.inside s ⟨t, hst⟩
  obtain ⟨u₂, hu₂, hroot₂⟩ := h.second.inside t ⟨s, hst⟩
  exact h.add (h.chain hst) ⟨u₁, List.mem_cons_of_mem _ hu₁, hroot₁⟩
    ⟨u₂, List.mem_cons_of_mem _ hu₂, hroot₂⟩ vars

/-! ## Changes by others -/

/-- Whatever others do, twins stay twins if the variables inside the realms stay. -/
theorem since (h : st₁.Twins a R st₂) {st₁' st₂' : Store} (hext₁ : st₁.Extends st₁')
    (hext₂ : st₂.Extends st₂')
    (hkept₁ : ∀ s, (∃ u ∈ st₁.chain s, u ∈ a.1.roots) → st₁'.vars s = st₁.vars s)
    (hkept₂ : ∀ s, (∃ u ∈ st₂.chain s, u ∈ a.2.roots) → st₂'.vars s = st₂.vars s) :
    st₁'.Twins (a.1.since st₁', a.2.since st₂') R st₂' where
  first := h.first.since hext₁
  second := h.second.since hext₂
  unique := h.unique
  vars {s t} hst := by
    rw [hkept₁ s (h.first.inside s ⟨t, hst⟩), hkept₂ t (h.second.inside t ⟨s, hst⟩), h.vars hst]
  chain {s t} hst := by
    rw [hext₁.chain (h.first.there s ⟨t, hst⟩), hext₂.chain (h.second.there t ⟨s, hst⟩)]
    exact h.chain hst

/-- Two runs without scopes. -/
theorem begun (h₁ : ∀ s ∈ a.1.foreign, s < st₁.scopes.size)
    (h₂ : ∀ s ∈ a.2.foreign, s < st₂.scopes.size) :
    st₁.Twins (a.1.since st₁, a.2.since st₂) (fun _ _ => False) st₂ where
  first := .begun (fun _ ⟨_, h⟩ => h) h₁
  second := .begun (fun _ ⟨_, h⟩ => h) h₂
  unique := ⟨fun _ _ _ h => h.elim, fun _ _ _ h => h.elim⟩
  vars h := h.elim
  chain h := h.elim

end Twins

end Store

end TabPilot
