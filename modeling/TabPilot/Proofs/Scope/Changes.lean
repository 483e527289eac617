import TabPilot.Proofs.Scope.Names
import TabPilot.Run.Assignment

set_option autoImplicit false

/-! # Changes made from a scope

Whatever is written goes to the scopes in single changes: a variable is set or taken away, from
some scope, or a scope is added. `ChangesFrom n` says that a store comes from another one by
changes that are made from scopes with numbers from `n` on. Such changes spare the scopes below
`n` (`ChangesFrom.spares`).
-/

namespace TabPilot.Store

inductive Change
  | set (s : ScopeId) (p : Path) (v : Value)
  | setLocal (s : ScopeId) (p : Path) (v : Value)
  | unset (s : ScopeId) (p : Path)
  | add (vars : Record Value) (outer : List ScopeId)

/-- The scope that a change is made from; a new scope is added from none. -/
def Change.scope? : Change → Option ScopeId
  | .set s _ _ | .setLocal s _ _ | .unset s _ => some s
  | .add _ _ => none

def carry (st : Store) : Change → Store
  | .set s p v => (st.set s p v).1
  | .setLocal s p v => (st.setLocal s p v).1
  | .unset s p => st.unset s p
  | .add vars outer => (st.add vars outer).1

/-- Whether `st'` is what `st` becomes by changes that are made from scopes from `n` on. -/
def ChangesFrom (n : Nat) (st st' : Store) : Prop :=
  ∃ changes : List Change, st' = changes.foldl carry st ∧
    ∀ c ∈ changes, ∀ s, c.scope? = some s → n ≤ s

variable {st st' st'' : Store} {n : Nat} {s : ScopeId}

namespace ChangesFrom

theorem refl (n : Nat) (st : Store) : st.ChangesFrom n st := ⟨[], rfl, List.forall_mem_nil _⟩

theorem trans (h : st.ChangesFrom n st') (h' : st'.ChangesFrom n st'') :
    st.ChangesFrom n st'' := by
  obtain ⟨changes, rfl, hfrom⟩ := h
  obtain ⟨changes', rfl, hfrom'⟩ := h'
  refine ⟨changes ++ changes', List.foldl_append.symm, ?_⟩
  intro c hc
  rcases List.mem_append.mp hc with hc | hc
  · exact hfrom c hc
  · exact hfrom' c hc

theorem carry {c : Change} (h : ∀ s, c.scope? = some s → n ≤ s) :
    st.ChangesFrom n (st.carry c) :=
  ⟨[c], rfl, List.forall_mem_singleton.mpr h⟩

end ChangesFrom

/-! ## What is spared -/

theorem carry_spares {c : Change} (hsize : n ≤ st.scopes.size)
    (h : ∀ s, c.scope? = some s → n ≤ s) : st.Spares n (st.carry c) := by
  cases c with
  | set s p v => exact set_spares (h s rfl) p v
  | setLocal s p v => exact setLocal_spares (h s rfl) p v
  | unset s p => exact unset_spares n st s p
  | add vars outer => exact add_spares hsize vars outer

theorem ChangesFrom.spares (h : st.ChangesFrom n st') (hsize : n ≤ st.scopes.size) :
    st.Spares n st' := by
  obtain ⟨changes, rfl, hfrom⟩ := h
  induction changes generalizing st with
  | nil => exact .refl n st
  | cons c rest ih =>
      obtain ⟨hc, hrest⟩ := List.forall_mem_cons.mp hfrom
      have hfirst : st.Spares n (st.carry c) := carry_spares hsize hc
      exact hfirst.trans (ih (Nat.le_trans hsize hfirst.size) hrest)

/-- No change takes a scope away. -/
theorem ChangesFrom.extends (h : st.ChangesFrom n st') : st.Extends st' := by
  obtain ⟨changes, heq, -⟩ := h
  have hall : st.ChangesFrom 0 st' := ⟨changes, heq, fun _ _ _ _ => Nat.zero_le _⟩
  exact (hall.spares (Nat.zero_le _)).toExtends

/-! ## Assignments -/

theorem put_changesFrom (reach : Reach) (h : n ≤ s) (p : Path) (v : Value) :
    st.ChangesFrom n (st.put reach s p v).1 := by
  cases reach with
  | owner => exact .carry (c := .set s p v) fun _ hs => Option.some.inj hs ▸ h
  | itself => exact .carry (c := .setLocal s p v) fun _ hs => Option.some.inj hs ▸ h

theorem unset_changesFrom (h : n ≤ s) (p : Path) : st.ChangesFrom n (st.unset s p) :=
  .carry (c := .unset s p) fun _ hs => Option.some.inj hs ▸ h

theorem add_changesFrom (vars : Record Value) (outer : List ScopeId) :
    st.ChangesFrom n (st.add vars outer).1 :=
  .carry (c := .add vars outer) nofun

theorem assignTo_changesFrom (reach : Reach) (h : n ≤ s) (op : AssignOp) (targets : List Target)
    (values : List Value) : st.ChangesFrom n (st.assignTo reach s op targets values).1 := by
  induction targets generalizing st values with
  | nil => exact .refl n st
  | cons target targets ih =>
      cases target with
      | skip => exact ih _
      | «variable» v =>
          simp only [assignTo]
          split
          · exact .refl n st
          · next p _ =>
              split
              · exact .refl n st
              · next new _ =>
                  have hput : st.ChangesFrom n (st.put reach s p new).1 :=
                    put_changesFrom reach h p new
                  split
                  · next heq => rwa [heq] at hput
                  · next heq =>
                      rw [heq] at hput
                      exact hput.trans (ih _)

theorem assign_changesFrom (reach : Reach) (h : n ≤ s) (a : Assignment) :
    st.ChangesFrom n (st.assign reach s a).1 := by
  rw [assign]
  split
  · exact .refl n st
  · exact assignTo_changesFrom reach h _ _ _

theorem unsetAll_changesFrom (h : n ≤ s) (vs : List Variable) :
    st.ChangesFrom n (st.unsetAll s vs).1 := by
  induction vs generalizing st with
  | nil => exact .refl n st
  | cons v rest ih =>
      rw [unsetAll]
      split
      · exact .refl n st
      · exact (unset_changesFrom h _).trans ih

theorem bindItem_changesFrom (h : n ≤ s) (targets : List Target) (item : Value) :
    st.ChangesFrom n (st.bindItem s targets item).1 :=
  assignTo_changesFrom .itself h _ _ _

theorem setIndex_changesFrom (h : n ≤ s) (index : Nat) :
    st.ChangesFrom n (st.setIndex s index) :=
  put_changesFrom .itself h [.key "index"] (.int index)

end TabPilot.Store
