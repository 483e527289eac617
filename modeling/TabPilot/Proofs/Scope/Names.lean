import TabPilot.Proofs.Scope.Writing

set_option autoImplicit false

/-! # Where new names go

`Extends` says that scopes only come: a scope keeps its number and the scopes around it.
`Spares n` says besides that the scopes with numbers below `n` get no new names. Every way of
writing that begins at a scope from `n` on spares those below: what it adds goes to that scope,
and what it writes to a scope farther out is under a name that this scope holds.
-/

namespace TabPilot

namespace Record

variable {α : Type}

/-- The members after setting one. -/
theorem contains_insert {r : Record α} {name other : String} {value : α}
    (h : (r.insert name value).contains other = true) :
    other = name ∨ r.contains other = true := by
  by_cases hname : other = name
  · exact .inl hname
  · right
    simpa [contains, hname] using h

/-- The members after taking one away. -/
theorem contains_erase {r : Record α} {name other : String}
    (h : (r.erase name).contains other = true) : r.contains other = true := by
  by_cases hname : other = name
  · simp [contains, hname] at h
  · simpa [contains, hname] using h

/-- The members of a list of members. -/
theorem get?_ofList_eq_none {entries : List (String × α)} {name : String}
    (h : ∀ entry ∈ entries, entry.1 ≠ name) : (ofList entries).get? name = none := by
  have hfold : ∀ (rest : List (String × α)) (r : Record α), r.get? name = none →
      (∀ entry ∈ rest, entry.1 ≠ name) →
      (rest.foldl (fun r entry => r.insert entry.1 entry.2) r).get? name = none := by
    intro rest
    induction rest with
    | nil => intro r hr _; exact hr
    | cons entry rest ih =>
        intro r hr hrest
        obtain ⟨hentry, hrest⟩ := List.forall_mem_cons.mp hrest
        exact ih _ (by rw [get?_insert, if_neg hentry.symm, hr]) hrest
  exact hfold entries _ rfl h

end Record

namespace Store

/-- A scope holds a name after a change that it did not hold before. -/
def Gains (st st' : Store) (s : ScopeId) (name : String) : Prop :=
  (st.vars s).contains name = false ∧ (st'.vars s).contains name = true

/-- Every scope is still there, inside the same scopes. -/
structure Extends (st st' : Store) : Prop where
  size : st.scopes.size ≤ st'.scopes.size
  outer : ∀ s < st.scopes.size, st'.outer s = st.outer s

/-- No scope below `n` has got a new name, and every scope is still there. -/
structure Spares (n : Nat) (st st' : Store) : Prop extends Extends st st' where
  names : ∀ s < n, ∀ name, (st'.vars s).contains name = true → (st.vars s).contains name = true

def SameBelow (n : ScopeId) (st st' : Store) : Prop := ∀ s < n, st'.scopes[s]? = st.scopes[s]?

variable {st st' st'' : Store} {n : Nat} {s : ScopeId}

theorem Extends.refl (st : Store) : st.Extends st := ⟨Nat.le_refl _, fun _ _ => rfl⟩

theorem Extends.trans (h : st.Extends st') (h' : st'.Extends st'') : st.Extends st'' where
  size := Nat.le_trans h.size h'.size
  outer s hs := (h'.outer s (Nat.lt_of_lt_of_le hs h.size)).trans (h.outer s hs)

theorem Extends.chain (h : st.Extends st') (hs : s < st.scopes.size) :
    st'.chain s = st.chain s := by
  rw [Store.chain, Store.chain, h.outer s hs]

/-- A scope is as it was if its variables are. -/
theorem Extends.getElem?_eq (h : st.Extends st') (hs : s < st.scopes.size)
    (hvars : st'.vars s = st.vars s) : st'.scopes[s]? = st.scopes[s]? := by
  have houter := h.outer s hs
  have hs' : s < st'.scopes.size := Nat.lt_of_lt_of_le hs h.size
  simp only [Store.vars, Store.outer, Array.getElem?_eq_getElem hs,
    Array.getElem?_eq_getElem hs'] at hvars houter ⊢
  exact congrArg some (congr (congrArg Scope.mk hvars) houter)

theorem Spares.refl (n : Nat) (st : Store) : st.Spares n st := ⟨.refl st, fun _ _ _ h => h⟩

theorem Spares.trans (h : st.Spares n st') (h' : st'.Spares n st'') : st.Spares n st'' where
  toExtends := h.toExtends.trans h'.toExtends
  names s hs name held := h.names s hs name (h'.names s hs name held)

/-! ## New scopes -/

theorem chain_add (st : Store) (vars : Record Value) (outer : List ScopeId) :
    (st.add vars outer).1.chain (st.add vars outer).2 = st.scopes.size :: outer := by
  simp [Store.chain, Store.add, Store.outer]

/-- A new scope comes after those that there are. -/
theorem add_spares (h : n ≤ st.scopes.size) (vars : Record Value) (outer : List ScopeId) :
    st.Spares n (st.add vars outer).1 where
  size := by simp [Store.add]
  outer s hs := by simp [Store.outer, Store.add, Array.getElem?_push, Nat.ne_of_lt hs]
  names s hs name held := by
    have hne : s ≠ st.scopes.size := Nat.ne_of_lt (Nat.lt_of_lt_of_le hs h)
    simpa [Store.vars, Store.add, Array.getElem?_push, hne] using held

/-! ## Writing -/

/-- Replacing the variables of a scope that is not spared, or by no more names than it had. -/
theorem setVars_spares {vars : Record Value}
    (h : n ≤ s ∨ ∀ name, vars.contains name = true → (st.vars s).contains name = true) :
    st.Spares n (st.setVars s vars) where
  size := by simp [Store.setVars]
  outer t _ := outer_setVars st s t vars
  names t ht name held := by
    rw [vars_setVars] at held
    split at held
    · next hts =>
        obtain ⟨rfl, -⟩ := hts
        exact (h.resolve_left (Nat.not_le.mpr ht)) name held
    · exact held

/-- Writing along a path adds no name but the one that the path starts at. -/
theorem contains_write {vars : Record Value} {p : Path} {new : Value} {name : String}
    (h : (write vars p new).1.contains name = true) :
    p.root? = some name ∨ vars.contains name = true := by
  cases p with
  | nil => exact .inr h
  | cons first rest =>
      rcases Record.contains_insert h with rfl | hheld
      · exact .inl rfl
      · exact .inr hheld

theorem setLocal_spares (h : n ≤ s) (p : Path) (v : Value) :
    st.Spares n (st.setLocal s p v).1 :=
  setVars_spares (.inl h)

theorem set_spares (h : n ≤ s) (p : Path) (v : Value) : st.Spares n (st.set s p v).1 := by
  -- The path is written either in `s`, or in a scope that holds the variable it starts at.
  cases howner : p.root?.bind (st.owner? s) with
  | none =>
      rw [set, howner]
      exact setLocal_spares h p v
  | some t =>
      rw [set, howner]
      refine setVars_spares (.inr fun name hname => ?_)
      rcases contains_write hname with hroot | hheld
      · rw [hroot, Option.bind_some] at howner
        obtain ⟨-, -, -, hheld, -⟩ := owner?_eq_some_iff.mp howner
        exact hheld
      · exact hheld

/-- Taking away adds nothing, from whatever scope it begins. -/
theorem contains_erase? {vars vars' : Record Value} {p : Path} {name : String}
    (h : erase? vars p = some vars') (held : vars'.contains name = true) :
    vars.contains name = true := by
  unfold erase? at h
  split at h
  · cases h
  · split at h
    · cases h
      exact Record.contains_erase held
    · cases h
  · next first rest _ =>
      obtain ⟨v, hv, hchanged⟩ := Option.bind_eq_some_iff.mp h
      obtain ⟨changed, -, rfl⟩ := Option.map_eq_some_iff.mp hchanged
      rcases Record.contains_insert held with rfl | hheld
      · rw [Record.contains, hv]
        rfl
      · exact hheld

theorem unset_spares (n : Nat) (st : Store) (s : ScopeId) (p : Path) :
    st.Spares n (st.unset s p) := by
  rw [unset]
  split
  · next t vars hfound =>
      obtain ⟨u, -, hu⟩ := List.exists_of_findSome?_eq_some hfound
      obtain ⟨vars', herase, heq⟩ := Option.map_eq_some_iff.mp hu
      obtain ⟨rfl, rfl⟩ := Prod.mk.inj heq
      exact setVars_spares (.inr fun name held => contains_erase? herase held)
  · exact .refl n st

end Store

end TabPilot
