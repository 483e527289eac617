import TabPilot.Proofs.Path.Location
import TabPilot.Scope.Store

set_option autoImplicit false

/-! # Writing to a scope

Writing and reading search a chain for a variable apart from each other, and follow a path apart
from each other. The main statement, `get_of_set`, says that they meet: what was written at a
path is read there, from the one scope that was written to, and nothing else has changed.
-/

namespace TabPilot.Store

/-! ## Replacing the variables of a scope -/

theorem vars_setVars (st : Store) (s t : ScopeId) (vars : Record Value) :
    (st.setVars s vars).vars t =
      if t = s ∧ t < st.scopes.size then vars else st.vars t := by
  unfold Store.vars Store.setVars
  rw [Array.getElem?_modify]
  by_cases hs : s = t
  · subst hs
    by_cases hlt : s < st.scopes.size
    · simp [hlt]
    · simp [hlt]
  · simp [hs, Ne.symm hs]

theorem outer_setVars (st : Store) (s t : ScopeId) (vars : Record Value) :
    (st.setVars s vars).outer t = st.outer t := by
  unfold Store.outer Store.setVars
  rw [Array.getElem?_modify]
  by_cases hs : s = t
  · subst hs
    cases st.scopes[s]? <;> simp
  · simp [hs]

theorem chain_setVars (st : Store) (s t : ScopeId) (vars : Record Value) :
    (st.setVars s vars).chain t = st.chain t := by
  rw [chain, outer_setVars, chain]

/-- A scope that holds a variable is one of the store. -/
theorem lt_size_of_contains {st : Store} {s : ScopeId} {name : String}
    (h : (st.vars s).contains name = true) : s < st.scopes.size := by
  rcases Nat.lt_or_ge s st.scopes.size with hlt | hge
  · exact hlt
  · have hnone : st.scopes[s]? = none := Array.getElem?_eq_none hge
    simp [Store.vars, hnone, Record.contains] at h

/-! ## The scope that is written to -/

/-- `t` is the nearest scope of the chain of `s` that holds a variable. -/
def Nearest (st : Store) (s : ScopeId) (name : String) (t : ScopeId) : Prop :=
  ∃ nearer farther, st.chain s = nearer ++ t :: farther ∧ (st.vars t).contains name = true ∧
    ∀ u ∈ nearer, (st.vars u).contains name = false

/-- `t` is the scope that a variable is written to from `s`: the nearest one that holds it, or
`s` itself when none does. -/
def WriteScope (st : Store) (s : ScopeId) (name : String) (t : ScopeId) : Prop :=
  st.Nearest s name t ∨ (∀ u ∈ st.chain s, (st.vars u).contains name = false) ∧ t = s

theorem owner?_eq_some_iff {st : Store} {s t : ScopeId} {name : String} :
    st.owner? s name = some t ↔ st.Nearest s name t := by
  unfold owner? Nearest
  rw [List.find?_eq_some_iff_append]
  constructor
  · rintro ⟨hheld, nearer, farther, hchain, hnone⟩
    exact ⟨nearer, farther, hchain, hheld, fun u hu => by simpa using hnone u hu⟩
  · rintro ⟨nearer, farther, hchain, hheld, hnone⟩
    exact ⟨hheld, nearer, farther, hchain, fun u hu => by simpa using hnone u hu⟩

/-- `set` writes to the target. -/
theorem writeScope_getD_owner? (st : Store) (s : ScopeId) (name : String) :
    st.WriteScope s name ((st.owner? s name).getD s) := by
  cases howner : st.owner? s name with
  | some t => exact .inl (owner?_eq_some_iff.mp howner)
  | none =>
      refine .inr ⟨fun u hu => ?_, rfl⟩
      simpa using List.find?_eq_none.mp howner u hu

/-- Nothing in front of the target holds the variable. -/
theorem WriteScope.chain_eq {st : Store} {s t : ScopeId} {name : String}
    (target : st.WriteScope s name t) :
    ∃ nearer farther, st.chain s = nearer ++ t :: farther ∧
      ∀ u ∈ nearer, u ≠ t ∧ (st.vars u).contains name = false := by
  -- Without a holder the target is the scope itself, which comes first in its chain.
  rcases target with ⟨nearer, farther, hchain, hheld, hnone⟩ | ⟨-, rfl⟩
  · refine ⟨nearer, farther, hchain, fun u hu => ⟨?_, hnone u hu⟩⟩
    rintro rfl
    rw [hnone u hu] at hheld
    cases hheld
  · exact ⟨[], st.outer t, rfl, by simp⟩

theorem WriteScope.lt_size {st : Store} {s t : ScopeId} {name : String}
    (target : st.WriteScope s name t) (there : s < st.scopes.size) : t < st.scopes.size := by
  rcases target with ⟨-, -, -, hheld, -⟩ | ⟨-, rfl⟩
  · exact lt_size_of_contains hheld
  · exact there

/-- Once the target holds the variable, reading finds it there. -/
theorem WriteScope.owner?_setVars {st : Store} {s t : ScopeId} {name : String}
    (target : st.WriteScope s name t) (there : s < st.scopes.size) {vars : Record Value}
    (held : vars.contains name = true) : (st.setVars t vars).owner? s name = some t := by
  obtain ⟨nearer, farther, hchain, hnearer⟩ := target.chain_eq
  refine owner?_eq_some_iff.mpr ⟨nearer, farther, by rw [chain_setVars, hchain], ?_, ?_⟩
  · rw [vars_setVars, if_pos ⟨rfl, target.lt_size there⟩]
    exact held
  · intro u hu
    obtain ⟨hne, hnone⟩ := hnearer u hu
    rw [vars_setVars, if_neg fun h => hne h.1]
    exact hnone

/-! ## Writing and reading -/

/-- A scope is written like the object of its variables. -/
theorem write_object (vars : Record Value) (first : Segment) (rest : Path) (new : Value) :
    (Value.object vars).write (first :: rest) new =
      (.object (vars.insert first.memberName
          (((vars.get? first.memberName).getD .null).write rest new).1),
        (((vars.get? first.memberName).getD .null).write rest new).2) := by
  rw [Value.write]
  -- A name that is new is inserted twice, as null and with the value that is written.
  by_cases hheld : vars.contains first.memberName = true
  · simp [Value.withPlace, hheld, Value.child?, Value.replaceChild]
  · have hnone : vars.get? first.memberName = none := Option.not_isSome_iff_eq_none.mp hheld
    simp [Value.withPlace, hheld, Value.child?, Value.replaceChild, hnone, Record.insert_insert]

/-- **Where a scope is written.** A write that succeeds reaches the location of its path among the
variables of the scope and disturbs nothing beside it. -/
theorem write_spec {vars vars' : Record Value} {p : Path} {new : Value}
    (h : write vars p new = (vars', none)) :
    ∃ name, p.root? = some name ∧ vars'.contains name = true ∧
      (Value.object vars).write p new = (.object vars', none) := by
  cases p with
  | nil => cases h
  | cons first rest =>
      simp only [write] at h
      obtain ⟨hvars, hfailure⟩ := Prod.mk.inj h
      have hok : (((vars.get? first.memberName).getD .null).write rest new).2 = none := by
        simpa using hfailure
      refine ⟨first.memberName, rfl, ?_, ?_⟩
      · rw [← hvars]
        simp [Record.contains]
      · rw [write_object, hvars, hok]

theorem get_eq_lookup {st : Store} {s t : ScopeId} {p : Path} {name : String}
    (root : p.root? = some name) (owner : st.owner? s name = some t) :
    st.get s p = (Value.object (st.vars t)).lookup p := by
  cases p with
  | nil => cases root
  | cons first rest =>
      obtain rfl : first.memberName = name := Option.some.inj root
      simp only [get, owner, Option.bind_some]
      rfl

/-- **What is written is read.** If `v` was set at a path from the scope `s`, then `s` reads `v`
there. The scope written to is the nearest one that holds the variable of the path, or `s` when
none does. No other scope has changed, and no scope has moved. In the scope written to, `v` stands
at the location of the path, which is the one that the path led to before if it led anywhere;
every location beside it, which is not that location, not inside it and not on the way to it,
still holds what it held. -/
theorem get_of_set {st st' : Store} {s : ScopeId} {p : Path} {v : Value}
    (there : s < st.scopes.size) (h : st.set s p v = (st', none)) :
    st'.get s p = some v ∧ (∀ u, st'.chain u = st.chain u) ∧
    ∃ name t l, p.root? = some name ∧ st.WriteScope s name t ∧
      (∀ u, u ≠ t → st'.vars u = st.vars u) ∧
      (Value.object (st'.vars t)).locate? p = some l ∧
      (Value.object (st'.vars t)).at? l = some v ∧
      (∀ l', (Value.object (st.vars t)).locate? p = some l' → l' = l) ∧
      ∀ q old, q.Beside l → (Value.object (st.vars t)).at? q = some old →
        (Value.object (st'.vars t)).at? q = some old := by
  unfold set setLocal at h
  -- The scope that is written to is found before the write, and read from after it.
  generalize ht : (p.root?.bind (st.owner? s)).getD s = t at h
  obtain ⟨vars', failure, hwrite⟩ : ∃ vars' failure, write (st.vars t) p v = (vars', failure) :=
    ⟨_, _, rfl⟩
  obtain ⟨rfl, rfl⟩ : st.setVars t vars' = st' ∧ failure = none := by simpa [hwrite] using h
  obtain ⟨name, hroot, hheld, hobject⟩ := write_spec hwrite
  have target : st.WriteScope s name t := by
    rw [hroot, Option.bind_some] at ht
    rw [← ht]
    exact writeScope_getD_owner? st s name
  have hvars : (st.setVars t vars').vars t = vars' := by
    rw [vars_setVars, if_pos ⟨rfl, target.lt_size there⟩]
  obtain ⟨l, hlocate, hbefore, hnew, hframe⟩ := Value.write_spec hobject
  refine ⟨?_, fun u => chain_setVars st t u vars', name, t, l, hroot, target, ?_, ?_⟩
  · rw [get_eq_lookup hroot (target.owner?_setVars there hheld), hvars, Value.lookup_eq_at?,
      hlocate]
    exact hnew
  · intro u hne
    rw [vars_setVars, if_neg fun h => hne h.1]
  · rw [hvars]
    exact ⟨hlocate, hnew, hbefore, hframe⟩

/-- From an inner scope, the last element of a list that the outer scope holds. -/
theorem get_of_set_outer :
    let st : Store := ⟨#[⟨⟨[("a", .array [.int 1, .int 2])]⟩, []⟩, ⟨⟨[]⟩, [0]⟩]⟩
    let st' : Store := ⟨#[⟨⟨[("a", .array [.int 1, .int 7])]⟩, []⟩, ⟨⟨[]⟩, [0]⟩]⟩
    1 < st.scopes.size ∧ st.set 1 [.key "a", .index (-1)] (.int 7) = (st', none) ∧
      st'.get 1 [.key "a", .index (-1)] = some (.int 7) ∧
      ∃ name t, st.WriteScope 1 name t ∧ ∀ u, u ≠ t → st'.vars u = st.vars u := by
  intro st st'
  have there : 1 < st.scopes.size := by decide
  have hset : st.set 1 [.key "a", .index (-1)] (.int 7) = (st', none) := by rfl
  obtain ⟨hget, -, name, t, -, -, target, hother, -⟩ := get_of_set there hset
  exact ⟨there, hset, hget, name, t, target, hother⟩

end TabPilot.Store
