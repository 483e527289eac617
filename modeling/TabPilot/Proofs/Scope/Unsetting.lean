import TabPilot.Proofs.Path.Removal
import TabPilot.Proofs.Scope.Writing

set_option autoImplicit false

/-! # Removing from scopes

Reading looks at one scope of a chain, the nearest one that holds the variable a path starts at,
and is content with what it finds there. Removing goes on outwards until some scope has something
at the end of the path. The main statement, `unset_spec`, says where this is the same and where it
is not: a path that reads something loses just that, but one that reads nothing may still lose
what a scope farther out has there. `unset_behind_shadow` is a chain on which that happens.
-/

namespace TabPilot.Store

/-- What a path leads to among the variables of one scope. -/
def own? (st : Store) (t : ScopeId) (p : Path) : Option Value :=
  p.root?.bind fun _ => (Value.object (st.vars t)).lookup p

/-- `t` is the first scope of the chain of `s` in which a path leads to something. -/
def FirstWith (st : Store) (s : ScopeId) (p : Path) (t : ScopeId) (found : Value) : Prop :=
  ∃ nearer farther, st.chain s = nearer ++ t :: farther ∧ st.own? t p = some found ∧
    ∀ u ∈ nearer, st.own? u p = none

/-- `st'` is `st` after the scope `t` has lost the value `gone` at the end of a path. -/
structure Takes (st st' : Store) (t : ScopeId) (p : Path) (gone : Value) : Prop where
  chain : ∀ u, st'.chain u = st.chain u
  others : ∀ u, u ≠ t → st'.vars u = st.vars u
  taken : ∃ above k, (Value.object (st.vars t)).locate? p = some (above ++ [k]) ∧
    (Value.object (st.vars t)).Loses above k gone (.object (st'.vars t))

/-! ## One scope -/

/-- Removing from a scope is removing from the object of its variables. -/
theorem map_erase? (vars : Record Value) (p : Path) :
    (erase? vars p).map .object = (Value.object vars).remove? p := by
  cases p with
  | nil => rfl
  | cons first rest =>
      cases rest with
      | nil =>
          by_cases hheld : vars.contains first.memberName = true <;>
            simp [erase?, Value.remove?, hheld]
      | cons next rest =>
          rw [Value.remove?_cons _ _ (List.cons_ne_nil next rest)]
          simp only [erase?, Option.map_bind, Option.map_map, Function.comp_def]
          rfl

theorem erase?_eq_none {st : Store} {t : ScopeId} {p : Path} (h : st.own? t p = none) :
    erase? (st.vars t) p = none := by
  cases p with
  | nil => rfl
  | cons first rest =>
      have hlookup : (Value.object (st.vars t)).lookup (first :: rest) = none := h
      have hremove := map_erase? (st.vars t) (first :: rest)
      rw [Value.remove?_eq_none hlookup] at hremove
      exact Option.map_eq_none_iff.mp hremove

theorem erase?_of_own? {st : Store} {t : ScopeId} {p : Path} {gone : Value}
    (h : st.own? t p = some gone) :
    ∃ vars above k, erase? (st.vars t) p = some vars ∧
      (Value.object (st.vars t)).locate? p = some (above ++ [k]) ∧
      (Value.object (st.vars t)).Loses above k gone (.object vars) := by
  obtain ⟨name, hroot, hlookup⟩ := Option.bind_eq_some_iff.mp h
  have hp : p ≠ [] := by
    rintro rfl
    cases hroot
  obtain ⟨v', above, k, hremove, hlocate, hloses⟩ := Value.remove?_of_lookup hp hlookup
  rw [← map_erase?] at hremove
  obtain ⟨vars, herase, rfl⟩ := Option.map_eq_some_iff.mp hremove
  exact ⟨vars, above, k, herase, hlocate, hloses⟩

/-- A scope in which a path leads to something is one of the store. -/
theorem lt_size_of_own? {st : Store} {t : ScopeId} {p : Path} {found : Value}
    (h : st.own? t p = some found) : t < st.scopes.size := by
  cases p with
  | nil => cases h
  | cons first rest =>
      have hlookup : (Value.object (st.vars t)).lookup (first :: rest) = some found := h
      obtain ⟨held, hheld, -⟩ := Option.bind_eq_some_iff.mp hlookup
      exact lt_size_of_contains (Option.isSome_iff_exists.mpr ⟨held, hheld⟩)

theorem Takes.setVars {st : Store} {t : ScopeId} {p : Path} {vars : Record Value} {gone : Value}
    {above : Location} {k : Place} (there : t < st.scopes.size)
    (hlocate : (Value.object (st.vars t)).locate? p = some (above ++ [k]))
    (hloses : (Value.object (st.vars t)).Loses above k gone (.object vars)) :
    Takes st (st.setVars t vars) t p gone where
  chain u := chain_setVars st t u vars
  others u hne := by rw [vars_setVars, if_neg fun h => hne h.1]
  taken := ⟨above, k, hlocate, by rw [vars_setVars, if_pos ⟨rfl, there⟩]; exact hloses⟩

/-- A scope that has lost something is not as it was. -/
theorem Takes.ne {st st' : Store} {t : ScopeId} {p : Path} {gone : Value}
    (h : Takes st st' t p gone) : st' ≠ st := by
  rintro rfl
  obtain ⟨above, k, -, hloses⟩ := h.taken
  obtain ⟨old, new, hold, hnew, hlacks⟩ := hloses.taken
  obtain rfl : old = new := Option.some.inj (hold.symm.trans hnew)
  exact hlacks.ne rfl

/-! ## The chain -/

/-- What a scope reads is the first thing its path leads to on the chain, in the scope that holds
the variable. -/
theorem firstWith_of_get {st : Store} {s : ScopeId} {p : Path} {found : Value}
    (h : st.get s p = some found) :
    ∃ name t, p.root? = some name ∧ st.Nearest s name t ∧ st.FirstWith s p t found := by
  cases p with
  | nil => cases h
  | cons first rest =>
      obtain ⟨t, howner, hheld⟩ := Option.bind_eq_some_iff.mp h
      have hnearest : st.Nearest s first.memberName t := owner?_eq_some_iff.mp howner
      refine ⟨first.memberName, t, rfl, hnearest, ?_⟩
      obtain ⟨nearer, farther, hchain, -, hnone⟩ := hnearest
      refine ⟨nearer, farther, hchain, hheld, fun u hu => ?_⟩
      -- Without the variable there is nothing at any path that starts at it.
      have hmissing : (st.vars u).get? first.memberName = none := by
        simpa [Record.contains] using hnone u hu
      simp [own?, Path.root?, Value.lookup, Value.child?, hmissing]

/-- **What a removal takes.** The first scope in which a path leads to something loses that. -/
theorem FirstWith.takes {st : Store} {s t : ScopeId} {p : Path} {gone : Value}
    (h : st.FirstWith s p t gone) : Takes st (st.unset s p) t p gone := by
  obtain ⟨nearer, farther, hchain, hown, hnone⟩ := h
  obtain ⟨vars, above, k, herase, hlocate, hloses⟩ := erase?_of_own? hown
  have hfound : (st.chain s).findSome? (fun u => (erase? (st.vars u) p).map fun vars => (u, vars)) =
      some (t, vars) := by
    refine List.findSome?_eq_some_iff.mpr ⟨nearer, t, farther, hchain, by simp [herase], ?_⟩
    intro u hu
    simp [erase?_eq_none (hnone u hu)]
  simp only [unset, hfound]
  exact .setVars (lt_size_of_own? hown) hlocate hloses

theorem unset_eq_self {st : Store} {s : ScopeId} {p : Path}
    (h : ∀ t ∈ st.chain s, st.own? t p = none) : st.unset s p = st := by
  have hfound : (st.chain s).findSome? (fun u => (erase? (st.vars u) p).map fun vars => (u, vars)) =
      none := by
    refine List.findSome?_eq_none_iff.mpr fun u hu => ?_
    simp [erase?_eq_none (h u hu)]
  simp only [unset, hfound]

theorem nowhere_or_firstWith (st : Store) (s : ScopeId) (p : Path) :
    (∀ t ∈ st.chain s, st.own? t p = none) ∨ ∃ t found, st.FirstWith s p t found := by
  cases hfound : (st.chain s).findSome? fun t => st.own? t p with
  | none => exact .inl (List.findSome?_eq_none_iff.mp hfound)
  | some found =>
      obtain ⟨nearer, t, farther, hfirst⟩ := List.findSome?_eq_some_iff.mp hfound
      exact .inr ⟨t, found, nearer, farther, hfirst⟩

/-! ## Removing and reading -/

/-- **What is read is removed, and more.** If a path reads `gone`, removing at it takes `gone` away
in the nearest scope that holds the variable of the path and changes nothing else. If it reads
nothing, removing changes nothing exactly when the path leads to nothing in any scope of the chain;
else the first scope in which it leads to something loses that. -/
theorem unset_spec (st : Store) (s : ScopeId) (p : Path) :
    (∀ gone, st.get s p = some gone → ∃ name t, p.root? = some name ∧ st.Nearest s name t ∧
      Takes st (st.unset s p) t p gone) ∧
    (st.contains s p = false →
      (st.unset s p = st ↔ ∀ t ∈ st.chain s, st.own? t p = none) ∧
      ∀ t gone, st.FirstWith s p t gone → Takes st (st.unset s p) t p gone) := by
  constructor
  · intro gone hget
    obtain ⟨name, t, hroot, hnearest, hfirst⟩ := firstWith_of_get hget
    exact ⟨name, t, hroot, hnearest, hfirst.takes⟩
  · intro _
    refine ⟨⟨fun hsame => ?_, unset_eq_self⟩, fun t gone hfirst => hfirst.takes⟩
    rcases nowhere_or_firstWith st s p with hnowhere | ⟨t, found, hfirst⟩
    · exact hnowhere
    · exact absurd hsame hfirst.takes.ne

/-- From an inner scope, the last element of a list that the outer scope holds, and a variable that
no scope holds. -/
theorem unset_spec_outer :
    let st : Store := ⟨#[⟨⟨[("a", .array [.int 1, .int 2])]⟩, []⟩, ⟨⟨[]⟩, [0]⟩]⟩
    let p : Path := [.key "a", .index (-1)]
    st.get 1 p = some (.int 2) ∧ (∃ t, Takes st (st.unset 1 p) t p (.int 2)) ∧
      st.contains 1 [.key "b"] = false ∧
      (st.unset 1 [.key "b"] = st ↔ ∀ t ∈ st.chain 1, st.own? t [.key "b"] = none) := by
  intro st p
  have hget : st.get 1 p = some (.int 2) := by rfl
  have habsent : st.contains 1 [.key "b"] = false := by rfl
  obtain ⟨-, t, -, -, htakes⟩ := (unset_spec st 1 p).1 (.int 2) hget
  exact ⟨hget, ⟨t, htakes⟩, habsent, ((unset_spec st 1 [.key "b"]).2 habsent).1⟩

/-- An inner `a` that is a number hides the object `a` around it from reading, but not from
removing. -/
theorem unset_behind_shadow :
    let st : Store := ⟨#[⟨⟨[("a", .object ⟨[("b", .int 1)]⟩)]⟩, []⟩, ⟨⟨[("a", .int 5)]⟩, [0]⟩]⟩
    let p : Path := [.key "a", .key "b"]
    st.contains 1 p = false ∧ st.get 0 p = some (.int 1) ∧ (st.unset 1 p).get 0 p = none := by
  exact ⟨rfl, rfl, rfl⟩

end TabPilot.Store
