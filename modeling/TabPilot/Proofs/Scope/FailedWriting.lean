import TabPilot.Proofs.Scope.Writing

set_option autoImplicit false

/-! # Writes that fail

A write makes places on its way down and may stop at any segment, without taking anything back.
Yet nothing is left of a write that fails: a place is made only where there was none or where
there was `null`, and below such a place no write fails. The main statement is
`eq_of_failed_write`.
-/

namespace TabPilot

namespace Value

/-! ## One step of a write -/

/-- A step that has to make a place makes it for `null`. -/
theorem eq_or_child?_of_withPlace {v ready : Value} {s : Segment} (h : v.withPlace s = .ok ready) :
    ready = v ∨ ready.child? s = some .null := by
  cases v with
  | null =>
      cases h
      exact .inr (by simp [child?])
  | object members =>
      simp only [withPlace] at h
      split at h
      · exact .inl (Except.ok.inj h).symm
      · cases h
        exact .inr (by simp [child?])
  | array items =>
      simp only [withPlace] at h
      split at h
      · exact .inl (Except.ok.inj h).symm
      · split at h
        · next happend =>
            cases h
            have hpos : s.position? (items.length + 1) = some items.length :=
              position?_of_appendsTo happend
            exact .inr (by simp [child?, hpos])
        · cases h
  | _ => cases h

/-- Putting back what stood there changes nothing. -/
theorem replaceChild_of_child? {v inner : Value} {s : Segment} (h : v.child? s = some inner) :
    v.replaceChild s inner = v := by
  cases v with
  | object members =>
      show Value.object (members.insert s.memberName inner) = _
      rw [Record.insert_self members s.memberName inner h]
  | array items =>
      obtain ⟨i, hpos, hi⟩ := Option.bind_eq_some_iff.mp h
      obtain ⟨hlt, rfl⟩ := List.getElem?_eq_some_iff.mp hi
      simp only [replaceChild, hpos, List.set_getElem_self]
  | _ => cases h

/-! ## Writes into values -/

/-- Every write into `null` succeeds. -/
theorem write_null (p : Path) (new : Value) : (Value.null.write p new).2 = none := by
  induction p with
  | nil => rfl
  | cons s rest ih =>
      have hready :
          Value.null.withPlace s = .ok (.object (Record.empty.insert s.memberName .null)) := rfl
      have hchild : (Value.object (Record.empty.insert s.memberName .null)).child? s =
          some .null := by simp [child?]
      rw [write, hready]
      simp only [hchild, Option.getD_some]
      exact ih

/-- **A write that fails leaves a value as it was.** -/
theorem eq_of_write_fails {v v' : Value} {p : Path} {new : Value} {e : Path.Failure}
    (h : v.write p new = (v', some e)) : v' = v := by
  -- The induction is on the path: at the first place that had to be made the rest cannot fail, and
  -- up to there every step puts back what it took.
  induction p generalizing v v' with
  | nil => cases h
  | cons s rest ih =>
      rw [write] at h
      cases hready : v.withPlace s with
      | error cause =>
          rw [hready] at h
          exact (Prod.mk.inj h).1.symm
      | ok ready =>
          obtain ⟨k, hplace, -, -⟩ := withPlace_spec hready
          obtain ⟨held, hheld⟩ := place?_eq_some hplace
          have hchild : ready.child? s = some held := by rw [child?_eq_inside?, hplace]; exact hheld
          simp only [hready, hchild, Option.getD_some] at h
          obtain ⟨inner, failure, hinner⟩ :
              ∃ inner failure, held.write rest new = (inner, failure) := ⟨_, _, rfl⟩
          obtain ⟨rfl, rfl⟩ : ready.replaceChild s inner = v' ∧ failure = some e := by
            simpa [hinner] using h
          rcases eq_or_child?_of_withPlace hready with rfl | hnull
          · rw [ih hinner, replaceChild_of_child? hchild]
          · obtain rfl : held = .null := Option.some.inj (hchild.symm.trans hnull)
            have hnone : (Value.null.write rest new).2 = none := write_null rest new
            rw [hinner] at hnone
            cases hnone

end Value

namespace Store

/-! ## Writes into scopes -/

theorem eq_of_write_fails {vars vars' : Record Value} {p : Path} {new : Value} {e : Failure}
    (h : write vars p new = (vars', some e)) : vars' = vars := by
  cases p with
  | nil => exact (Prod.mk.inj h).1.symm
  | cons first rest =>
      simp only [write] at h
      obtain ⟨hvars, hfailure⟩ := Prod.mk.inj h
      obtain ⟨cause, hcause, -⟩ := Option.map_eq_some_iff.mp hfailure
      cases hheld : vars.get? first.memberName with
      | none =>
          -- A variable that is not there is written as if it were null.
          rw [hheld, Option.getD_none, Value.write_null] at hcause
          cases hcause
      | some held =>
          rw [hheld, Option.getD_some] at hvars hcause
          have hsame : (held.write rest new).1 = held :=
            Value.eq_of_write_fails (Prod.ext rfl hcause)
          rw [← hvars, hsame, Record.insert_self vars first.memberName held hheld]

theorem setVars_vars (st : Store) (s : ScopeId) : st.setVars s (st.vars s) = st := by
  have hscopes :
      st.scopes.modify s (fun scope => { scope with vars := st.vars s }) = st.scopes := by
    refine Array.ext_getElem? fun t => ?_
    rw [Array.getElem?_modify]
    split
    · next hs =>
        subst hs
        cases hscope : st.scopes[s]? with
        | none => rfl
        | some scope => simp [Store.vars, hscope]
    · rfl
  rw [setVars, hscopes]

/-- **A failed write changes nothing.** If a write fails, at the scope that holds the variable or
at the scope itself, then every scope of the store is as it was. -/
theorem eq_of_failed_write {st st' : Store} {s : ScopeId} {p : Path} {v : Value} {e : Failure}
    (h : st.set s p v = (st', some e) ∨ st.setLocal s p v = (st', some e)) : st' = st := by
  -- Both kinds of writes write to one scope and differ in which one it is.
  obtain ⟨t, ht⟩ : ∃ t, st.setLocal t p v = (st', some e) := by
    rcases h with h | h
    · exact ⟨_, h⟩
    · exact ⟨s, h⟩
  obtain ⟨vars', failure, hwrite⟩ : ∃ vars' failure, write (st.vars t) p v = (vars', failure) :=
    ⟨_, _, rfl⟩
  obtain ⟨rfl, rfl⟩ : st.setVars t vars' = st' ∧ failure = some e := by
    simpa [setLocal, hwrite] using ht
  rw [eq_of_write_fails hwrite, setVars_vars]

/-- From an inner scope, past the end of a list inside the last element of another list. -/
theorem eq_of_failed_write_nested :
    let st : Store :=
      ⟨#[⟨⟨[("a", .array [.null, .object ⟨[("b", .array [.int 1])]⟩])]⟩, []⟩, ⟨⟨[]⟩, [0]⟩]⟩
    let p : Path := [.key "a", .index (-1), .key "b", .index 5, .key "c"]
    ∃ st', st.set 1 p (.int 7) = (st', some (.path (.outOfRange (.index 5)))) ∧ st' = st := by
  intro st p
  have hset : st.set 1 p (.int 7) = (st, some (.path (.outOfRange (.index 5)))) := by rfl
  exact ⟨st, hset, eq_of_failed_write (.inl hset)⟩

end Store

end TabPilot
