import TabPilot.Proofs.Path.Location

set_option autoImplicit false

/-! # Removal

`remove?` goes down a path as `lookup` does and takes away what it finds at the end. `Lacks` says
what that leaves of the value right above, `Loses` what it leaves of the whole value. The main
statements are `remove?_of_lookup`, for a path that leads somewhere, and `remove?_eq_none`, for one
that does not.
-/

namespace TabPilot.Value

/-- `new` is `old` without the value `gone` at a place: an object without that member, or a list
whose other elements have moved together in their order. -/
inductive Lacks : Value → Place → Value → Value → Prop
  | member {members rest : Record Value} {name : String} {gone : Value}
      (held : members.get? name = some gone) (missing : rest.get? name = none)
      (others : ∀ other, other ≠ name → rest.get? other = members.get? other) :
      Lacks (.object members) (.member name) gone (.object rest)
  | element (before : List Value) (gone : Value) (after : List Value) :
      Lacks (.array (before ++ gone :: after)) (.position before.length) gone
        (.array (before ++ after))

/-- `v'` is `v` after the value at `above` has lost `gone`, which stood at the place `k` of it.
Every location that is not on the way to `above` or inside it holds what it held. -/
structure Loses (v : Value) (above : Location) (k : Place) (gone v' : Value) : Prop where
  taken : ∃ old new, v.at? above = some old ∧ v'.at? above = some new ∧ Lacks old k gone new
  beside : ∀ q : Location, q.Beside above → v'.at? q = v.at? q

theorem Lacks.inside? {old gone new : Value} {k : Place} (h : Lacks old k gone new) :
    old.inside? k = some gone := by
  cases h with
  | member held => exact held
  | element before gone after => simp [Value.inside?]

theorem Lacks.ne {old gone new : Value} {k : Place} (h : Lacks old k gone new) : old ≠ new := by
  cases h with
  | member held missing others =>
      intro heq
      rw [Value.object.inj heq, missing] at held
      cases held
  | element before gone after => simp

/-- What is gone stood there before. -/
theorem Loses.at? {v gone v' : Value} {above : Location} {k : Place}
    (h : v.Loses above k gone v') : v.at? (above ++ [k]) = some gone := by
  obtain ⟨old, new, hold, -, lacks⟩ := h.taken
  clear h
  induction above generalizing v with
  | nil =>
      obtain rfl : v = old := Option.some.inj hold
      simp [lacks.inside?]
  | cons k' above ih =>
      obtain ⟨inner, hinner, hold⟩ := Option.bind_eq_some_iff.mp hold
      rw [List.cons_append, at?_cons, hinner, Option.bind_some]
      exact ih hold

theorem Loses.here {v gone v' : Value} {k : Place} (h : Lacks v k gone v') :
    v.Loses [] k gone v' where
  taken := ⟨v, v', rfl, rfl, h⟩
  beside := fun _ hbeside => absurd List.nil_prefix hbeside.2

/-- A loss below one place is a loss of the whole value if the other places are as they were. -/
theorem Loses.below {v inner gone v' inner' : Value} {k k' : Place} {above : Location}
    (h : inner.Loses above k gone inner') (held : v.inside? k' = some inner)
    (put : v'.inside? k' = some inner') (others : ∀ j, j ≠ k' → v'.inside? j = v.inside? j) :
    v.Loses (k' :: above) k gone v' where
  taken := by
    obtain ⟨old, new, hold, hnew, lacks⟩ := h.taken
    exact ⟨old, new, by simp [held, hold], by simp [put, hnew], lacks⟩
  beside := by
    intro q hbeside
    cases q with
    | nil => exact absurd List.nil_prefix hbeside.1
    | cons j q =>
        by_cases hj : j = k'
        · subst hj
          simp [held, put, h.beside q (Location.beside_cons_iff.mp hbeside)]
        · simp [others j hj]

/-! ## One step of a removal -/

/-- The step at the end of a path takes away what stands at the place that it leads to. -/
theorem remove?_leaf {v gone : Value} {s : Segment} {k : Place} (hplace : v.place? s = some k)
    (held : v.inside? k = some gone) : ∃ v', v.remove? [s] = some v' ∧ Lacks v k gone v' := by
  cases v with
  | object members =>
      simp only [place?] at hplace
      split at hplace
      · next hmember =>
          cases hplace
          refine ⟨.object (members.erase s.memberName), by simp [remove?, hmember],
            .member held (by simp) fun other hother => by simp [hother]⟩
      · cases hplace
  | array items =>
      obtain ⟨i, hpos, rfl⟩ := Option.map_eq_some_iff.mp hplace
      obtain ⟨hlt, hi⟩ := List.getElem?_eq_some_iff.mp held
      have hsplit : items = items.take i ++ gone :: items.drop (i + 1) := by
        rw [← hi, List.getElem_cons_drop, List.take_append_drop]
      have hlength : (items.take i).length = i := by simp; omega
      have hlacks := Lacks.element (items.take i) gone (items.drop (i + 1))
      rw [← hsplit, hlength, ← List.eraseIdx_eq_take_drop_succ] at hlacks
      exact ⟨.array (items.eraseIdx i), by simp [remove?, hpos], hlacks⟩
  | _ => cases hplace

/-- Every other step removes the rest of the path from what stands there and puts the result
back. -/
theorem remove?_cons (v : Value) (s : Segment) {rest : Path} (hrest : rest ≠ []) :
    v.remove? (s :: rest) =
      (v.child? s).bind fun inner => (inner.remove? rest).map (v.replaceChild s) := by
  obtain ⟨next, rest, rfl⟩ := List.exists_cons_of_ne_nil hrest
  cases v with
  | array items =>
      cases hpos : s.position? items.length with
      | none => simp [remove?, child?, hpos]
      | some i =>
          have hput : (Value.array items).replaceChild s =
              fun changed => .array (items.set i changed) :=
            funext fun changed => by simp [replaceChild, hpos]
          simp [remove?, child?, hpos, hput]
  | _ => rfl

/-! ## Removing at a path -/

/-- **A removal takes away what the path reads.** It succeeds wherever the path leads to something,
and takes that away from the value right above it and nothing else. -/
theorem remove?_of_lookup {v gone : Value} {p : Path} (hp : p ≠ []) (h : v.lookup p = some gone) :
    ∃ v' above k, v.remove? p = some v' ∧ v.locate? p = some (above ++ [k]) ∧
      v.Loses above k gone v' := by
  -- The induction is on the path: the last step takes away, those before it put back.
  induction p generalizing v with
  | nil => exact absurd rfl hp
  | cons s rest ih =>
      obtain ⟨inner, hinner, hbelow⟩ := Option.bind_eq_some_iff.mp h
      rw [child?_eq_inside?] at hinner
      obtain ⟨k', hplace, hheld⟩ := Option.bind_eq_some_iff.mp hinner
      by_cases hrest : rest = []
      · subst hrest
        obtain rfl : inner = gone := Option.some.inj hbelow
        obtain ⟨v', hremove, hlacks⟩ := remove?_leaf hplace hheld
        exact ⟨v', [], k', hremove, by simp [locate?, hplace, hheld], .here hlacks⟩
      · obtain ⟨inner', above, k, hremove, hlocate, hloses⟩ := ih hrest hbelow
        obtain ⟨-, hput, hother⟩ := replaceChild_spec hplace inner'
        refine ⟨v.replaceChild s inner', k' :: above, k, ?_,
          by simp [locate?, hplace, hheld, hlocate], hloses.below hheld hput hother⟩
        rw [remove?_cons v s hrest, child?_eq_inside?, hplace]
        simp [hheld, hremove]

/-- **A removal needs something to remove.** At a path that leads nowhere there is none. -/
theorem remove?_eq_none {v : Value} {p : Path} (h : v.lookup p = none) : v.remove? p = none := by
  induction p generalizing v with
  | nil => rfl
  | cons s rest ih =>
      by_cases hrest : rest = []
      · subst hrest
        have hnone : v.child? s = none := by simpa [lookup] using h
        cases v with
        | object members =>
            have hmember : members.get? s.memberName = none := hnone
            simp [remove?, Record.contains, hmember]
        | array items =>
            cases hpos : s.position? items.length with
            | none => simp [remove?, hpos]
            | some i => simp [child?, hpos, position?_lt hpos] at hnone
        | _ => rfl
      · rw [remove?_cons v s hrest]
        cases hchild : v.child? s with
        | none => rfl
        | some inner =>
            have hbelow : inner.lookup rest = none := by simpa [lookup, hchild] using h
            simp [ih hbelow]

end TabPilot.Value
