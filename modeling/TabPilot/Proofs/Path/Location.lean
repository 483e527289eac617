import TabPilot.Path.Access

set_option autoImplicit false

/-! # Locations

A path names a place in a value in several ways: `items[-1]`, `items.2` and `items[2]` may all
lead to the same element. A `Location` names it in one way, by member names and by positions
counted from the front. `locate?` says where a path leads, `at?` what stands at a location, and
`write_spec` where `Value.write` writes and that it disturbs nothing else.
-/

namespace TabPilot

/-- One step of a location. -/
inductive Place
  | member (name : String)
  | position (i : Nat)
  deriving Repr, DecidableEq

/-- The way to a value inside another one, in the one form that it has. -/
abbrev Location : Type := List Place

/-- Whether neither of two locations is the other one, on the way to it, or inside it. -/
def Location.Beside (l l' : Location) : Prop := ¬ l <+: l' ∧ ¬ l' <+: l

theorem Location.beside_cons_iff {k : Place} {l l' : Location} :
    Location.Beside (k :: l) (k :: l') ↔ Location.Beside l l' := by
  simp [Beside, List.cons_prefix_cons]

namespace Value

def inside? (v : Value) : Place → Option Value
  | .member name =>
      match v with
      | .object members => members.get? name
      | _ => none
  | .position i =>
      match v with
      | .array items => items[i]?
      | _ => none

def at? (v : Value) : Location → Option Value
  | [] => some v
  | k :: rest => (v.inside? k).bind fun inner => inner.at? rest

def place? (v : Value) (s : Segment) : Option Place :=
  match v with
  | .object members => if members.contains s.memberName then some (.member s.memberName) else none
  | .array items => (s.position? items.length).map .position
  | _ => none

def locate? (v : Value) : Path → Option Location
  | [] => some []
  | s :: rest =>
      (v.place? s).bind fun k =>
        (v.inside? k).bind fun inner => (inner.locate? rest).map fun l => k :: l

@[simp] theorem at?_nil (v : Value) : v.at? [] = some v := rfl

@[simp] theorem at?_cons (v : Value) (k : Place) (l : Location) :
    v.at? (k :: l) = (v.inside? k).bind fun inner => inner.at? l := rfl

@[simp] theorem locate?_nil (v : Value) : v.locate? [] = some [] := rfl

/-- A segment leads to the place it names and to nothing else. -/
theorem child?_eq_inside? (v : Value) (s : Segment) : v.child? s = (v.place? s).bind v.inside? := by
  cases v with
  | object members =>
      by_cases hmember : members.contains s.memberName = true
      · simp [child?, place?, inside?, hmember]
      · have hnone : members.get? s.memberName = none := by simpa [Record.contains] using hmember
        simp [child?, place?, hmember, hnone]
  | array items =>
      cases hpos : s.position? items.length <;> simp [child?, place?, inside?, hpos]
  | _ => rfl

/-- **Reading and locating agree.** A path reads what stands at its location. -/
theorem lookup_eq_at? (v : Value) (p : Path) : v.lookup p = (v.locate? p).bind v.at? := by
  induction p generalizing v with
  | nil => rfl
  | cons s rest ih =>
      rw [lookup, child?_eq_inside?, locate?]
      cases hplace : v.place? s with
      | none => rfl
      | some k =>
          simp only [Option.bind_some]
          cases hinside : v.inside? k with
          | none => rfl
          | some inner =>
              simp only [Option.bind_some]
              rw [ih inner]
              cases hrest : inner.locate? rest <;> simp [hinside]

/-! ## One step of a write -/

theorem position?_lt {s : Segment} {n i : Nat} (h : s.position? n = some i) : i < n := by
  unfold Segment.position? at h
  cases hnumber : s.number? with
  | none =>
      rw [hnumber] at h
      cases h
  | some j =>
      simp only [hnumber] at h
      generalize hcounted : (if j < 0 then (n : Int) + j else j) = counted at h
      by_cases hin : (decide (0 ≤ counted) && decide (counted < n)) = true
      · rw [if_pos hin] at h
        have hi : counted.toNat = i := Option.some.inj h
        have hbounds : 0 ≤ counted ∧ counted < n := by simpa using hin
        omega
      · rw [if_neg hin] at h
        cases h

theorem place?_eq_some {v : Value} {s : Segment} {k : Place} (h : v.place? s = some k) :
    ∃ inner, v.inside? k = some inner := by
  cases v with
  | object members =>
      simp only [place?] at h
      split at h
      · next hmember =>
          cases h
          exact Option.isSome_iff_exists.mp hmember
      · cases h
  | array items =>
      obtain ⟨i, hpos, rfl⟩ := Option.map_eq_some_iff.mp h
      exact ⟨items.get ⟨i, position?_lt hpos⟩, List.getElem?_eq_getElem (position?_lt hpos)⟩
  | _ => cases h

/-- The index one past the end is the position of the element that is appended there. -/
theorem position?_of_appendsTo {s : Segment} {n : Nat} (h : appendsTo s n = true) :
    s.position? (n + 1) = some n := by
  -- Only a position appends, never a key, even if it is all digits.
  cases s with
  | key name => cases h
  | index i =>
      obtain rfl : i = n := by simpa [appendsTo] using h
      have hneg : ¬ (n : Int) < 0 := by omega
      have hlast : (n : Int) < n + 1 := by omega
      simp [Segment.position?, Segment.number?, hneg, hlast]

/-- **Making a place.** A value that was made ready for a segment has a place for it: the one that
the segment led to, if it led anywhere. Nothing that was there is gone. -/
theorem withPlace_spec {v ready : Value} {s : Segment} (h : v.withPlace s = .ok ready) :
    ∃ k, ready.place? s = some k ∧ (∀ k', v.place? s = some k' → k' = k) ∧
      ∀ k' inner, v.inside? k' = some inner → ready.inside? k' = some inner := by
  cases v with
  | null =>
      cases h
      refine ⟨.member s.memberName, by simp [place?, Record.contains], nofun, ?_⟩
      intro k' inner hinner
      cases k' <;> cases hinner
  | object members =>
      simp only [withPlace] at h
      split at h
      · next hmember =>
          cases h
          exact ⟨.member s.memberName, by simp [place?, hmember], by simp [place?, hmember],
            fun _ _ hinner => hinner⟩
      · next hmember =>
          cases h
          have hnone : members.get? s.memberName = none := by
            simpa [Record.contains] using hmember
          -- The new member shadows nothing, since there was none of its name.
          refine ⟨.member s.memberName, by simp [place?, Record.contains],
            by simp [place?, hmember], ?_⟩
          intro k' inner hinner
          cases k' with
          | member name =>
              have hne : name ≠ s.memberName := by
                rintro rfl
                simp [inside?, hnone] at hinner
              simpa [inside?, hne] using hinner
          | position i => cases hinner
  | array items =>
      simp only [withPlace] at h
      split at h
      · next hthere =>
          cases h
          obtain ⟨i, hpos⟩ := Option.isSome_iff_exists.mp hthere
          exact ⟨.position i, by simp [place?, hpos], by simp [place?, hpos],
            fun _ _ hinner => hinner⟩
      · next hthere =>
          have hnone : s.position? items.length = none := by simpa using hthere
          split at h
          · next happend =>
              cases h
              have hpos := position?_of_appendsTo happend
              refine ⟨.position items.length, by simp [place?, hpos], by simp [place?, hnone], ?_⟩
              intro k' inner hinner
              cases k' with
              | member name => cases hinner
              | position i =>
                  -- What was there stands in front of the element that was appended.
                  have hlt : i < items.length := (List.getElem?_eq_some_iff.mp hinner).1
                  rw [inside?, List.getElem?_append_left hlt]
                  exact hinner
          · cases h
  | _ => cases h

/-- **Replacing what stands at a place** changes it and nothing beside it, and the segment still
leads there. -/
theorem replaceChild_spec {v : Value} {s : Segment} {k : Place} (h : v.place? s = some k)
    (new : Value) :
    (v.replaceChild s new).place? s = some k ∧ (v.replaceChild s new).inside? k = some new ∧
      ∀ k', k' ≠ k → (v.replaceChild s new).inside? k' = v.inside? k' := by
  cases v with
  | object members =>
      simp only [place?] at h
      split at h
      · cases h
        refine ⟨by simp [replaceChild, place?, Record.contains], by simp [replaceChild, inside?],
          ?_⟩
        intro k' hne
        cases k' with
        | member name =>
            have hname : name ≠ s.memberName := fun heq => hne (by rw [heq])
            simp [replaceChild, inside?, hname]
        | position i => rfl
      · cases h
  | array items =>
      obtain ⟨inner, hinner⟩ := place?_eq_some h
      obtain ⟨i, hpos, rfl⟩ := Option.map_eq_some_iff.mp h
      have hlt : i < items.length := (List.getElem?_eq_some_iff.mp hinner).1
      have hset : (Value.array items).replaceChild s new = .array (items.set i new) := by
        simp only [replaceChild, hpos]
      rw [hset]
      refine ⟨by simp [place?, hpos], by simp [inside?, hlt], ?_⟩
      intro k' hne
      cases k' with
      | member name => rfl
      | position j =>
          have hij : i ≠ j := fun heq => hne (by rw [heq])
          simp [inside?, hij]
  | _ => cases h

/-! ## Writing -/

/-- **Where a write goes.** A write that succeeds reaches the location of its path, which is the
one that the path had before if it had one. The new value stands there, and what stood beside it
stands there still. -/
theorem write_spec {v v' : Value} {p : Path} {new : Value} (h : v.write p new = (v', none)) :
    ∃ l, v'.locate? p = some l ∧ (∀ l', v.locate? p = some l' → l' = l) ∧ v'.at? l = some new ∧
      ∀ q old, q.Beside l → v.at? q = some old → v'.at? q = some old := by
  -- The induction is on the path, for every value: each step makes its place ready, writes below it
  -- and puts the result back.
  induction p generalizing v v' with
  | nil =>
      cases h
      refine ⟨[], rfl, by simp, rfl, ?_⟩
      rintro q old ⟨-, hbeside⟩
      exact absurd List.nil_prefix hbeside
  | cons s rest ih =>
      rw [write] at h
      cases hready : v.withPlace s with
      | error e =>
          rw [hready] at h
          cases h
      | ok ready =>
          obtain ⟨k, hplace, hbefore, hkept⟩ := withPlace_spec hready
          obtain ⟨held, hheld⟩ := place?_eq_some hplace
          have hchild : ready.child? s = some held := by rw [child?_eq_inside?, hplace]; exact hheld
          simp only [hready, hchild, Option.getD_some] at h
          obtain ⟨inner, failure, hinner⟩ :
              ∃ inner failure, held.write rest new = (inner, failure) := ⟨_, _, rfl⟩
          obtain ⟨rfl, rfl⟩ : ready.replaceChild s inner = v' ∧ failure = none := by
            simpa [hinner] using h
          obtain ⟨l, hlocate, hsame, hnew, hframe⟩ := ih hinner
          obtain ⟨hplace', hinside, hother⟩ := replaceChild_spec hplace inner
          refine ⟨k :: l, by simp [locate?, hplace', hinside, hlocate], ?_, by simp [hinside, hnew],
            ?_⟩
          · intro l' hl'
            obtain ⟨k', hk', hl'⟩ := Option.bind_eq_some_iff.mp hl'
            obtain rfl := hbefore k' hk'
            obtain ⟨old, hold, hl'⟩ := Option.bind_eq_some_iff.mp hl'
            obtain rfl : held = old := Option.some.inj (hheld.symm.trans (hkept k' old hold))
            obtain ⟨l'', hl'', rfl⟩ := Option.map_eq_some_iff.mp hl'
            rw [hsame l'' hl'']
          · intro q old hbeside hold
            cases q with
            | nil => exact absurd List.nil_prefix hbeside.1
            | cons k' q =>
                obtain ⟨below, hbelow, hold⟩ := Option.bind_eq_some_iff.mp hold
                -- Beside the location means at another place, or at this one and beside the rest.
                by_cases hk : k' = k
                · subst hk
                  obtain rfl : held = below :=
                    Option.some.inj (hheld.symm.trans (hkept k' _ hbelow))
                  rw [at?_cons, hinside, Option.bind_some]
                  exact hframe q old (Location.beside_cons_iff.mp hbeside) hold
                · rw [at?_cons, hother k' hk, hkept k' below hbelow, Option.bind_some]
                  exact hold

end Value

end TabPilot
