import TabPilot.Event.Basic

set_option autoImplicit false

/-! # The names of events

A qualified name is a domain, a dot, and whatever comes behind it; the first dot counts.
-/

namespace TabPilot.Event

theorem splitName_append {domain : List Char} (h : '.' ∉ domain) (method : List Char) :
    splitName (domain ++ '.' :: method) = some (domain, method) := by
  induction domain with
  | nil => rfl
  | cons c domain ih =>
      rw [List.mem_cons, not_or] at h
      rw [List.cons_append, splitName, if_neg (Ne.symm h.1), ih h.2, Option.map_some]

theorem eq_of_splitName {name domain method : List Char}
    (h : splitName name = some (domain, method)) :
    name = domain ++ '.' :: method ∧ '.' ∉ domain := by
  induction name generalizing domain with
  | nil => cases h
  | cons c rest ih =>
      rw [splitName] at h
      split at h
      · next hdot =>
          cases h
          exact ⟨by rw [hdot, List.nil_append], List.not_mem_nil⟩
      · next hdot =>
          obtain ⟨⟨domain', method'⟩, hsplit, heq⟩ := Option.map_eq_some_iff.mp h
          obtain ⟨rfl, rfl⟩ := Prod.mk.inj heq
          obtain ⟨hrest, hnot⟩ := ih hsplit
          refine ⟨by rw [hrest, List.cons_append], ?_⟩
          rw [List.mem_cons, not_or]
          exact ⟨Ne.symm hdot, hnot⟩

theorem toList_name (e : Event) : e.name.toList = e.domain.toList ++ '.' :: e.method.toList := by
  simp [name]

/-- An event is what a name says that has text on both sides of its first dot. -/
theorem ofName?_eq_some_iff {name : String} {payload : Value} {e : Event} :
    ofName? name payload = some e ↔
      name = e.name ∧ e.domain ≠ "" ∧ e.method ≠ "" ∧ '.' ∉ e.domain.toList ∧
        e.payload = payload := by
  constructor
  · intro h
    unfold ofName? at h
    split at h
    · next domain method hsplit =>
        split at h
        · cases h
        · next hnonempty =>
            cases h
            obtain ⟨hname, hnot⟩ := eq_of_splitName hsplit
            have hparts : domain ≠ [] ∧ method ≠ [] := by simpa using hnonempty
            refine ⟨?_, by simpa using hparts.1, by simpa using hparts.2, by simpa using hnot, rfl⟩
            rw [← String.toList_inj, toList_name, String.toList_ofList, String.toList_ofList, hname]
    · cases h
  · rintro ⟨rfl, hdomain, hmethod, hnot, rfl⟩
    have hparts : ¬ (e.domain.toList.isEmpty || e.method.toList.isEmpty) := by
      simp [hdomain, hmethod]
    rw [ofName?, toList_name, splitName_append hnot]
    simp only [if_neg hparts, String.ofList_toList]

end TabPilot.Event
