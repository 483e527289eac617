import Mathlib.Data.List.Basic

set_option autoImplicit false

/-! # Histories

What has happened is a list that grows at its end. A statement about what happened at some point
names what came before and after it; `History.at_end_or_before` says what such a point is in a
history with one more entry.
-/

namespace TabPilot.History

/-- A point of a history with one more entry is that entry, or a point of the history before. -/
theorem at_end_or_before {α : Type} {past future h : List α} {a b : α}
    (heq : past ++ a :: future = h ++ [b]) :
    (future = [] ∧ past = h ∧ a = b) ∨
      ∃ future', future = future' ++ [b] ∧ past ++ a :: future' = h := by
  rcases List.eq_nil_or_concat future with rfl | ⟨future', last, rfl⟩
  · obtain ⟨rfl, ha⟩ := List.append_inj' heq rfl
    exact .inl ⟨rfl, rfl, by simpa using ha⟩
  · have hcut : (past ++ a :: future') ++ [last] = h ++ [b] := by simpa using heq
    obtain ⟨rfl, hlast⟩ := List.append_inj' hcut rfl
    obtain rfl : last = b := by simpa using hlast
    exact .inr ⟨future', List.concat_eq_append, rfl⟩

end TabPilot.History
