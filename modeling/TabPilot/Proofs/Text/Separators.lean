import TabPilot.Text.Split

set_option autoImplicit false

/-! # Splitting at a separator

Splitting from the left cuts a text where the separator stands first, splitting from the right
where it stands last, and replacing looks for places by itself. `FirstCut` and `LastCut` say which
cut is meant without saying how it is found; each is the mirror image of the other
(`LastCut.reverse`). So the parts of a split give the text back when they are joined
(`intercalate_splitOn`), splitting from the right mirrors splitting from the left (`rsplitOn_eq`),
and replacing joins the parts with the replacement (`replaceFrom_eq_intercalate`).
-/

namespace TabPilot.Text

/-- A text is cut at the first place where a separator stands. -/
structure FirstCut (sep cs before after : List Char) : Prop where
  eq : cs = before ++ sep ++ after
  first : ∀ before' after', cs = before' ++ sep ++ after' → before.length ≤ before'.length

/-- A text is cut at the last place where a separator stands. -/
structure LastCut (sep cs before after : List Char) : Prop where
  eq : cs = before ++ sep ++ after
  last : ∀ before' after', cs = before' ++ sep ++ after' → after.length ≤ after'.length

variable {sep cs before after before' after' : List Char} {count : Option Nat}

/-! ## Cuts -/

/-- There is only one first place. -/
theorem FirstCut.unique (h : FirstCut sep cs before after) (h' : FirstCut sep cs before' after') :
    before = before' ∧ after = after' := by
  have hlength : before.length = before'.length :=
    Nat.le_antisymm (h.first _ _ h'.eq) (h'.first _ _ h.eq)
  have heq : before ++ (sep ++ after) = before' ++ (sep ++ after') := by
    rw [← List.append_assoc, ← List.append_assoc, ← h.eq, ← h'.eq]
  obtain ⟨rfl, hrest⟩ := List.append_inj heq hlength
  exact ⟨rfl, List.append_cancel_left hrest⟩

/-- A place of a separator, seen from the other end. -/
theorem eq_reverse (h : cs = before ++ sep ++ after) :
    cs.reverse = after.reverse ++ sep.reverse ++ before.reverse := by
  rw [h, List.reverse_append, List.reverse_append, List.append_assoc]

/-- **The last place** is the first one seen from the other end. -/
theorem LastCut.reverse (h : LastCut sep cs before after) :
    FirstCut sep.reverse cs.reverse after.reverse before.reverse where
  eq := eq_reverse h.eq
  first before' after' heq := by
    have hplace := eq_reverse heq
    rw [List.reverse_reverse, List.reverse_reverse] at hplace
    have hle := h.last _ _ hplace
    rw [List.length_reverse] at hle ⊢
    exact hle

/-- A separator stands in front of a text, or in what comes after its first character. -/
theorem cons_eq_append_cases {c : Char} {rest : List Char}
    (h : c :: rest = before ++ sep ++ after) :
    before = [] ∧ sep <+: c :: rest ∨
      ∃ before', before = c :: before' ∧ rest = before' ++ sep ++ after := by
  cases before with
  | nil => exact .inl ⟨rfl, ⟨after, h.symm⟩⟩
  | cons b before' =>
      obtain ⟨rfl, hrest⟩ := List.cons.inj h
      exact .inr ⟨before', rfl, hrest⟩

/-- What is left of a text that starts with a separator. -/
theorem eq_append_drop (hsep : sep ≠ []) {c : Char} {rest : List Char}
    (h : sep.isPrefixOf (c :: rest) = true) : c :: rest = sep ++ rest.drop (sep.length - 1) := by
  obtain ⟨s, sep', rfl⟩ := List.exists_cons_of_ne_nil hsep
  obtain ⟨t, ht⟩ := List.isPrefixOf_iff_prefix.mp h
  obtain ⟨rfl, rfl⟩ := List.cons.inj ht
  simp

/-! ## Looking for a cut -/

theorem firstCut_of_cutFirst? (hsep : sep ≠ []) (h : cutFirst? sep cs = some (before, after)) :
    FirstCut sep cs before after := by
  induction cs generalizing before with
  | nil => cases h
  | cons c rest ih =>
      rw [cutFirst?] at h
      split at h
      · next hprefix =>
          cases h
          exact ⟨eq_append_drop hsep hprefix, fun _ _ _ => Nat.zero_le _⟩
      · next hprefix =>
          obtain ⟨⟨b, a⟩, hcut, heq⟩ := Option.map_eq_some_iff.mp h
          cases heq
          have hrest := ih hcut
          refine ⟨congrArg (c :: ·) hrest.eq, fun before' after' hplace => ?_⟩
          rcases cons_eq_append_cases hplace with ⟨-, hstarts⟩ | ⟨before', rfl, hplace'⟩
          · exact absurd (List.isPrefixOf_iff_prefix.mpr hstarts) hprefix
          · exact Nat.succ_le_succ (hrest.first _ _ hplace')

theorem ne_of_cutFirst?_eq_none (hsep : sep ≠ []) (h : cutFirst? sep cs = none) :
    cs ≠ before ++ sep ++ after := by
  induction cs generalizing before with
  | nil => simp [hsep]
  | cons c rest ih =>
      rw [cutFirst?] at h
      split at h
      · cases h
      · next hprefix =>
          intro hplace
          rcases cons_eq_append_cases hplace with ⟨-, hstarts⟩ | ⟨before', rfl, hplace'⟩
          · exact hprefix (List.isPrefixOf_iff_prefix.mpr hstarts)
          · exact ih (Option.map_eq_none_iff.mp h) hplace'

theorem ne_of_cutLast?_eq_none (hsep : sep ≠ []) (h : cutLast? sep cs = none) :
    cs ≠ before ++ sep ++ after := by
  induction cs generalizing before with
  | nil => simp [hsep]
  | cons c rest ih =>
      rw [cutLast?] at h
      split at h
      · cases h
      · next hrest =>
          split at h
          · cases h
          · next hprefix =>
              intro hplace
              rcases cons_eq_append_cases hplace with ⟨-, hstarts⟩ | ⟨before', rfl, hplace'⟩
              · exact hprefix (List.isPrefixOf_iff_prefix.mpr hstarts)
              · exact ih hrest hplace'

theorem lastCut_of_cutLast? (hsep : sep ≠ []) (h : cutLast? sep cs = some (before, after)) :
    LastCut sep cs before after := by
  induction cs generalizing before with
  | nil => cases h
  | cons c rest ih =>
      rw [cutLast?] at h
      split at h
      · next b a hcut =>
          cases h
          have hrest := ih hcut
          refine ⟨congrArg (c :: ·) hrest.eq, fun before' after' hplace => ?_⟩
          rcases cons_eq_append_cases hplace with ⟨rfl, -⟩ | ⟨before', rfl, hplace'⟩
          · -- The cut is farther on than the front of the text.
            have hlength := congrArg List.length hplace
            have hlength' := congrArg List.length hrest.eq
            simp only [List.length_cons, List.length_append, List.length_nil] at hlength hlength'
            omega
          · exact hrest.last _ _ hplace'
      · next hrest =>
          split at h
          · next hprefix =>
              cases h
              have heq := eq_append_drop hsep hprefix
              refine ⟨heq, fun before' after' hplace => ?_⟩
              rcases cons_eq_append_cases hplace with ⟨rfl, -⟩ | ⟨before', rfl, hplace'⟩
              · have hafter : sep ++ rest.drop (sep.length - 1) = sep ++ after' :=
                  heq.symm.trans hplace
                exact Nat.le_of_eq (congrArg List.length (List.append_cancel_left hafter))
              · exact absurd hplace' (ne_of_cutLast?_eq_none hsep hrest)
          · cases h

/-- **Looking from the other end** for the first place finds the last one. -/
theorem cutFirst?_reverse (hsep : sep ≠ []) :
    cutFirst? sep.reverse cs.reverse =
      (cutLast? sep cs).map fun (before, after) => (after.reverse, before.reverse) := by
  have hsep' : sep.reverse ≠ [] := by simpa using hsep
  cases hlast : cutLast? sep cs with
  | none =>
      cases hfirst : cutFirst? sep.reverse cs.reverse with
      | none => rfl
      | some cut =>
          have hplace := eq_reverse (firstCut_of_cutFirst? hsep' hfirst).eq
          rw [List.reverse_reverse, List.reverse_reverse] at hplace
          exact absurd hplace (ne_of_cutLast?_eq_none hsep hlast)
  | some cut =>
      have hmirror := (lastCut_of_cutLast? hsep hlast).reverse
      cases hfirst : cutFirst? sep.reverse cs.reverse with
      | none => exact absurd hmirror.eq (ne_of_cutFirst?_eq_none hsep' hfirst)
      | some cut' =>
          obtain ⟨hbefore, hafter⟩ := (firstCut_of_cutFirst? hsep' hfirst).unique hmirror
          exact congrArg some (Prod.ext hbefore hafter)

/-! ## Parts -/

theorem splitOn_zero (sep cs : List Char) : splitOn sep (some 0) cs = [cs] := by
  rw [splitOn, if_pos rfl]

theorem splitOn_of_none (h : cutFirst? sep cs = none) : splitOn sep count cs = [cs] := by
  rw [splitOn]
  split
  · rfl
  · split
    · rfl
    · next hcut => cases hcut.symm.trans h

theorem splitOn_of_some (hcount : count ≠ some 0) (h : cutFirst? sep cs = some (before, after)) :
    splitOn sep count cs = before :: splitOn sep (oneLess count) after := by
  rw [splitOn, if_neg hcount]
  split
  · next hcut => cases hcut.symm.trans h
  · next hcut =>
      cases hcut.symm.trans h
      rfl

theorem splitOn_ne_nil (sep : List Char) (count : Option Nat) (cs : List Char) :
    splitOn sep count cs ≠ [] := by
  rw [splitOn]
  split
  · exact List.cons_ne_nil _ _
  · split <;> exact List.cons_ne_nil _ _

/-- **Joining** the parts of a split gives the text back. -/
theorem intercalate_splitOn (hsep : sep ≠ []) : sep.intercalate (splitOn sep count cs) = cs := by
  fun_induction splitOn sep count cs with
  | case1 => exact List.intercalate_singleton
  | case2 => exact List.intercalate_singleton
  | case3 count cs _ before after hcut ih =>
      rw [List.intercalate_cons_of_ne_nil (splitOn_ne_nil _ _ _), ih]
      exact (firstCut_of_cutFirst? hsep hcut).eq.symm

theorem length_splitOn_le {n : Nat} (h : count = some n) :
    (splitOn sep count cs).length ≤ n + 1 := by
  fun_induction splitOn sep count cs generalizing n with
  | case1 => exact Nat.le_add_left 1 n
  | case2 => exact Nat.le_add_left 1 n
  | case3 count cs hcount before after _ ih =>
      subst h
      have hpositive : n ≠ 0 := fun hzero => hcount (congrArg some hzero)
      have hrest := ih (n := n - 1) rfl
      rw [List.length_cons]
      omega

/-! ## From the right -/

theorem rsplitOnRev_eq (hsep : sep ≠ []) :
    rsplitOnRev sep count cs = (splitOn sep.reverse count cs.reverse).map List.reverse := by
  fun_induction rsplitOnRev sep count cs with
  | case1 => simp [splitOn_zero]
  | case2 count cs _ hlast =>
      have hfirst : cutFirst? sep.reverse cs.reverse = none := by
        rw [cutFirst?_reverse hsep, hlast]
        rfl
      simp [splitOn_of_none hfirst]
  | case3 count cs hcount before after hlast ih =>
      have hfirst : cutFirst? sep.reverse cs.reverse = some (after.reverse, before.reverse) := by
        rw [cutFirst?_reverse hsep, hlast]
        rfl
      rw [splitOn_of_some hcount hfirst, List.map_cons, List.reverse_reverse, ih]

/-- The parts of a text, given those of the text read backwards. -/
def mirrored (parts : List (List Char)) : List (List Char) := (parts.map List.reverse).reverse

@[simp] theorem mirrored_nil : mirrored [] = [] := rfl

@[simp] theorem mirrored_cons (part : List Char) (parts : List (List Char)) :
    mirrored (part :: parts) = mirrored parts ++ [part.reverse] := by
  simp [mirrored]

@[simp] theorem length_mirrored (parts : List (List Char)) :
    (mirrored parts).length = parts.length := by
  simp [mirrored]

/-- **From the right** a text is split as it is from the left when it is read backwards. -/
theorem rsplitOn_eq (hsep : sep ≠ []) :
    rsplitOn sep count cs = mirrored (splitOn sep.reverse count cs.reverse) := by
  rw [rsplitOn, rsplitOnRev_eq hsep, mirrored]

example : splitOn "--".toList (some 1) "a---b".toList = ["a".toList, "-b".toList] ∧
    rsplitOn "--".toList (some 1) "a---b".toList = ["a-".toList, "b".toList] := by
  decide +kernel

theorem intercalate_concat (parts : List (List Char)) (last : List Char) (h : parts ≠ []) :
    sep.intercalate (parts ++ [last]) = sep.intercalate parts ++ sep ++ last := by
  induction parts with
  | nil => exact absurd rfl h
  | cons part parts ih =>
      cases parts with
      | nil => simp
      | cons next parts =>
          rw [List.cons_append, List.intercalate_cons_of_ne_nil (by simp),
            List.intercalate_cons_of_ne_nil (List.cons_ne_nil _ _), ih (List.cons_ne_nil _ _)]
          simp only [List.append_assoc]

/-- Joining backwards. -/
theorem intercalate_mirrored (parts : List (List Char)) :
    sep.intercalate (mirrored parts) = (sep.reverse.intercalate parts).reverse := by
  induction parts with
  | nil => rfl
  | cons part parts ih =>
      cases parts with
      | nil => simp
      | cons next parts =>
          have hne : mirrored (next :: parts) ≠ [] := by simp
          calc sep.intercalate (mirrored (part :: next :: parts))
              = sep.intercalate (mirrored (next :: parts)) ++ sep ++ part.reverse := by
                rw [mirrored_cons, intercalate_concat _ _ hne]
            _ = (sep.reverse.intercalate (next :: parts)).reverse ++ sep ++ part.reverse := by
                rw [ih]
            _ = (part ++ sep.reverse ++ sep.reverse.intercalate (next :: parts)).reverse := by
                simp
            _ = (sep.reverse.intercalate (part :: next :: parts)).reverse := by
                rw [List.intercalate_cons_cons]

theorem intercalate_rsplitOn (hsep : sep ≠ []) : sep.intercalate (rsplitOn sep count cs) = cs := by
  have hsep' : sep.reverse ≠ [] := by simpa using hsep
  rw [rsplitOn_eq hsep, intercalate_mirrored, intercalate_splitOn hsep', List.reverse_reverse]

theorem length_rsplitOn (hsep : sep ≠ []) :
    (rsplitOn sep count cs).length = (splitOn sep.reverse count cs.reverse).length := by
  rw [rsplitOn_eq hsep, length_mirrored]

/-! ## Replacing -/

theorem replaceFrom_zero (find replacement cs : List Char) :
    replaceFrom find replacement (some 0) 0 cs = cs := by
  cases cs with
  | nil => simp [replaceFrom]
  | cons c rest => simp [replaceFrom]

section Replacing

variable {find : List Char} (hfind : find ≠ []) (replacement : List Char)
include hfind

/-- Characters that belong to what was replaced last are left out. -/
theorem replaceFrom_skipped (skipped : Nat) :
    replaceFrom find replacement count skipped cs =
      replaceFrom find replacement count 0 (cs.drop skipped) := by
  have hempty : find.isEmpty = false := by simpa using hfind
  induction cs generalizing skipped with
  | nil => simp [replaceFrom, hempty]
  | cons c rest ih =>
      cases skipped with
      | zero => rfl
      | succ skipped => exact ih skipped

theorem replaceFrom_of_none (h : cutFirst? find cs = none) :
    replaceFrom find replacement count 0 cs = cs := by
  have hempty : find.isEmpty = false := by simpa using hfind
  induction cs with
  | nil => simp [replaceFrom, hempty]
  | cons c rest ih =>
      rw [cutFirst?] at h
      split at h
      · cases h
      · next hprefix =>
          have hrest := ih (Option.map_eq_none_iff.mp h)
          simp only [replaceFrom, hempty, hprefix, hrest, Bool.false_eq_true, if_false, ite_self]

/-- What stands in front of the first place is kept, and the search goes on behind it. -/
theorem replaceFrom_of_some (hcount : count ≠ some 0)
    (h : cutFirst? find cs = some (before, after)) :
    replaceFrom find replacement count 0 cs =
      before ++ replacement ++ replaceFrom find replacement (oneLess count) 0 after := by
  have hempty : find.isEmpty = false := by simpa using hfind
  induction cs generalizing before with
  | nil => cases h
  | cons c rest ih =>
      rw [cutFirst?] at h
      split at h
      · next hprefix =>
          cases h
          simp only [replaceFrom, hempty, hcount, hprefix, Bool.false_eq_true, if_false, if_true]
          rw [replaceFrom_skipped hfind]
          rfl
      · next hprefix =>
          obtain ⟨⟨b, a⟩, hcut, heq⟩ := Option.map_eq_some_iff.mp h
          cases heq
          simp only [replaceFrom, hempty, hcount, hprefix, Bool.false_eq_true, if_false]
          rw [ih hcut]
          rfl

/-- **Replacing** joins the parts of a split with the replacement. -/
theorem replaceFrom_eq_intercalate :
    replaceFrom find replacement count 0 cs =
      replacement.intercalate (splitOn find count cs) := by
  fun_induction splitOn find count cs with
  | case1 cs => rw [replaceFrom_zero, List.intercalate_singleton]
  | case2 count cs _ hcut =>
      rw [replaceFrom_of_none hfind replacement hcut, List.intercalate_singleton]
  | case3 count cs hcount before after hcut ih =>
      rw [replaceFrom_of_some hfind replacement hcount hcut, ih,
        List.intercalate_cons_of_ne_nil (splitOn_ne_nil _ _ _)]

end Replacing

end TabPilot.Text
