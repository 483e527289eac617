import Mathlib.Data.List.TakeWhile
import TabPilot.Proofs.Text.Separators

set_option autoImplicit false

/-! # Splitting at blanks

`Runs` says which pieces of a text are its maximal runs of characters that are no blanks. They are
what splitting at blanks gives when nothing bounds the number of splits (`runs_splitWords`), and
splitting from the right mirrors splitting from the left, bounded or not (`rsplitWords_eq`).
-/

namespace TabPilot.Text

/-- The maximal runs of characters that are no blanks, in the order in which they stand. -/
inductive Runs : List Char → List (List Char) → Prop
  | nil : Runs [] []
  | blank {c : Char} {cs : List Char} {words : List (List Char)} (blank : isBlank c = true)
      (rest : Runs cs words) : Runs (c :: cs) words
  /-- A run ends with the text or in front of a blank. -/
  | run {word cs : List Char} {words : List (List Char)} (nonempty : word ≠ [])
      (ink : ∀ c ∈ word, isInk c = true) (ends : ∀ c ∈ cs.head?, isBlank c = true)
      (rest : Runs cs words) : Runs (word ++ cs) (word :: words)

variable {cs word : List Char} {words words' : List (List Char)} {c : Char}

theorem isInk_eq_false_iff : isInk c = false ↔ isBlank c = true := by
  simp [isInk]

theorem not_isBlank_of_isInk (h : isInk c = true) : ¬ isBlank c = true := by
  simpa [isInk] using h

/-! ## Where runs are -/

theorem takeWhile_run (ink : ∀ c ∈ word, isInk c = true) (ends : ∀ c ∈ cs.head?, isBlank c = true) :
    (word ++ cs).takeWhile isInk = word := by
  rw [List.takeWhile_append_of_pos ink]
  cases cs with
  | nil => simp
  | cons c rest =>
      have hc : isInk c = false := isInk_eq_false_iff.mpr (ends c rfl)
      simp [hc]

/-- Behind a blank the runs are the same. -/
theorem Runs.of_blank (blank : isBlank c = true) (h : Runs (c :: cs) words) : Runs cs words := by
  generalize htext : c :: cs = text at h
  cases h with
  | nil => cases htext
  | blank _ rest =>
      cases htext
      exact rest
  | @run word _ _ nonempty ink _ _ =>
      obtain ⟨x, word', rfl⟩ := List.exists_cons_of_ne_nil nonempty
      obtain ⟨rfl, -⟩ := List.cons.inj htext
      exact absurd blank (not_isBlank_of_isInk (ink c List.mem_cons_self))

/-- A text that starts with a run has it for its first one. -/
theorem Runs.of_run (nonempty : word ≠ []) (ink : ∀ c ∈ word, isInk c = true)
    (ends : ∀ c ∈ cs.head?, isBlank c = true) (h : Runs (word ++ cs) words) :
    ∃ later, words = word :: later ∧ Runs cs later := by
  generalize htext : word ++ cs = text at h
  obtain ⟨x, word', rfl⟩ := List.exists_cons_of_ne_nil nonempty
  cases h with
  | nil => cases htext
  | blank blank _ =>
      obtain ⟨rfl, -⟩ := List.cons.inj htext
      exact absurd blank (not_isBlank_of_isInk (ink x List.mem_cons_self))
  | @run first after later _ ink' ends' rest =>
      have hword : x :: word' = first := by
        rw [← takeWhile_run ink ends, htext, takeWhile_run ink' ends']
      subst hword
      obtain rfl := List.append_cancel_left htext
      exact ⟨later, rfl, rest⟩

/-- A text has no other runs. -/
theorem Runs.unique (h : Runs cs words) (h' : Runs cs words') : words = words' := by
  induction h generalizing words' with
  | nil =>
      generalize htext : ([] : List Char) = text at h'
      cases h' with
      | nil => rfl
      | blank => cases htext
      | run nonempty => simp [nonempty] at htext
  | blank blank _ ih => exact ih (h'.of_blank blank)
  | run nonempty ink ends _ ih =>
      obtain ⟨later, rfl, hlater⟩ := h'.of_run nonempty ink ends
      rw [ih hlater]

/-- The blanks in front of a text hold no run. -/
theorem Runs.of_dropWhile (h : Runs (cs.dropWhile isBlank) words) : Runs cs words := by
  induction cs with
  | nil => exact h
  | cons c rest ih =>
      by_cases hc : isBlank c = true
      · rw [List.dropWhile_cons_of_pos hc] at h
        exact .blank hc (ih h)
      · rwa [List.dropWhile_cons_of_neg hc] at h

/-! ## Reading backwards -/

/-- The first character of a text that goes on. -/
theorem head?_append_cases {next : List Char} (h : ∀ x ∈ cs.head?, isBlank x = true)
    (hnext : cs = [] → ∀ x ∈ next.head?, isBlank x = true) :
    ∀ x ∈ (cs ++ next).head?, isBlank x = true := by
  cases cs with
  | nil => exact hnext rfl
  | cons c rest => exact h

theorem Runs.snoc_blank (blank : isBlank c = true) (h : Runs cs words) :
    Runs (cs ++ [c]) words := by
  induction h with
  | nil => exact .blank blank .nil
  | blank first _ ih => exact .blank first ih
  | run nonempty ink ends _ ih =>
      rw [List.append_assoc]
      refine .run nonempty ink (head?_append_cases ends fun _ x hx => ?_) ih
      cases hx
      exact blank

theorem Runs.snoc_run (nonempty : word ≠ []) (ink : ∀ c ∈ word, isInk c = true)
    (starts : ∀ c ∈ cs.getLast?, isBlank c = true) (h : Runs cs words) :
    Runs (cs ++ word) (words ++ [word]) := by
  induction h with
  | nil =>
      have hrun : Runs (word ++ []) [word] := .run nonempty ink (fun _ hx => nomatch hx) .nil
      rwa [List.append_nil] at hrun
  | @blank c cs _ first _ ih =>
      refine .blank first (ih fun x hx => starts x ?_)
      cases cs with
      | nil => cases hx
      | cons d rest => exact hx
  | @run first cs _ hfirst hink ends _ ih =>
      rw [List.append_assoc]
      cases cs with
      | nil =>
          -- Two runs do not stand beside each other.
          have hlast := List.getLast_mem hfirst
          have hblank := starts (first.getLast hfirst) (by
            rw [List.append_nil, List.getLast?_eq_some_getLast hfirst]
            rfl)
          exact absurd hblank (not_isBlank_of_isInk (hink _ hlast))
      | cons c rest =>
          refine .run hfirst hink ends (ih fun x hx => starts x ?_)
          rw [List.getLast?_append, hx]
          rfl

/-- **Backwards** the runs come in reverse order, each of them backwards. -/
theorem Runs.reverse (h : Runs cs words) : Runs cs.reverse (mirrored words) := by
  induction h with
  | nil => exact .nil
  | blank first _ ih =>
      rw [List.reverse_cons]
      exact ih.snoc_blank first
  | @run word cs words nonempty ink ends _ ih =>
      rw [List.reverse_append, mirrored_cons]
      refine ih.snoc_run (by simpa using nonempty) (fun x hx => ink x (List.mem_reverse.mp hx)) ?_
      rw [List.getLast?_reverse]
      exact ends

/-! ## Splitting -/

theorem drop_length_takeWhile (p : Char → Bool) (cs : List Char) :
    cs.drop (cs.takeWhile p).length = cs.dropWhile p := by
  calc cs.drop (cs.takeWhile p).length
      = (cs.takeWhile p ++ cs.dropWhile p).drop (cs.takeWhile p).length := by
        rw [List.takeWhile_append_dropWhile]
    _ = cs.dropWhile p := List.drop_left

/-- Where a stretch of characters of a class ends, there is none of the class. -/
theorem head?_dropWhile {p : Char → Bool} {x : Char} (h : x ∈ (cs.dropWhile p).head?) :
    p x = false := by
  have hstop := List.head?_dropWhile_not p cs
  rw [Option.mem_def.mp h] at hstop
  simpa using hstop

/-- Splitting gives the runs, if there is fuel for all of them. -/
theorem runs_wordsFrom {fuel : Nat} (hfuel : cs.length < fuel)
    (hstart : ∀ c ∈ cs.head?, isInk c = true) : Runs cs (wordsFrom fuel none cs) := by
  induction fuel generalizing cs with
  | zero => cases hfuel
  | succ fuel ih =>
      rw [wordsFrom, drop_length_takeWhile]
      -- A word is followed by blanks, and the rest begins with the next word.
      by_cases hempty : cs.isEmpty = true
      · obtain rfl := List.isEmpty_iff.mp hempty
        exact .nil
      have hcs : cs ≠ [] := fun heq => hempty (List.isEmpty_iff.mpr heq)
      have hword : cs.takeWhile isInk ≠ [] := by
        obtain ⟨c, rest, rfl⟩ := List.exists_cons_of_ne_nil hcs
        simp [hstart c rfl]
      have hink : ∀ c ∈ cs.takeWhile isInk, isInk c = true := fun c hc => List.mem_takeWhile_imp hc
      have hends : ∀ c ∈ (cs.dropWhile isInk).head?, isBlank c = true := fun c hc =>
        isInk_eq_false_iff.mp (head?_dropWhile hc)
      have hsplit : cs.takeWhile isInk ++ cs.dropWhile isInk = cs :=
        List.takeWhile_append_dropWhile
      by_cases hafter : (cs.dropWhile isInk).isEmpty = true
      · have hall : cs.takeWhile isInk = cs := by
          rw [List.isEmpty_iff.mp hafter, List.append_nil] at hsplit
          exact hsplit
        have hrun : Runs (cs ++ []) [cs] :=
          .run hcs (hall ▸ hink) (fun _ hc => nomatch hc) .nil
        simpa [hempty, hafter] using hrun
      · have hlength : ((cs.dropWhile isInk).dropWhile isBlank).length < fuel := by
          have hle := List.length_dropWhile_le isBlank (cs.dropWhile isInk)
          have hpositive := List.length_pos_iff.mpr hword
          have htotal := congrArg List.length hsplit
          rw [List.length_append] at htotal
          omega
        have hrest : Runs ((cs.dropWhile isInk).dropWhile isBlank)
            (wordsFrom fuel none ((cs.dropWhile isInk).dropWhile isBlank)) :=
          ih hlength fun c hc => by simpa [isInk] using head?_dropWhile hc
        have hrun := Runs.run hword hink hends hrest.of_dropWhile
        rw [hsplit] at hrun
        simpa [hempty, hafter, oneLess] using hrun

/-- **Splitting at blanks** gives the runs. -/
theorem runs_splitWords (cs : List Char) : Runs cs (splitWords none cs) := by
  have hlength : (cs.dropWhile isBlank).length < cs.length + 1 :=
    Nat.lt_succ_of_le (List.length_dropWhile_le isBlank cs)
  have hrest : Runs (cs.dropWhile isBlank) (splitWords none cs) :=
    runs_wordsFrom hlength fun c hc => by simpa [isInk] using head?_dropWhile hc
  exact hrest.of_dropWhile

theorem wordsBack_eq (fuel : Nat) (count : Option Nat) (cs : List Char) :
    wordsBack fuel count cs = (wordsFrom fuel count cs.reverse).map List.reverse := by
  induction fuel generalizing count cs with
  | zero => rfl
  | succ fuel ih =>
      have hbefore : cs.take (cs.length - (lastWord cs).length) =
          (cs.reverse.drop (cs.reverse.takeWhile isInk).length).reverse := by
        rw [lastWord, List.length_reverse, List.drop_reverse, List.reverse_reverse]
      rw [wordsBack, wordsFrom, hbefore]
      simp only [List.isEmpty_reverse]
      split
      · rfl
      · split
        · simp
        · rw [ih, List.map_cons, trimEndBy, List.reverse_reverse, List.reverse_reverse, lastWord]

/-- **From the right** a text is split at blanks as it is from the left when it is read backwards,
however many splits are made. -/
theorem rsplitWords_eq (count : Option Nat) (cs : List Char) :
    rsplitWords count cs = mirrored (splitWords count cs.reverse) := by
  rw [rsplitWords, wordsBack_eq, trimEndBy, List.reverse_reverse, splitWords, List.length_reverse,
    mirrored]

example : splitWords (some 1) " a  b c ".toList = ["a".toList, "b c ".toList] ∧
    rsplitWords (some 1) " a  b c ".toList = [" a  b".toList, "c".toList] := by
  decide

theorem rsplitWords_none (cs : List Char) : rsplitWords none cs = splitWords none cs := by
  have hruns := (runs_splitWords cs.reverse).reverse
  rw [List.reverse_reverse, ← rsplitWords_eq] at hruns
  exact hruns.unique (runs_splitWords cs)

end TabPilot.Text
