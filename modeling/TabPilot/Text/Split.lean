import TabPilot.Text.Blank
import TabPilot.Text.LetterCase
import TabPilot.Text.Letter

set_option autoImplicit false

/-! # Splitting, replacing and changing case

Functions on the characters of a text. A count bounds how many splits or replacements are made;
without one all are.
-/

namespace TabPilot.Text

def oneLess (count : Option Nat) : Option Nat := count.map fun n => n - 1

/-! ## Splitting at a separator -/

/-- The texts before and after the first place where a separator stands. -/
def cutFirst? (sep : List Char) : List Char → Option (List Char × List Char)
  | [] => none
  | c :: rest =>
      if sep.isPrefixOf (c :: rest) then some ([], rest.drop (sep.length - 1))
      else (cutFirst? sep rest).map fun (before, after) => (c :: before, after)

/-- The texts before and after the last place where a separator stands. -/
def cutLast? (sep : List Char) : List Char → Option (List Char × List Char)
  | [] => none
  | c :: rest =>
      match cutLast? sep rest with
      | some (before, after) => some (c :: before, after)
      | none =>
          if sep.isPrefixOf (c :: rest) then some ([], rest.drop (sep.length - 1)) else none

theorem length_after_of_cutFirst? {sep cs before after : List Char}
    (h : cutFirst? sep cs = some (before, after)) : after.length < cs.length := by
  induction cs generalizing before with
  | nil => simp [cutFirst?] at h
  | cons c rest ih =>
      rw [cutFirst?] at h
      split at h
      · simp only [Option.some.injEq, Prod.mk.injEq] at h
        rw [← h.2]
        simp only [List.length_drop, List.length_cons]
        omega
      · obtain ⟨⟨b, a⟩, hcut, heq⟩ := Option.map_eq_some_iff.1 h
        simp only [Prod.mk.injEq] at heq
        have shorter := ih (heq.2 ▸ hcut)
        simp only [List.length_cons]
        omega

theorem length_before_of_cutLast? {sep cs before after : List Char}
    (h : cutLast? sep cs = some (before, after)) : before.length < cs.length := by
  induction cs generalizing before with
  | nil => simp [cutLast?] at h
  | cons c rest ih =>
      rw [cutLast?] at h
      split at h
      · rename_i b a hcut
        simp only [Option.some.injEq, Prod.mk.injEq] at h
        have shorter := ih (h.2 ▸ hcut)
        rw [← h.1]
        simp only [List.length_cons]
        omega
      · split at h
        · simp only [Option.some.injEq, Prod.mk.injEq] at h
          rw [← h.1]
          simp
        · simp at h

/-- Splits at a separator, from the left. -/
def splitOn (sep : List Char) (count : Option Nat) (cs : List Char) : List (List Char) :=
  if count = some 0 then [cs]
  else
    match _cut : cutFirst? sep cs with
    | none => [cs]
    | some (before, after) => before :: splitOn sep (oneLess count) after
  termination_by cs.length
  decreasing_by exact length_after_of_cutFirst? _cut

/-- Splits at a separator, from the right; the parts come in reverse order. -/
def rsplitOnRev (sep : List Char) (count : Option Nat) (cs : List Char) : List (List Char) :=
  if count = some 0 then [cs]
  else
    match _cut : cutLast? sep cs with
    | none => [cs]
    | some (before, after) => after :: rsplitOnRev sep (oneLess count) before
  termination_by cs.length
  decreasing_by exact length_before_of_cutLast? _cut

def rsplitOn (sep : List Char) (count : Option Nat) (cs : List Char) : List (List Char) :=
  (rsplitOnRev sep count cs).reverse

/-! ## Splitting at blanks -/

def isInk (c : Char) : Bool := !isBlank c

/-- Splits at runs of blanks a text that does not start with one, from the left; `fuel` bounds the
number of words. -/
def wordsFrom (fuel : Nat) (count : Option Nat) (cs : List Char) : List (List Char) :=
  match fuel with
  | 0 => []
  | fuel + 1 =>
      let word := cs.takeWhile isInk
      let after := cs.drop word.length
      if cs.isEmpty then []
      else if count = some 0 || after.isEmpty then [cs]
      else word :: wordsFrom fuel (oneLess count) (after.dropWhile isBlank)

/-- Splits at runs of blanks, from the left. What is left after the last split keeps its blanks
at the end. -/
def splitWords (count : Option Nat) (cs : List Char) : List (List Char) :=
  wordsFrom (cs.length + 1) count (cs.dropWhile isBlank)

/-- The longest part at the end of a text that holds no blanks. -/
def lastWord (cs : List Char) : List Char := (cs.reverse.takeWhile isInk).reverse

/-- Splits at runs of blanks a text that does not end with one, from the right; the parts come in
reverse order and `fuel` bounds their number. -/
def wordsBack (fuel : Nat) (count : Option Nat) (cs : List Char) : List (List Char) :=
  match fuel with
  | 0 => []
  | fuel + 1 =>
      let word := lastWord cs
      let before := cs.take (cs.length - word.length)
      if cs.isEmpty then []
      else if count = some 0 || before.isEmpty then [cs]
      else word :: wordsBack fuel (oneLess count) (trimEndBy isBlank before)

/-- Splits at runs of blanks, from the right. What is left after the last split keeps its blanks
at the start. -/
def rsplitWords (count : Option Nat) (cs : List Char) : List (List Char) :=
  (wordsBack (cs.length + 1) count (trimEndBy isBlank cs)).reverse

/-! ## Replacing -/

/-- Replaces one text by another, from the left; `skipped` characters belong to the text replaced
last. The empty text stands before every character and at the end. -/
def replaceFrom (find replacement : List Char) (count : Option Nat) (skipped : Nat) :
    List Char → List Char
  | [] => if find.isEmpty && count ≠ some 0 then replacement else []
  | c :: rest =>
      match skipped with
      | skipped + 1 => replaceFrom find replacement count skipped rest
      | 0 =>
          if count = some 0 then c :: rest
          else if find.isEmpty then
            replacement ++ c :: replaceFrom find replacement (oneLess count) 0 rest
          else if find.isPrefixOf (c :: rest) then
            replacement ++ replaceFrom find replacement (oneLess count) (find.length - 1) rest
          else c :: replaceFrom find replacement count 0 rest

def replace (find replacement : String) (count : Option Nat) (s : String) : String :=
  String.ofList (replaceFrom find.toList replacement.toList count 0 s.toList)

/-! ## Case -/

/-- Upper case for the first letter of each run of letters, lower case for the others; `inWord`
says whether a letter stands before. -/
def titleFrom (inWord : Bool) : List Char → List Char
  | [] => []
  | c :: rest =>
      if isLetter c then (if inWord then lowerChar c else upperChar c) ++ titleFrom true rest
      else c :: titleFrom false rest

def title (s : String) : String := String.ofList (titleFrom false s.toList)

end TabPilot.Text
