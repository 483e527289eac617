import Mathlib.Data.List.Basic
import TabPilot.Proofs.Script.Covering
import TabPilot.Proofs.Script.Scanning

set_option autoImplicit false

/-! # Texts over several lines are read back

`Lexeme.takes_heredoc` says how a text over several lines was written that has been read; here is
the way back. `Lexeme.reads_lines` reads any lines, with any margin in front of the closing word.
The main statement, `Token.scan_writtenLines`, is about lines that all stand behind the same margin:
the margin falls away, and nothing else.
-/

namespace TabPilot

namespace Lexeme

/-! ## Lines -/

/-- A line that ends a text: behind its blanks and tabs stands the word `end`. -/
def IsEndLine (line : List Char) : Prop :=
  ∃ blanks rest, line = blanks ++ ("end".toList ++ rest) ∧ IsMargin blanks ∧
    ∀ c ∈ rest.head?, isWordChar c = false

theorem closes_iff {cs : List Char} : closes cs = true ↔
    ∃ rest, cs = "end".toList ++ rest ∧ ∀ c ∈ rest.head?, isWordChar c = false := by
  constructor
  · intro h
    obtain ⟨hend, hstop⟩ := Bool.and_eq_true_iff.mp h
    obtain ⟨rest, rfl⟩ := List.isPrefixOf_iff_prefix.mp hend
    refine ⟨rest, rfl, fun c hc => ?_⟩
    have hrest : (['e', 'n', 'd'] ++ rest).drop 3 = rest := rfl
    rw [hrest, Option.mem_def.mp hc] at hstop
    simpa using hstop
  · rintro ⟨rest, rfl, hstop⟩
    refine Bool.and_eq_true_iff.mpr ⟨List.isPrefixOf_iff_prefix.mpr ⟨rest, rfl⟩, ?_⟩
    show (rest.head?.all fun c => !isWordChar c) = true
    cases hhead : rest.head? with
    | none => rfl
    | some c => simpa using hstop c hhead

theorem indentation_append_margin {margin rest : List Char} (isMargin : IsMargin margin) :
    indentation (margin ++ rest) = margin.length + indentation rest := by
  unfold indentation
  have hmargin : ∀ c ∈ margin, (decide (c = ' ') || decide (c = '\t')) = true := by
    intro c hc
    simpa using isMargin c hc
  rw [List.takeWhile_append_of_pos hmargin, List.length_append]

theorem isEndLine_iff {line : List Char} :
    IsEndLine line ↔ closes (line.drop (indentation line)) = true := by
  rw [closes_iff]
  constructor
  · rintro ⟨blanks, rest, rfl, isMargin, stop⟩
    have hindent : indentation (blanks ++ ("end".toList ++ rest)) = blanks.length :=
      indentation_append_margin isMargin
    rw [hindent, List.drop_left]
    exact ⟨rest, rfl, stop⟩
  · rintro ⟨rest, hrest, stop⟩
    have htake : line.take (indentation line) = line.takeWhile fun c => c = ' ' || c = '\t' :=
      (List.prefix_iff_eq_take.mp (List.takeWhile_prefix _)).symm
    refine ⟨line.takeWhile fun c => c = ' ' || c = '\t', rest, ?_, fun c hc => ?_, stop⟩
    · rw [← hrest, ← htake, List.take_append_drop]
    · simpa using all_of_mem_takeWhile c hc

instance (line : List Char) : Decidable (IsEndLine line) := decidable_of_iff _ isEndLine_iff.symm

theorem not_mem_of_isMargin {margin : List Char} (isMargin : IsMargin margin) : '\n' ∉ margin := by
  intro hmem
  rcases isMargin _ hmem with h | h <;> cases h

/-- Behind a margin a line is still one of the text. -/
theorem isTextLine_append {margin line : List Char} (isMargin : IsMargin margin)
    (hline : '\n' ∉ line) (goesOn : ¬ IsEndLine line) : IsTextLine (margin ++ line) := by
  constructor
  · exact List.mem_append.not.mpr (not_or.mpr ⟨not_mem_of_isMargin isMargin, hline⟩)
  · rw [indentation_append_margin isMargin, ← List.drop_drop, List.drop_left]
    exact Bool.eq_false_iff.mpr (isEndLine_iff.not.mp goesOn)

/-! ## Reading lines -/

theorem heredocLines?_of_closes {cs : List Char} (h : closes (cs.drop (indentation cs)) = true) :
    heredocLines? cs = some ([], indentation cs, indentation cs + 3) := by
  cases cs with
  | nil => cases h
  | cons c rest => rw [heredocLines?, if_pos h]

/-- A line that does not close the text is its first. -/
theorem heredocLines?_of_open {cs : List Char} (hne : cs ≠ [])
    (hopen : closes (cs.drop (indentation cs)) = false) :
    heredocLines? cs = (heredocLines? (cs.drop ((cs.takeWhile (· ≠ '\n')).length + 1))).map
      fun (lines, indent, n) => (Text.trimEndBy (· = '\r') (cs.takeWhile (· ≠ '\n')) :: lines,
        indent, (cs.takeWhile (· ≠ '\n')).length + 1 + n) := by
  cases cs with
  | nil => exact absurd rfl hne
  | cons c rest => rw [heredocLines?, if_neg (by simp [hopen]), List.drop_succ_cons]

theorem heredocLines?_of_line {line : List Char} (isLine : IsTextLine line) (next : List Char) :
    heredocLines? (line ++ '\n' :: next) = (heredocLines? next).map fun (lines, indent, n) =>
      (Text.trimEndBy (· = '\r') line :: lines, indent, line.length + 1 + n) := by
  obtain ⟨hline, hopen⟩ := isLine
  have hle : indentation line ≤ line.length := (List.takeWhile_sublist _).length_le
  have hcloses : closes ((line ++ '\n' :: next).drop (indentation (line ++ '\n' :: next))) =
      false := by
    rw [indentation_append, List.drop_append_of_le_length hle, closes_append, hopen]
  have htaken : (line ++ '\n' :: next).takeWhile (· ≠ '\n') = line := by
    refine takeWhile_append_stop (fun c hc => ?_) (by simp)
    have hne : c ≠ '\n' := fun heq => hline (heq ▸ hc)
    simpa using hne
  have hdrop : (line ++ '\n' :: next).drop (line.length + 1) = next := by simp
  rw [heredocLines?_of_open (by simp) hcloses, htaken, hdrop]

/-- Lines up to the closing word, whatever margin it stands behind. -/
theorem heredocLines?_lines {texts : List (List Char)} {margin next : List Char}
    (areLines : ∀ line ∈ texts, IsTextLine line) (isMargin : IsMargin margin)
    (stop : ∀ c ∈ next.head?, isWordChar c = false) :
    heredocLines? (texts.flatMap (· ++ ['\n']) ++ (margin ++ ("end".toList ++ next))) =
      some (texts.map (Text.trimEndBy (· = '\r')), margin.length,
        (texts.flatMap (· ++ ['\n'])).length + (margin.length + 3)) := by
  induction texts with
  | nil =>
      have hindent : indentation (margin ++ ("end".toList ++ next)) = margin.length :=
        indentation_append_margin isMargin
      have hcloses : closes ("end".toList ++ next) = true := closes_iff.mpr ⟨next, rfl, stop⟩
      rw [List.flatMap_nil, List.nil_append, heredocLines?_of_closes, hindent]
      · simp
      · rwa [hindent, List.drop_left]
  | cons line texts ih =>
      obtain ⟨hline, htexts⟩ := List.forall_mem_cons.mp areLines
      rw [List.flatMap_cons, List.append_assoc, List.append_assoc, List.singleton_append,
        heredocLines?_of_line hline, ih htexts]
      simp only [Option.map_some, List.map_cons, List.length_append, List.length_singleton]
      congr 3
      omega

/-- What starts like a word is one, or it opens a text over several lines. -/
theorem leading_of_startsWord {previous : Option TokenKind} {c : Char} {rest : List Char}
    (h : startsWord c = true) : leading previous c rest =
      if (String.ofList (word (c :: rest)) = "begin" &&
          lineEnds ((c :: rest).drop (word (c :: rest)).length)) = true then
        (heredoc ((c :: rest).drop (word (c :: rest)).length)).map fun l =>
          { l with width := (word (c :: rest)).length + l.width }
      else .ok ⟨.word (String.ofList (word (c :: rest))), (word (c :: rest)).length⟩ := by
  have hne := startsWord_ne h
  have hquote : ¬ (decide (c = '"') || decide (c = '\'')) = true := by
    simp [hne '"' (by decide), hne '\'' (by decide)]
  have hdigit : ¬ c.isDigit = true := by simp [not_isDigit_of_startsWord h]
  unfold leading
  rw [if_neg (hne '$' (by decide)), if_neg hquote, if_neg hdigit, if_pos h]

/-- The word that opens a text, with blanks up to the end of its line. -/
theorem word_begin {blanks : List Char} (hblanks : ∀ c ∈ blanks, isGap c = true)
    (next : List Char) : word ("begin".toList ++ (blanks ++ '\n' :: next)) = "begin".toList := by
  refine takeWhile_append_stop (List.all_eq_true.mp rfl) fun x hx => ?_
  cases blanks with
  | nil =>
      obtain rfl : '\n' = x := Option.some.inj hx
      decide
  | cons b blanks =>
      obtain rfl : b = x := Option.some.inj hx
      rcases Token.isGap_iff.mp (hblanks b List.mem_cons_self) with rfl | rfl | rfl <;> decide

theorem heredoc_lines {texts : List (List Char)} {margin next : List Char}
    (areLines : ∀ line ∈ texts, IsTextLine line) (isMargin : IsMargin margin)
    (stop : ∀ c ∈ next.head?, isWordChar c = false) :
    heredoc ('\n' :: (texts.flatMap (· ++ ['\n']) ++ (margin ++ ("end".toList ++ next)))) =
      .ok ⟨.text (String.ofList (joinLines (texts.map fun line =>
        dedent margin.length (Text.trimEndBy (· = '\r') line)))) true,
        1 + ((texts.flatMap (· ++ ['\n'])).length + (margin.length + 3))⟩ := by
  have hread := heredocLines?_lines areLines isMargin stop
  generalize texts.flatMap (· ++ ['\n']) ++ (margin ++ ("end".toList ++ next)) = tail at hread ⊢
  have hheading : (('\n' :: tail).takeWhile (· ≠ '\n')).length + 1 = 1 := rfl
  have hdrop : ('\n' :: tail).drop 1 = tail := rfl
  unfold heredoc
  simp only [hheading, hdrop, hread, List.map_map, Function.comp_def]

/-- **Lines are read back**, each without the blanks that the closing word has in front of it
too. -/
theorem reads_lines {previous : Option TokenKind} {texts : List (List Char)}
    {margin next : List Char} (areLines : ∀ line ∈ texts, IsTextLine line)
    (isMargin : IsMargin margin) (stop : ∀ c ∈ next.head?, isWordChar c = false) :
    Reads previous
      (.text (String.ofList (joinLines (texts.map fun line =>
        dedent margin.length (Text.trimEndBy (· = '\r') line)))) true)
      ("begin".toList ++ '\n' :: (texts.flatMap (· ++ ['\n']) ++ (margin ++ "end".toList)))
      next := by
  have hheredoc := heredoc_lines areLines isMargin stop
  generalize texts.flatMap (· ++ ['\n']) = body at hheredoc ⊢
  have hword := @word_begin [] (by simp) (body ++ (margin ++ ("end".toList ++ next)))
  have hopens : lineEnds ('\n' :: (body ++ (margin ++ ("end".toList ++ next)))) = true := rfl
  rw [List.nil_append] at hword
  generalize htail : '\n' :: (body ++ (margin ++ ("end".toList ++ next))) = tail
    at hheredoc hword hopens
  have hword : word ('b' :: ("egin".toList ++ tail)) = "begin".toList := hword
  have hbehind : ('b' :: ("egin".toList ++ tail)).drop "begin".toList.length = tail :=
    @List.drop_left _ "begin".toList tail
  refine ⟨'b', "egin".toList ++ tail, ?_, rfl, by decide, ?_⟩
  · rw [← htail]
    simp
  · rw [leading_of_startsWord (by decide), hword, hbehind, hopens, hheredoc]
    -- The text is as wide as its lines, its margin and the two words together.
    have hwidth : "begin".toList.length + (1 + (body.length + (margin.length + 3))) =
        ("begin".toList ++ '\n' :: (body ++ (margin ++ "end".toList))).length := by
      have hbegin : "begin".toList.length = 5 := rfl
      have hend : "end".toList.length = 3 := rfl
      simp only [List.length_append, List.length_cons, hbegin, hend]
      omega
    rw [← hwidth]
    rfl

/-! ## Lines behind one margin -/

theorem joinLines_eq_intercalate (lines : List (List Char)) :
    joinLines lines = List.intercalate ['\n'] lines := by
  induction lines with
  | nil => rfl
  | cons line rest ih =>
      cases rest with
      | nil => simp [joinLines, List.intercalate]
      | cons next rest =>
          rw [joinLines, ih]
          · simp [List.intercalate]
          · simp

/-- A carriage return at its end is all that a line would lose. -/
theorem trimEndBy_eq {line : List Char} (h : line.getLast? ≠ some '\r') :
    Text.trimEndBy (· = '\r') line = line := by
  unfold Text.trimEndBy
  rcases List.eq_nil_or_concat line with rfl | ⟨front, last, rfl⟩
  · rfl
  · have hlast : last ≠ '\r' := by simpa using h
    simp [hlast]

/-- A line loses just the margin that it stands behind. -/
theorem dedent_append {margin : List Char} (isMargin : IsMargin margin) (line : List Char) :
    dedent margin.length (margin ++ line) = line := by
  have hmargin : margin.takeWhile (fun c => c = ' ' || c = '\t') = margin := by
    refine List.takeWhile_eq_self_iff.mpr fun c hc => ?_
    simpa using isMargin c hc
  rw [dedent, List.take_left, hmargin, List.drop_left]

end Lexeme

namespace Token

open Lexeme

/-- A text over several lines, each of them behind the same margin as the closing word. -/
def writtenLines (margin : List Char) (lines : List (List Char)) : List Char :=
  "begin".toList ++
    '\n' :: (lines.flatMap (fun line => margin ++ line ++ ['\n']) ++ (margin ++ "end".toList))

theorem afterAll_of_not_mem {cs : List Char} (h : '\n' ∉ cs) (p : Position) :
    p.afterAll cs = ⟨p.line, p.column + cs.length⟩ := by
  induction cs generalizing p with
  | nil => rfl
  | cons c cs ih =>
      obtain ⟨hc, hcs⟩ := not_or.mp (List.mem_cons.not.mp h)
      have hafter : p.after c = ⟨p.line, p.column + 1⟩ := if_neg (Ne.symm hc)
      show (p.after c).afterAll cs = _
      rw [hafter, ih hcs, List.length_cons, Nat.add_assoc, Nat.add_comm 1]

/-- Every line ends in a line end, so what comes behind them starts a line. -/
theorem afterAll_flatMap_lines {lines : List (List Char)} (hlines : ∀ line ∈ lines, '\n' ∉ line)
    (n : Nat) : (⟨n, 1⟩ : Position).afterAll (lines.flatMap (· ++ ['\n'])) =
      ⟨n + lines.length, 1⟩ := by
  induction lines generalizing n with
  | nil => rfl
  | cons line lines ih =>
      obtain ⟨hline, hrest⟩ := List.forall_mem_cons.mp hlines
      rw [List.flatMap_cons, Position.afterAll_append, Position.afterAll_append,
        afterAll_of_not_mem hline]
      show (⟨n + 1, 1⟩ : Position).afterAll _ = _
      rw [ih hrest, List.length_cons]
      congr 1
      omega

/-- What is written behind a margin, as the lines that are read. -/
theorem writtenLines_eq (margin : List Char) (lines : List (List Char)) :
    writtenLines margin lines = "begin".toList ++
      '\n' :: ((lines.map (margin ++ ·)).flatMap (· ++ ['\n']) ++ (margin ++ "end".toList)) := by
  rw [writtenLines, List.flatMap_map]

/-- Where a text ends whose lines stand behind a margin. -/
theorem afterAll_writtenLines {margin : List Char} {lines : List (List Char)}
    (isMargin : IsMargin margin) (hlines : ∀ line ∈ lines, '\n' ∉ line) :
    (⟨1, 1⟩ : Position).afterAll (writtenLines margin lines) =
      ⟨lines.length + 2, margin.length + 4⟩ := by
  have htexts : ∀ line ∈ lines.map (margin ++ ·), '\n' ∉ line := by
    intro line hline
    obtain ⟨line, hmem, rfl⟩ := List.mem_map.mp hline
    exact List.mem_append.not.mpr (not_or.mpr ⟨not_mem_of_isMargin isMargin, hlines line hmem⟩)
  have hlast : '\n' ∉ margin ++ "end".toList :=
    List.mem_append.not.mpr (not_or.mpr ⟨not_mem_of_isMargin isMargin, by decide⟩)
  calc (⟨1, 1⟩ : Position).afterAll (writtenLines margin lines)
      = (⟨2, 1⟩ : Position).afterAll
          ((lines.map (margin ++ ·)).flatMap (· ++ ['\n']) ++ (margin ++ "end".toList)) := by
        rw [writtenLines_eq]
        rfl
    _ = (⟨2 + lines.length, 1⟩ : Position).afterAll (margin ++ "end".toList) := by
        rw [Position.afterAll_append, afterAll_flatMap_lines htexts, List.length_map]
    _ = ⟨lines.length + 2, margin.length + 4⟩ := by
        have hend : "end".toList.length = 3 := rfl
        rw [afterAll_of_not_mem hlast, List.length_append, hend]
        show (⟨2 + lines.length, 1 + (margin.length + 3)⟩ : Position) = _
        rw [Nat.add_comm 2, Nat.add_comm 1]

/-- Reading takes no more from a line behind a margin than the margin. -/
theorem dedent_trimEndBy {margin line : List Char} (isMargin : IsMargin margin)
    (hend : line.getLast? ≠ some '\r') :
    dedent margin.length (Text.trimEndBy (· = '\r') (margin ++ line)) = line := by
  have hreturn : (margin ++ line).getLast? ≠ some '\r' := by
    rw [List.getLast?_append]
    cases hlast : line.getLast? with
    | some c => simpa [hlast] using hend
    | none =>
        intro hmargin
        rcases isMargin _ (List.mem_of_getLast? hmargin) with h | h <;> cases h
  rw [trimEndBy_eq hreturn, dedent_append isMargin]

/-- **Texts over several lines give back their lines.** Lines that stand behind a margin are read
as one text, in which they follow each other without the margin. A line must not hold a line end,
end in a carriage return, or end the text. -/
theorem scan_writtenLines {margin : List Char} {lines : List (List Char)}
    (isMargin : IsMargin margin)
    (areLines : ∀ line ∈ lines, '\n' ∉ line ∧ line.getLast? ≠ some '\r' ∧ ¬ IsEndLine line) :
    scan (writtenLines margin lines) =
      .ok [⟨.text (String.ofList (List.intercalate ['\n'] lines)) true, ⟨1, 1⟩, true⟩,
        ⟨.endOfInput, ⟨lines.length + 2, margin.length + 4⟩, true⟩] := by
  have htexts : ∀ line ∈ lines.map (margin ++ ·), IsTextLine line := by
    intro line hline
    obtain ⟨line, hmem, rfl⟩ := List.mem_map.mp hline
    obtain ⟨hbreak, -, hend⟩ := areLines line hmem
    exact isTextLine_append isMargin hbreak hend
  have hgiven : (lines.map (margin ++ ·)).map
      (fun line => dedent margin.length (Text.trimEndBy (· = '\r') line)) = lines := by
    rw [List.map_map]
    exact List.map_congr_left (fun line hmem => dedent_trimEndBy isMargin (areLines line hmem).2.1)
      |>.trans (List.map_id _)
  have hreads : Reads none _ _ [] := reads_lines htexts isMargin (by simp)
  rw [hgiven, joinLines_eq_intercalate, ← writtenLines_eq] at hreads
  have hscan := @scanFrom_reads [] true ⟨1, 1⟩ _ _ _ hreads (by simp [writtenLines])
  rw [List.append_nil, afterAll_writtenLines isMargin fun line hmem => (areLines line hmem).1,
    scanFrom] at hscan
  exact hscan

/-- Lines that are blank, indented or almost the last one, behind a margin of a tab and a blank. -/
theorem scan_writtenLines_mixed :
    scan "begin\n\t one\n\t \n\t   ending\n\t \t\n\t end".toList =
      .ok [⟨.text "one\n\n  ending\n\t" true, ⟨1, 1⟩, true⟩, ⟨.endOfInput, ⟨6, 6⟩, true⟩] := by
  have isMargin : IsMargin ['\t', ' '] := by simp [IsMargin]
  have areLines : ∀ line ∈ ["one".toList, [], "  ending".toList, ['\t']],
      '\n' ∉ line ∧ line.getLast? ≠ some '\r' ∧ ¬ IsEndLine line := by decide
  exact scan_writtenLines isMargin areLines

end Token

end TabPilot
