import Mathlib.Data.List.Intervals
import TabPilot.Script.Fault

set_option autoImplicit false

/-! # Excerpts of sources

A fault with a position is shown with the lines around it. An `Excerpt` is what is to be seen there:
rows, each of them a mark, a number and a line of the source, and below the marked row a pointer.
`Fault.ShownBy` says that the text of a fault shows an excerpt, and which lines that one has to
consist of.

The main statement is `Fault.excerpt_points_at_column`. The caret is below the column of the fault
as long as the number of the line has four digits at most; with every further digit it falls behind
by one more column (`Fault.caret_misses_column`).
-/

namespace TabPilot.Fault

/-! ## The lines of a text -/

/-- The lines of a text: no line holds a line feed, and joined by line feeds they are the text. -/
structure AreLines (lines : List (List Char)) (text : List Char) : Prop where
  nonempty : lines ≠ []
  whole : ∀ line ∈ lines, '\n' ∉ line
  joined : List.intercalate ['\n'] lines = text

variable {line rest text : List Char} {lines : List (List Char)}

theorem linesOf_feed (rest : List Char) : linesOf ('\n' :: rest) = [] :: linesOf rest := by
  rw [linesOf, if_pos rfl]

theorem linesOf_ne_nil (text : List Char) : linesOf text ≠ [] := by
  cases text with
  | nil => exact List.cons_ne_nil _ _
  | cons c rest =>
      rw [linesOf]
      split
      · exact List.cons_ne_nil _ _
      · split <;> exact List.cons_ne_nil _ _

theorem linesOf_cons {c : Char} (hc : c ≠ '\n') (h : linesOf rest = line :: lines) :
    linesOf (c :: rest) = (c :: line) :: lines := by
  rw [linesOf, if_neg hc, h]

theorem linesOf_eq_singleton (h : '\n' ∉ line) : linesOf line = [line] := by
  induction line with
  | nil => rfl
  | cons c line ih =>
      obtain ⟨hc, hline⟩ := not_or.mp (List.mem_cons.not.mp h)
      exact linesOf_cons (Ne.symm hc) (ih hline)

/-- A line feed ends the line in front of it. -/
theorem linesOf_append (h : '\n' ∉ line) (rest : List Char) :
    linesOf (line ++ '\n' :: rest) = line :: linesOf rest := by
  induction line with
  | nil => exact linesOf_feed rest
  | cons c line ih =>
      obtain ⟨hc, hline⟩ := not_or.mp (List.mem_cons.not.mp h)
      exact linesOf_cons (Ne.symm hc) (ih hline)

theorem not_mem_linesOf (text : List Char) : ∀ line ∈ linesOf text, '\n' ∉ line := by
  induction text with
  | nil => simp [linesOf]
  | cons c rest ih =>
      by_cases hc : c = '\n'
      · rw [hc, linesOf_feed]
        exact List.forall_mem_cons.mpr ⟨List.not_mem_nil, ih⟩
      · obtain ⟨line, lines, hrest⟩ := List.exists_cons_of_ne_nil (linesOf_ne_nil rest)
        rw [hrest] at ih
        obtain ⟨hline, hlines⟩ := List.forall_mem_cons.mp ih
        rw [linesOf_cons hc hrest]
        refine List.forall_mem_cons.mpr ⟨?_, hlines⟩
        exact List.mem_cons.not.mpr (not_or.mpr ⟨Ne.symm hc, hline⟩)

theorem intercalate_linesOf (text : List Char) : List.intercalate ['\n'] (linesOf text) = text := by
  induction text with
  | nil => rfl
  | cons c rest ih =>
      by_cases hc : c = '\n'
      · rw [hc, linesOf_feed, List.intercalate_cons_of_ne_nil (linesOf_ne_nil rest), ih]
        rfl
      · obtain ⟨line, lines, hrest⟩ := List.exists_cons_of_ne_nil (linesOf_ne_nil rest)
        rw [linesOf_cons hc hrest]
        rw [hrest] at ih
        cases lines with
        | nil => simpa using ih
        | cons next lines =>
            rw [List.intercalate_cons_of_ne_nil (List.cons_ne_nil _ _)] at ih ⊢
            rw [← ih]
            rfl

/-- Every text has lines. -/
theorem areLines_linesOf (text : List Char) : AreLines (linesOf text) text :=
  ⟨linesOf_ne_nil text, not_mem_linesOf text, intercalate_linesOf text⟩

/-- A text has no other lines. -/
theorem AreLines.eq (h : AreLines lines text) : linesOf text = lines := by
  obtain ⟨hne, hwhole, rfl⟩ := h
  induction lines with
  | nil => exact absurd rfl hne
  | cons line lines ih =>
      obtain ⟨hline, hlines⟩ := List.forall_mem_cons.mp hwhole
      cases lines with
      | nil => simpa using linesOf_eq_singleton hline
      | cons next lines =>
          rw [List.intercalate_cons_of_ne_nil (List.cons_ne_nil _ _), List.append_assoc,
            List.singleton_append, linesOf_append hline, ih (List.cons_ne_nil _ _) hlines]

/-- Rows that end in line feeds are the lines of what they are together, up to an empty last
one. -/
theorem linesOf_rows {rows : List (List Char)} (h : ∀ row ∈ rows, '\n' ∉ row) :
    linesOf (rows.flatMap (· ++ ['\n'])) = rows ++ [[]] := by
  induction rows with
  | nil => rfl
  | cons row rows ih =>
      obtain ⟨hrow, hrows⟩ := List.forall_mem_cons.mp h
      rw [List.flatMap_cons, List.append_assoc, List.singleton_append, linesOf_append hrow,
        ih hrows, List.cons_append]

/-! ## Excerpts -/

/-- A row that shows a line of the source, with a mark and the number of the line in front. -/
structure Row where
  mark : List Char
  indent : Nat
  number : Nat
  line : List Char

namespace Row

def lead (r : Row) : List Char :=
  r.mark ++ List.replicate r.indent ' ' ++ Nat.toDigits 10 r.number ++ [':', ' ']

def chars (r : Row) : List Char := r.lead ++ r.line

def entry (r : Row) : Nat × List Char := (r.number, r.line)

end Row

/-- A row with a caret and, behind the caret, a message. -/
structure Pointer where
  mark : List Char
  indent : Nat
  message : List Char

def Pointer.chars (r : Pointer) : List Char :=
  r.mark ++ List.replicate r.indent ' ' ++ '^' :: ' ' :: r.message

/-- An excerpt: rows, and directly below one of them a pointer. -/
structure Excerpt where
  above : List Row
  marked : Row
  pointer : Pointer
  below : List Row

namespace Excerpt

def rows (x : Excerpt) : List (List Char) :=
  x.above.map Row.chars ++ x.marked.chars :: x.pointer.chars :: x.below.map Row.chars

/-- The column in which a column of the marked line is shown. Columns count from one. -/
def columnOf (x : Excerpt) (column : Nat) : Nat := x.marked.lead.length + column

def caretColumn (x : Excerpt) : Nat := x.pointer.chars.idxOf '^' + 1

end Excerpt

/-- The mark of the row with the fault, and of the pointer. -/
def marker : List Char := ['>', '>', ' ']

/-- What stands in the place of the mark in front of all other rows. -/
def gap : List Char := [' ', ' ', ' ']

/-- Lines under their numbers, which count from one. -/
def numbered (lines : List (List Char)) : List (Nat × List Char) := (lines.zipIdx 1).map Prod.swap

/-- The lines whose numbers go from `first` to `last`. -/
def between (first last : Nat) (lines : List (List Char)) : List (Nat × List Char) :=
  (numbered lines).filter fun entry => first ≤ entry.1 && entry.1 ≤ last

def heading (e : Fault) (p : Position) : String :=
  e.kind.label ++ " on " ++ p.text ++ "\n" ++
    (match e.filename with
      | some name => "  in file: " ++ name ++ "\n"
      | none => "") ++ "Source:\n"

/-- A fault with a message of one line, at a position in a source of these lines. -/
structure IsLocated (e : Fault) (p : Position) (lines : List (List Char)) : Prop where
  position : e.position = some p
  source : ∃ source, e.source = some source ∧ AreLines lines source.toList
  line : 1 ≤ p.line ∧ p.line ≤ lines.length
  column : 1 ≤ p.column
  message : '\n' ∉ e.message.toList

/-- The text of a fault is a heading and an excerpt. The rows of the excerpt are the lines at most
three lines away from the position, each under its own number; only the line of the position is
marked, and the pointer is below that line. -/
structure ShownBy (e : Fault) (p : Position) (lines : List (List Char)) (x : Excerpt) : Prop where
  text : e.render.toList = (e.heading p).toList ++ x.rows.flatMap (· ++ ['\n'])
  whole : ∀ row ∈ x.rows, '\n' ∉ row
  shown : (x.above ++ x.marked :: x.below).map Row.entry =
    between (max 1 (p.line - 3)) (min lines.length (p.line + 3)) lines
  marked : x.marked.number = p.line ∧ x.marked.mark = marker
  unmarked : ∀ r ∈ x.above ++ x.below, r.mark = gap
  pointer : x.pointer.mark = marker ∧ x.pointer.message = e.shownMessage.toList

/-! ## Lines by their numbers -/

/-- The line of a number, under it. -/
def entryAt (lines : List (List Char)) (n : Nat) : Nat × List Char := (n, (lines[n - 1]?).getD [])

theorem numbered_eq (lines : List (List Char)) :
    numbered lines = (List.Ico 1 (lines.length + 1)).map (entryAt lines) := by
  refine List.ext_getElem? fun i => ?_
  rw [numbered, List.getElem?_map, List.getElem?_zipIdx, List.getElem?_map, List.Ico]
  by_cases hi : i < lines.length
  · simp [hi, entryAt]
  · simp [hi]

theorem between_eq {first last : Nat} (hfirst : 1 ≤ first) (hlast : last ≤ lines.length) :
    between first last lines = (List.Ico first (last + 1)).map (entryAt lines) := by
  have hfilter : (List.Ico 1 (lines.length + 1)).filter (fun n => first ≤ n && n ≤ last) =
      List.Ico first (last + 1) := by
    calc (List.Ico 1 (lines.length + 1)).filter (fun n => first ≤ n && n ≤ last)
        = ((List.Ico 1 (lines.length + 1)).filter (· < last + 1)).filter (first ≤ ·) := by
          simp only [List.filter_filter, Nat.lt_succ_iff]
      _ = List.Ico first (last + 1) := by
          rw [List.Ico.filter_lt, List.Ico.filter_le, Nat.max_eq_right hfirst,
            Nat.min_eq_right (Nat.succ_le_succ hlast)]
  rw [between, numbered_eq, List.filter_map, ← hfilter]
  rfl

/-- The numbers from one to another, with a number between them singled out. -/
theorem Ico_split {first n last : Nat} (hfirst : first ≤ n) (hlast : n ≤ last) :
    List.Ico first (last + 1) = List.Ico first n ++ n :: List.Ico (n + 1) (last + 1) := by
  rw [← List.Ico.append_consecutive hfirst (Nat.le_succ_of_le hlast),
    List.Ico.eq_cons (Nat.lt_succ_of_le hlast)]

/-! ## The excerpt that is shown -/

def rowAt (p : Position) (lines : List (List Char)) (n : Nat) : Row :=
  ⟨if n = p.line then marker else gap, 4 - (Nat.toDigits 10 n).length, n, (entryAt lines n).2⟩

def excerptAt (p : Position) (message : List Char) (lines : List (List Char)) : Excerpt where
  above := (List.Ico (max 1 (p.line - 3)) p.line).map (rowAt p lines)
  marked := rowAt p lines p.line
  pointer := ⟨marker, 6 + (p.column - 1), message⟩
  below := (List.Ico (p.line + 1) (min lines.length (p.line + 3) + 1)).map (rowAt p lines)

variable {e : Fault} {p : Position} {message : List Char} {x y : Excerpt}

theorem shownLine_of_ne {n : Nat} (h : n ≠ p.line) :
    shownLine p message n (entryAt lines n).2 = (rowAt p lines n).chars ++ ['\n'] := by
  simp [shownLine, rowAt, Row.chars, Row.lead, lineNumber, gap, h]

theorem shownLine_self :
    shownLine p message p.line (entryAt lines p.line).2 =
      (rowAt p lines p.line).chars ++
        '\n' :: ((excerptAt p message lines).pointer.chars ++ ['\n']) := by
  simp [shownLine, rowAt, Row.chars, Row.lead, lineNumber, marker, excerptAt, Pointer.chars]

theorem flatMap_shownLine {ns : List Nat} (h : p.line ∉ ns) :
    ns.flatMap (fun n => shownLine p message n (entryAt lines n).2) =
      ((ns.map (rowAt p lines)).map Row.chars).flatMap (· ++ ['\n']) := by
  rw [List.flatMap_map, List.flatMap_map]
  exact List.flatMap_congr fun n hn => shownLine_of_ne fun heq => h (heq ▸ hn)

theorem excerpt_eq (hline : 1 ≤ p.line ∧ p.line ≤ lines.length) :
    excerpt p message lines = (excerptAt p message lines).rows.flatMap (· ++ ['\n']) := by
  have hsplit : List.Ico (max 1 (p.line - 3)) (min lines.length (p.line + 3) + 1) =
      List.Ico (max 1 (p.line - 3)) p.line ++
        p.line :: List.Ico (p.line + 1) (min lines.length (p.line + 3) + 1) :=
    Ico_split (by omega) (by omega)
  have habove : p.line ∉ List.Ico (max 1 (p.line - 3)) p.line := by simp
  have hbelow : p.line ∉ List.Ico (p.line + 1) (min lines.length (p.line + 3) + 1) := by simp
  calc excerpt p message lines
      = (List.Ico (max 1 (p.line - 3)) (min lines.length (p.line + 3) + 1)).flatMap
          (fun n => shownLine p message n (entryAt lines n).2) := rfl
    _ = (excerptAt p message lines).rows.flatMap (· ++ ['\n']) := by
        rw [hsplit, List.flatMap_append, List.flatMap_cons, flatMap_shownLine habove,
          flatMap_shownLine hbelow, shownLine_self]
        simp [Excerpt.rows, excerptAt]

theorem render_eq (h : e.IsLocated p lines) :
    e.render.toList = (e.heading p).toList ++ excerpt p e.shownMessage.toList lines := by
  obtain ⟨source, hsource, hlines⟩ := h.source
  have hplace : ¬ (p.line = 0 || lines.length < p.line) = true := by
    have hline := h.line
    simp
    omega
  cases hname : e.filename <;>
    simp only [render, heading, h.position, hsource, hname, hlines.eq, if_neg hplace,
      String.toList_append, String.toList_ofList]

/-! ## Every row is a line of the output -/

/-- No line feed is at a position of a source. -/
theorem charAt?_ne {c : Char} (h : charAt? (linesOf text) p = some c) : c ≠ '\n' := by
  rw [charAt?] at h
  split at h
  · cases h
  · obtain ⟨line, hline, hc⟩ := Option.bind_eq_some_iff.mp h
    rintro rfl
    exact not_mem_linesOf text line (List.mem_of_getElem? hline) (List.mem_of_getElem? hc)

/-- A message of one line is still one when it names the character at the position. -/
theorem not_mem_shownMessage (h : '\n' ∉ e.message.toList) : '\n' ∉ e.shownMessage.toList := by
  unfold shownMessage
  dsimp only
  split
  · next c hc =>
      split at hc
      · split at hc
        · simpa using Ne.symm (charAt?_ne hc)
        · cases hc
      · cases hc
  · exact h

theorem not_mem_entryAt (h : ∀ line ∈ lines, '\n' ∉ line) (n : Nat) :
    '\n' ∉ (entryAt lines n).2 := by
  rw [entryAt]
  cases hline : lines[n - 1]? with
  | none => exact List.not_mem_nil
  | some line => exact h line (List.mem_of_getElem? hline)

theorem not_mem_rowAt (h : ∀ line ∈ lines, '\n' ∉ line) (n : Nat) :
    '\n' ∉ (rowAt p lines n).chars := by
  have hdigits : '\n' ∉ Nat.toDigits 10 n := fun hmem =>
    absurd (Nat.isDigit_of_mem_toDigits (by decide) (by decide) hmem) (by decide)
  have hmark : '\n' ∉ (if n = p.line then marker else gap) := by
    split <;> decide
  simp [Row.chars, Row.lead, rowAt, hdigits, hmark, not_mem_entryAt h]

theorem not_mem_rows (h : ∀ line ∈ lines, '\n' ∉ line) (hmessage : '\n' ∉ message) :
    ∀ row ∈ (excerptAt p message lines).rows, '\n' ∉ row := by
  have hpointer : '\n' ∉ (excerptAt p message lines).pointer.chars := by
    simp [excerptAt, Pointer.chars, marker, hmessage]
  have hrows (ns : List Nat) : ∀ row ∈ (ns.map (rowAt p lines)).map Row.chars, '\n' ∉ row := by
    intro row hrow
    obtain ⟨r, hr, rfl⟩ := List.mem_map.mp hrow
    obtain ⟨n, -, rfl⟩ := List.mem_map.mp hr
    exact not_mem_rowAt h n
  refine List.forall_mem_append.mpr ⟨hrows _, ?_⟩
  refine List.forall_mem_cons.mpr ⟨not_mem_rowAt h p.line, ?_⟩
  exact List.forall_mem_cons.mpr ⟨hpointer, hrows _⟩

/-- A fault is shown by the excerpt around its position. -/
theorem shownBy_excerptAt (h : e.IsLocated p lines) :
    e.ShownBy p lines (excerptAt p e.shownMessage.toList lines) := by
  obtain ⟨_, -, hlines⟩ := h.source
  have hline := h.line
  refine ⟨?_, not_mem_rows hlines.whole (not_mem_shownMessage h.message), ?_, ⟨rfl, if_pos rfl⟩,
    ?_, ⟨rfl, rfl⟩⟩
  · rw [render_eq h, excerpt_eq hline]
  · have hentry : Row.entry ∘ rowAt p lines = entryAt lines := rfl
    rw [between_eq (Nat.le_max_left _ _) (Nat.min_le_left _ _),
      Ico_split (show max 1 (p.line - 3) ≤ p.line by omega)
        (show p.line ≤ min lines.length (p.line + 3) by omega),
      List.map_append, List.map_append, ← hentry, ← List.map_map, ← List.map_map]
    rfl
  · intro r hr
    simp only [excerptAt, List.mem_append, List.mem_map, List.Ico.mem] at hr
    rcases hr with ⟨n, hn, rfl⟩ | ⟨n, hn, rfl⟩
    · exact if_neg (by omega)
    · exact if_neg (by omega)

/-! ## Columns -/

/-- The caret is the first one of its row, whatever the message is. -/
theorem Pointer.idxOf_caret {r : Pointer} (h : '^' ∉ r.mark) :
    r.chars.idxOf '^' = r.mark.length + r.indent := by
  have hblanks : '^' ∉ r.mark ++ List.replicate r.indent ' ' := by simp [h]
  rw [Pointer.chars, List.idxOf_append_of_notMem hblanks, List.idxOf_cons_self]
  simp

theorem caretColumn_excerptAt (hcolumn : 1 ≤ p.column) :
    (excerptAt p message lines).caretColumn = 9 + p.column := by
  have hmark : '^' ∉ (excerptAt p message lines).pointer.mark := by simp [excerptAt, marker]
  rw [Excerpt.caretColumn, Pointer.idxOf_caret hmark]
  show 3 + (6 + (p.column - 1)) + 1 = 9 + p.column
  omega

theorem columnOf_excerptAt (column : Nat) :
    (excerptAt p message lines).columnOf column =
      9 + ((Nat.toDigits 10 p.line).length - 4) + column := by
  have hlead : (rowAt p lines p.line).lead.length =
      9 + ((Nat.toDigits 10 p.line).length - 4) := by
    simp [rowAt, Row.lead, marker]
    omega
  show (rowAt p lines p.line).lead.length + column = _
  rw [hlead]

/-- The rows above the marked one count up to its number. -/
theorem ShownBy.length_above (h : e.ShownBy p lines x) :
    max 1 (p.line - 3) + x.above.length = p.line := by
  have hnumbers : (x.above ++ x.marked :: x.below).map Row.number =
      List.Ico (max 1 (p.line - 3)) (min lines.length (p.line + 3) + 1) := by
    have hfst : Prod.fst ∘ entryAt lines = id := rfl
    have hshown := congrArg (List.map Prod.fst) h.shown
    rw [between_eq (Nat.le_max_left _ _) (Nat.min_le_left _ _), List.map_map, List.map_map, hfst,
      List.map_id] at hshown
    exact hshown
  have hplace : some p.line =
      (List.Ico (max 1 (p.line - 3)) (min lines.length (p.line + 3) + 1))[x.above.length]? := by
    rw [← hnumbers, ← h.marked.1]
    simp
  obtain ⟨hlt, hplace⟩ := List.getElem?_eq_some_iff.mp hplace.symm
  simpa only [List.Ico, List.getElem_range', Nat.one_mul] using hplace

/-- The columns of an excerpt can be read off the text that it is shown as. -/
theorem ShownBy.same_columns (h : e.ShownBy p lines x) (h' : e.ShownBy p lines y) :
    x.caretColumn = y.caretColumn ∧ ∀ column, x.columnOf column = y.columnOf column := by
  have hrows : x.rows = y.rows := by
    have htext := h.text.symm.trans h'.text
    have hlines := congrArg linesOf (List.append_cancel_left htext)
    rw [linesOf_rows h.whole, linesOf_rows h'.whole] at hlines
    exact List.append_cancel_right hlines
  have hlength : x.above.length = y.above.length := by
    have habove := h.length_above
    have habove' := h'.length_above
    omega
  obtain ⟨-, hbelow⟩ := List.append_inj hrows (by simpa using hlength)
  obtain ⟨hmarked, hbelow⟩ := List.cons.inj hbelow
  obtain ⟨hpointer, -⟩ := List.cons.inj hbelow
  have hline : x.marked.line = y.marked.line := by
    have hshown := h.shown.trans h'.shown.symm
    rw [List.map_append, List.map_append] at hshown
    obtain ⟨-, hshown⟩ := List.append_inj hshown (by simpa using hlength)
    exact congrArg Prod.snd (List.cons.inj hshown).1
  rw [Row.chars, Row.chars, hline] at hmarked
  have hlead : x.marked.lead = y.marked.lead := List.append_cancel_right hmarked
  constructor
  · rw [Excerpt.caretColumn, Excerpt.caretColumn, hpointer]
  · intro column
    rw [Excerpt.columnOf, Excerpt.columnOf, hlead]

/-- **Excerpts point at the right place.** A fault is shown with the lines around its position, as
many as there are up to the third on either side, and the line of the position is marked. The caret
is in the column in which the column of the fault is shown, just for the lines below ten thousand;
otherwise it is as many columns too far to the left as the number of the line has digits beyond
four. -/
theorem excerpt_points_at_column (h : e.IsLocated p lines) :
    ∃ x : Excerpt, e.ShownBy p lines x ∧
      (x.caretColumn = x.columnOf p.column ↔ p.line < 10000) ∧
      x.columnOf p.column = x.caretColumn + ((Nat.toDigits 10 p.line).length - 4) := by
  have hdigits : (Nat.toDigits 10 p.line).length ≤ 4 ↔ p.line < 10 ^ 4 :=
    Nat.length_toDigits_le_iff (by decide) (by decide)
  refine ⟨_, shownBy_excerptAt h, ?_⟩
  rw [caretColumn_excerptAt h.column, columnOf_excerptAt]
  constructor
  · omega
  · omega

/-- A fault in a file of four lines, so near to both ends that no excerpt reaches further. -/
def clippedFault : Fault :=
  ⟨.command, "Error running command 'put': boom", some ⟨3, 5⟩, some "test.fs",
    some "$a = 1\n$b = 2\nput $c\n$d = 4"⟩

theorem excerpt_points_at_column_clipped :
    let lines := ["$a = 1", "$b = 2", "put $c", "$d = 4"].map String.toList
    clippedFault.IsLocated ⟨3, 5⟩ lines ∧
      clippedFault.render = "Runtime error on line 3, char 5\n  in file: test.fs\nSource:\n" ++
        "      1: $a = 1\n      2: $b = 2\n>>    3: put $c\n" ++
        ">>           ^ Error running command 'put': boom\n      4: $d = 4\n" ∧
      ∃ x : Excerpt, clippedFault.ShownBy ⟨3, 5⟩ lines x ∧ x.caretColumn = x.columnOf 5 := by
  intro lines
  have hlocated : clippedFault.IsLocated ⟨3, 5⟩ lines :=
    ⟨rfl, ⟨_, rfl, by decide, by decide, by decide⟩, by decide, by decide, by decide⟩
  obtain ⟨x, hx, hcolumn, -⟩ := excerpt_points_at_column hlocated
  exact ⟨hlocated, by decide +kernel, x, hx, hcolumn.mpr (by decide)⟩

/-! ## A line with five digits -/

/-- Empty lines in front of a last one. -/
theorem areLines_replicate (n : Nat) (h : '\n' ∉ line) :
    AreLines (List.replicate n [] ++ [line]) (List.replicate n '\n' ++ line) := by
  refine ⟨by simp, ?_, ?_⟩
  · intro row hrow
    rcases List.mem_append.mp hrow with hrow | hrow
    · obtain ⟨-, rfl⟩ := List.mem_replicate.mp hrow
      exact List.not_mem_nil
    · rwa [List.mem_singleton.mp hrow]
  · induction n with
    | zero => simp
    | succ n ih =>
        rw [List.replicate_succ, List.replicate_succ, List.cons_append,
          List.intercalate_cons_of_ne_nil (by simp), ih]
        rfl

/-- A fault in the only line that is not empty, the ten thousandth. -/
def distantFault : Fault :=
  ⟨.running, "boom", some ⟨10000, 1⟩, none,
    some (String.ofList (List.replicate 9999 '\n' ++ ['x']))⟩

/-- The caret is not below the `x`. -/
theorem caret_misses_column :
    let lines := List.replicate 9999 [] ++ [['x']]
    distantFault.IsLocated ⟨10000, 1⟩ lines ∧
      ¬ ∃ x : Excerpt, distantFault.ShownBy ⟨10000, 1⟩ lines x ∧
        x.caretColumn = x.columnOf 1 := by
  intro lines
  have hlocated : distantFault.IsLocated ⟨10000, 1⟩ lines := by
    refine ⟨rfl, ⟨_, rfl, ?_⟩, ⟨by decide, ?_⟩, by decide, by decide⟩
    · rw [String.toList_ofList]
      exact areLines_replicate 9999 (by decide)
    · rw [List.length_append, List.length_replicate]
      exact Nat.le_refl 10000
  refine ⟨hlocated, ?_⟩
  rintro ⟨x, hx, hcolumn⟩
  obtain ⟨hcaret, hcolumns⟩ := hx.same_columns (shownBy_excerptAt hlocated)
  have hdigits : (Nat.toDigits 10 10000).length = 5 := by decide
  rw [hcaret, hcolumns, caretColumn_excerptAt hlocated.column, columnOf_excerptAt,
    hdigits] at hcolumn
  exact absurd hcolumn (by decide)

end TabPilot.Fault
