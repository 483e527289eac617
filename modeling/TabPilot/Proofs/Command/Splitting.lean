import TabPilot.Proofs.Command.Options
import TabPilot.Proofs.Text.Words

set_option autoImplicit false

/-! # The commands that split, join and replace

`Splits`, `Joins` and `Replaces` say of the argument and the options of a call what it asks for,
and `Gives` says what the call of a command answers. The parts of a split, from the left
or from the right, joined with the separator give the text back, and splitting from the right
mirrors splitting from the left (`split_and_rsplit`); replacing a text is splitting at it and
joining the parts with the replacement (`replace_by_splitting`).
-/

namespace TabPilot.Formatting

def reversed (text : String) : String := String.ofList text.toList.reverse

def texts (parts : List String) : Value := .array (parts.map .string)

/-- The call of a command that answers with a value, at once and without changing anything. -/
def Gives (name : String) (i : Invocation) (v : Value) : Prop :=
  ∀ w : World, commands.execute name w i = (w, .ok v)

/-- A call that asks for a text to be split at a separator or else at blanks, with at most so many
splits. -/
structure Splits (i : Invocation) (text : String) (separator : Option String)
    (count : Option Nat) : Prop where
  argument : i.argument = some (.string text)
  separator : AsksText (i.options.get? "on") separator
  count : AsksCount (i.options.get? "count") count

structure Joins (i : Invocation) (parts : List String) (joiner : String) : Prop where
  argument : i.argument = some (texts parts)
  joiner : i.options.get? "joiner" = some (.string joiner)

/-- A call that asks for a text to be replaced, at most so many times. -/
structure Replaces (i : Invocation) (text find : String) (replacement : Option String)
    (count : Option Nat) : Prop where
  argument : i.argument = some (.string text)
  find : i.options.get? "find" = some (.string find)
  replacement : AsksText (i.options.get? "replace") replacement
  count : AsksCount (i.options.get? "count") count
  literal : AsksFlag false (i.options.get? "regex") false

/-- A call has one answer. -/
theorem Gives.parts_unique {name : String} {i : Invocation} {parts others : List String}
    (h : Gives name i (texts parts)) (h' : Gives name i (texts others)) : parts = others := by
  have hsame : texts parts = texts others := by
    simpa [Progress.ok] using (h World.empty).symm.trans (h' World.empty)
  simpa [texts, List.map_inj_right] using hsame

variable {i : Invocation} {text sep find : String} {separator replacement : Option String}
  {count : Option Nat}

/-! ## Texts and their characters -/

def ofParts (parts : List (List Char)) : List String := parts.map String.ofList

@[simp] theorem toList_ofParts (parts : List (List Char)) :
    (ofParts parts).map String.toList = parts := by
  simp [ofParts, Function.comp_def]

@[simp] theorem length_ofParts (parts : List (List Char)) :
    (ofParts parts).length = parts.length := List.length_map _

theorem toList_ne_nil (h : sep ≠ "") : sep.toList ≠ [] := by
  simpa using h

theorem toList_reversed (text : String) : (reversed text).toList = text.toList.reverse := by
  simp [reversed]

/-- Lists of characters mirrored as texts. -/
theorem ofParts_mirrored (parts : List (List Char)) :
    ofParts (Text.mirrored parts) = ((ofParts parts).map reversed).reverse := by
  simp [ofParts, Text.mirrored, reversed, Function.comp_def]

theorem intercalate_ofParts (joiner : String) (parts : List (List Char)) :
    joiner.intercalate (ofParts parts) = String.ofList (joiner.toList.intercalate parts) := by
  apply String.toList_inj.mp
  rw [String.toList_intercalate, toList_ofParts, String.toList_ofList]

/-! ## What the commands answer -/

/-- The body of a command on a text, when there is one. -/
theorem onText_eq (f : String → Invocation → Except Error Value)
    (h : i.argument = some (.string text)) (w : World) :
    onText f w i = (w, .finished (f text i)) := by
  simp [onText, onValue, CommandBody.answering, Invocation.required, h]

/-- The lists of characters that a text is split into, at a separator or else at blanks. -/
def cutBy (atSeparator : List Char → Option Nat → List Char → List (List Char))
    (atBlanks : Option Nat → List Char → List (List Char)) (separator : Option String)
    (count : Option Nat) (cs : List Char) : List (List Char) :=
  match separator with
  | some sep => atSeparator sep.toList count cs
  | none => atBlanks count cs

def leftParts : Option String → Option Nat → List Char → List (List Char) :=
  cutBy Text.splitOn Text.splitWords

def rightParts : Option String → Option Nat → List Char → List (List Char) :=
  cutBy Text.rsplitOn Text.rsplitWords

theorem split_eq (atSeparator : List Char → Option Nat → List Char → List (List Char))
    (atBlanks : Option Nat → List Char → List (List Char)) (hsep : separator ≠ some "")
    (h : Splits i text separator count) (w : World) :
    split atSeparator atBlanks w i =
      (w, .ok (texts (ofParts (cutBy atSeparator atBlanks separator count text.toList)))) := by
  rw [split, onText_eq _ h.argument, Invocation.text_eq_ok_iff.mpr h.separator,
    count_eq_ok_iff.mpr h.count]
  cases separator with
  | none => simp [bind, Except.bind, pure, Except.pure, cutBy, texts, ofParts, Progress.ok]
  | some sep =>
      -- Only the empty separator is refused.
      have hne : sep ≠ "" := fun heq => hsep (congrArg some heq)
      simp [bind, Except.bind, pure, Except.pure, cutBy, texts, ofParts, Progress.ok]

theorem gives_split (hsep : separator ≠ some "") (h : Splits i text separator count) :
    Gives "split" i (texts (ofParts (leftParts separator count text.toList))) :=
  split_eq Text.splitOn Text.splitWords hsep h

theorem gives_rsplit (hsep : separator ≠ some "") (h : Splits i text separator count) :
    Gives "rsplit" i (texts (ofParts (rightParts separator count text.toList))) :=
  split_eq Text.rsplitOn Text.rsplitWords hsep h

theorem gives_join {parts : List String} (h : Joins i parts sep) :
    Gives "join" i (.string (sep.intercalate parts)) := by
  intro w
  have hjoiner : i.text "joiner" = .ok (some sep) :=
    Invocation.text_eq_ok_iff.mpr (.given h.joiner)
  have hrender : parts.map (Value.render ∘ Value.string) = parts := List.map_id'' (fun _ => rfl) _
  show join w i = _
  simp [join, onValue, CommandBody.answering, Invocation.required, h.argument, texts, hjoiner,
    hrender, Except.map, Progress.ok]

theorem gives_replace (h : Replaces i text find replacement count) :
    Gives "replace" i (.string (Text.replace find (replacement.getD "") count text)) := by
  intro w
  show replace w i = _
  rw [replace, onText_eq _ h.argument, Invocation.text_eq_ok_iff.mpr (.given h.find),
    Invocation.text_eq_ok_iff.mpr h.replacement, count_eq_ok_iff.mpr h.count,
    Invocation.flag_eq_ok_iff.mpr h.literal]
  rfl

/-! ## Splitting and joining -/

theorem reversed_ne_empty (hsep : separator ≠ some "") : separator.map reversed ≠ some "" := by
  intro heq
  obtain ⟨sep, rfl, hempty⟩ := Option.map_eq_some_iff.mp heq
  have hchars : sep.toList.reverse = [] := by
    rw [← toList_reversed, hempty]
    rfl
  exact hsep (congrArg some (by simpa using hchars))

/-- Splitting from the right mirrors splitting from the left. -/
theorem rightParts_eq (hsep : separator ≠ some "") (cs : List Char) :
    rightParts separator count cs =
      Text.mirrored (leftParts (separator.map reversed) count cs.reverse) := by
  cases separator with
  | none => exact Text.rsplitWords_eq count cs
  | some sep =>
      have hchars : sep.toList ≠ [] := toList_ne_nil fun heq => hsep (congrArg some heq)
      show Text.rsplitOn sep.toList count cs =
        Text.mirrored (Text.splitOn (reversed sep).toList count cs.reverse)
      rw [Text.rsplitOn_eq hchars, toList_reversed]

/-- What a text is split into at a separator: at least one part, at most one more than there may be
splits, and joined with the separator they are the text again. -/
structure Parts (text sep : String) (count : Option Nat) (parts : List String) : Prop where
  nonempty : parts ≠ []
  bounded : ∀ n, count = some n → parts.length ≤ n + 1
  joined : ∀ i, Joins i parts sep → Gives "join" i (.string text)

theorem parts_ofParts {parts : List (List Char)} (hne : parts ≠ [])
    (hlength : ∀ n, count = some n → parts.length ≤ n + 1)
    (hjoined : sep.toList.intercalate parts = text.toList) :
    Parts text sep count (ofParts parts) where
  nonempty hnil := hne (List.map_eq_nil_iff.mp hnil)
  bounded n hn := length_ofParts parts ▸ hlength n hn
  joined i h := by
    have hjoin := gives_join h
    rwa [intercalate_ofParts, hjoined, String.ofList_toList] at hjoin

theorem parts_leftParts (hsep : sep ≠ "") :
    Parts text sep count (ofParts (leftParts (some sep) count text.toList)) :=
  parts_ofParts (Text.splitOn_ne_nil _ _ _) (fun _ hn => Text.length_splitOn_le hn)
    (Text.intercalate_splitOn (toList_ne_nil hsep))

theorem parts_rightParts (hsep : sep ≠ "") :
    Parts text sep count (ofParts (rightParts (some sep) count text.toList)) := by
  have hchars := toList_ne_nil hsep
  have hlength : (rightParts (some sep) count text.toList).length =
      (Text.splitOn sep.toList.reverse count text.toList.reverse).length :=
    Text.length_rsplitOn hchars
  refine parts_ofParts (fun hnil => ?_) (fun n hn => ?_) (Text.intercalate_rsplitOn hchars)
  · rw [hnil] at hlength
    exact Text.splitOn_ne_nil _ _ _ (List.eq_nil_of_length_eq_zero hlength.symm)
  · rw [hlength]
    exact Text.length_splitOn_le hn

/-- **Splitting** a text, from the left and from the right. At a separator each gives parts that,
joined with the separator, are the text again, and no more parts than asked for; at blanks without
a bound both give the runs of characters that are no blanks. In either way what comes from the
right is what comes from the left when text and separator are read backwards, with the parts
backwards and in reverse order. -/
theorem split_and_rsplit (text : String) (separator : Option String) (count : Option Nat)
    (hsep : separator ≠ some "") :
    ∃ left right back : List String,
      (∀ i, Splits i text separator count →
        Gives "split" i (texts left) ∧ Gives "rsplit" i (texts right)) ∧
      (∀ i, Splits i (reversed text) (separator.map reversed) count →
        Gives "split" i (texts back)) ∧
      right = (back.map reversed).reverse ∧
      (∀ sep, separator = some sep → Parts text sep count left ∧ Parts text sep count right) ∧
      (separator = none → count = none →
        Text.Runs text.toList (left.map String.toList) ∧ right = left) := by
  refine ⟨ofParts (leftParts separator count text.toList),
    ofParts (rightParts separator count text.toList),
    ofParts (leftParts (separator.map reversed) count text.toList.reverse),
    fun i h => ⟨gives_split hsep h, gives_rsplit hsep h⟩, fun i h => ?_, ?_, ?_, ?_⟩
  · rw [← toList_reversed]
    exact gives_split (reversed_ne_empty hsep) h
  · rw [rightParts_eq hsep, ofParts_mirrored]
  · rintro sep rfl
    have hne : sep ≠ "" := fun heq => hsep (congrArg some heq)
    exact ⟨parts_leftParts hne, parts_rightParts hne⟩
  · rintro rfl rfl
    rw [toList_ofParts]
    exact ⟨Text.runs_splitWords text.toList, congrArg ofParts (Text.rsplitWords_none text.toList)⟩

/-- A separator that occurs three times, twice in places that overlap, and one split. -/
theorem split_and_rsplit_overlapping :
    let i : Invocation :=
      ⟨some (.string "a---b--c"), ⟨[("on", .string "--"), ("count", .int 1)]⟩, 0⟩
    let left := ["a", "-b--c"]
    let right := ["a---b", "c"]
    Gives "split" i (texts left) ∧ Gives "rsplit" i (texts right) ∧
      Parts "a---b--c" "--" (some 1) left ∧ Parts "a---b--c" "--" (some 1) right := by
  intro i left right
  obtain ⟨left', right', -, hgives, -, -, hparts, -⟩ :=
    split_and_rsplit "a---b--c" (some "--") (some 1) (by decide)
  have hsep : some "--" ≠ some "" := by decide
  have hasks : Splits i "a---b--c" (some "--") (some 1) := ⟨rfl, .given rfl, .whole rfl (by decide)⟩
  obtain ⟨hleft, hright⟩ := hgives i hasks
  have hcutLeft : ofParts (leftParts (some "--") (some 1) "a---b--c".toList) = left := by cbv
  have hcutRight : ofParts (rightParts (some "--") (some 1) "a---b--c".toList) = right := by cbv
  obtain rfl : left' = left := hleft.parts_unique (hcutLeft ▸ gives_split hsep hasks)
  obtain rfl : right' = right := hright.parts_unique (hcutRight ▸ gives_rsplit hsep hasks)
  obtain ⟨hpartsLeft, hpartsRight⟩ := hparts "--" rfl
  exact ⟨hleft, hright, hpartsLeft, hpartsRight⟩

/-! ## Replacing -/

theorem replace_eq_intercalate (hfind : find ≠ "") (replacement : String) :
    Text.replace find replacement count text =
      replacement.intercalate (ofParts (leftParts (some find) count text.toList)) := by
  rw [Text.replace, Text.replaceFrom_eq_intercalate (toList_ne_nil hfind), intercalate_ofParts]
  rfl

/-- **Replacing** a text is splitting at it, with as many splits as there may be replacements, and
joining the parts with the replacement. -/
theorem replace_by_splitting (text find : String) (replacement : Option String)
    (count : Option Nat) (hfind : find ≠ "") :
    ∃ (parts : List String) (result : String),
      (∀ i, Splits i text (some find) count → Gives "split" i (texts parts)) ∧
      (∀ i, Joins i parts (replacement.getD "") → Gives "join" i (.string result)) ∧
      (∀ i, Replaces i text find replacement count → Gives "replace" i (.string result)) := by
  have hsep : some find ≠ some "" := fun heq => hfind (Option.some.inj heq)
  refine ⟨ofParts (leftParts (some find) count text.toList),
    Text.replace find (replacement.getD "") count text, fun i h => gives_split hsep h,
    fun i h => ?_, fun i h => gives_replace h⟩
  rw [replace_eq_intercalate hfind]
  exact gives_join h

/-- A replacement that holds what is replaced, bounded. -/
theorem replace_by_splitting_bounded :
    let split : Invocation :=
      ⟨some (.string "aaa"), ⟨[("on", .string "a"), ("count", .int 2)]⟩, 0⟩
    let replace : Invocation :=
      ⟨some (.string "aaa"),
        ⟨[("find", .string "a"), ("replace", .string "aa"), ("count", .int 2)]⟩, 0⟩
    ∃ (parts : List String) (result : String),
      Gives "split" split (texts parts) ∧
      Gives "join" ⟨some (texts parts), ⟨[("joiner", .string "aa")]⟩, 0⟩ (.string result) ∧
      Gives "replace" replace (.string result) := by
  intro split replace
  obtain ⟨parts, result, hsplit, hjoin, hreplace⟩ :=
    replace_by_splitting "aaa" "a" (some "aa") (some 2) (by decide)
  have hcount : AsksCount (some (.int 2)) (some 2) := .whole rfl (by decide)
  exact ⟨parts, result, hsplit split ⟨rfl, .given rfl, hcount⟩, hjoin _ ⟨rfl, rfl⟩,
    hreplace replace ⟨rfl, rfl, .given rfl, hcount, .omitted (.inl rfl)⟩⟩

end TabPilot.Formatting
