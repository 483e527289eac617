import TabPilot.Proofs.Path.References

set_option autoImplicit false

/-! # Spelled paths

`Path.display` writes every name as it is, so a path need not be read back from it. Here a name that
would be read as something else stands in brackets and quotes. The main statement is
`Path.spelling_is_read_back`: a path is read back from its spelling, also behind a `$`.
-/

namespace TabPilot

namespace Segment

/-- Whether a name is spelled as it is: it is not empty, neither of the characters that end a name
is in it, and it does not lead the path with the sign that is ignored there. -/
structure IsPlain (leading : Bool) (name : String) : Prop where
  nonempty : name.toList ≠ []
  dot : '.' ∉ name.toList
  bracket : '[' ∉ name.toList
  sign : leading = true → name.toList.head? ≠ some '$'

instance (leading : Bool) (name : String) : Decidable (IsPlain leading name) :=
  decidable_of_iff (name.toList ≠ [] ∧ '.' ∉ name.toList ∧ '[' ∉ name.toList ∧
      (leading = true → name.toList.head? ≠ some '$'))
    ⟨fun ⟨nonempty, dot, bracket, sign⟩ => ⟨nonempty, dot, bracket, sign⟩,
      fun ⟨nonempty, dot, bracket, sign⟩ => ⟨nonempty, dot, bracket, sign⟩⟩

theorem IsPlain.goesOn {leading : Bool} {name : String} (h : IsPlain leading name) :
    ∀ c ∈ name.toList, c ≠ '.' ∧ c ≠ '[' := by
  intro c hc
  constructor
  · rintro rfl
    exact h.dot hc
  · rintro rfl
    exact h.bracket hc

/-- The spelling of a segment, which leads the path or follows another one. -/
def spelling (leading : Bool) : Segment → String
  | .index i => "[" ++ toString i ++ "]"
  | .key name =>
      if IsPlain leading name then (if leading then name else "." ++ name)
      else "['" ++ name ++ "']"

/-- Whether a segment can be spelled: an index is a signed integer of 64 bits, and a name in quotes
does not hold the closing bracket. -/
def IsSpellable (leading : Bool) : Segment → Prop
  | .index i => -Word.signedLimit ≤ i ∧ i < Word.signedLimit
  | .key name => IsPlain leading name ∨ ']' ∉ name.toList

instance (leading : Bool) : (s : Segment) → Decidable (s.IsSpellable leading)
  | .index i => inferInstanceAs (Decidable (-Word.signedLimit ≤ i ∧ i < Word.signedLimit))
  | .key name => inferInstanceAs (Decidable (IsPlain leading name ∨ ']' ∉ name.toList))

end Segment

namespace Path

def spelling : Path → String
  | [] => ""
  | s :: rest => s.spelling true ++ String.join (rest.map (Segment.spelling false))

def IsSpellable : Path → Prop
  | [] => True
  | s :: rest => s.IsSpellable true ∧ ∀ t ∈ rest, t.IsSpellable false

instance : (p : Path) → Decidable p.IsSpellable
  | [] => isTrue trivial
  | s :: rest =>
      inferInstanceAs (Decidable (s.IsSpellable true ∧ ∀ t ∈ rest, t.IsSpellable false))

end Path

/-- An integer is written as its digits, behind a sign if it is negative. -/
theorem exists_signedDigits (i : Int) : ∃ negative n,
    signedNumber negative n = i ∧ (toString i).toList = signedDigits negative n := by
  cases i with
  | ofNat n => exact ⟨false, n, rfl, Nat.toList_repr⟩
  | negSucc n =>
      refine ⟨true, n + 1, rfl, ?_⟩
      show ("-" ++ (n + 1).repr).toList = '-' :: Nat.toDigits 10 (n + 1)
      rw [String.toList_append, Nat.toList_repr]
      rfl

namespace Path

variable {s : Segment} {p rest : Path} {leading : Bool} {cs : List Char}

/-! ## Reading a spelling -/

/-- A segment in front of what is read as the rest of the path, behind a name unless it leads. -/
theorem readName_segment (h : s.IsSpellable leading)
    (hrest : ∀ name, readName name cs = named name ++ rest) {name : List Char}
    (hname : leading = true → name = []) :
    readName name ((s.spelling leading).toList ++ cs) = named name ++ s :: rest := by
  cases s with
  | index i =>
      obtain ⟨negative, n, rfl, hdigits⟩ := exists_signedDigits i
      have hchars : ((Segment.index (signedNumber negative n)).spelling leading).toList ++ cs =
          '[' :: (signedDigits negative n ++ ']' :: cs) := by
        rw [Segment.spelling, String.toList_append, String.toList_append, hdigits]
        simp
      rw [hchars, readName_index name h, hrest []]
      rfl
  | key key =>
      -- A key that is not plain is quoted, and then it is read back whatever is in it.
      by_cases hplain : Segment.IsPlain leading key
      · have hspelling : (Segment.key key).spelling leading =
            if leading then key else "." ++ key := if_pos hplain
        have hkey : readName key.toList cs = .key key :: rest := by
          rw [hrest, named_toList hplain.nonempty]
          rfl
        cases leading with
        | true =>
            rw [hname rfl, hspelling, if_pos rfl, readName_append hplain.goesOn, List.nil_append,
              hkey]
            rfl
        | false =>
            have hchars : ("." ++ key).toList ++ cs = '.' :: (key.toList ++ cs) := by simp
            rw [hspelling, if_neg Bool.false_ne_true, hchars, readName_dot name hplain.goesOn,
              hkey]
      · have hchars : ((Segment.key key).spelling leading).toList ++ cs =
            '[' :: '\'' :: (key.toList ++ '\'' :: ']' :: cs) := by
          simp [Segment.spelling, hplain]
        rw [hchars, readName_quoted name (h.resolve_left hplain), hrest []]
        rfl

/-- Segments that follow a name. -/
theorem readName_segments (h : ∀ s ∈ rest, s.IsSpellable false) (name : List Char) :
    readName name (String.join (rest.map (Segment.spelling false))).toList =
      named name ++ rest := by
  induction rest generalizing name with
  | nil => exact (List.append_nil _).symm
  | cons s rest ih =>
      obtain ⟨hs, hrest⟩ := List.forall_mem_cons.mp h
      have hjoin : (String.join ((s :: rest).map (Segment.spelling false))).toList =
          (s.spelling false).toList ++
            (String.join (rest.map (Segment.spelling false))).toList := by
        simp
      rw [hjoin]
      exact readName_segment hs (ih hrest) nofun

theorem readName_spelling (h : p.IsSpellable) : readName [] p.spelling.toList = p := by
  cases p with
  | nil => rfl
  | cons s rest =>
      obtain ⟨hs, hrest⟩ := h
      rw [spelling, String.toList_append]
      exact readName_segment hs (readName_segments hrest) fun _ => rfl

/-- No spelling begins with the sign that is ignored. -/
theorem head?_spelling (p : Path) : p.spelling.toList.head? ≠ some '$' := by
  cases p with
  | nil => simp [spelling]
  | cons s rest =>
      rw [spelling, String.toList_append]
      cases s with
      | index i => simp [Segment.spelling]
      | key key =>
          by_cases hplain : Segment.IsPlain true key
          · obtain ⟨c, key', hkey⟩ := List.exists_cons_of_ne_nil hplain.nonempty
            have hsign := hplain.sign rfl
            rw [hkey] at hsign
            simpa [Segment.spelling, hplain, hkey] using hsign
          · simp [Segment.spelling, hplain]

/-- **A path is read back** from its spelling, also when a `$` is put in front. -/
theorem spelling_is_read_back (h : p.IsSpellable) :
    parse p.spelling = p ∧ parse ("$" ++ p.spelling) = p := by
  constructor
  · rw [parse, ofChars_eq_readName (head?_spelling p), readName_spelling h]
  · have hsign : ("$" ++ p.spelling).toList = '$' :: p.spelling.toList := by simp
    rw [parse, hsign]
    exact readName_spelling h

/-- Names that are empty, numbers, quoted, or hold what ends a name. -/
theorem spelling_is_read_back_odd :
    let p : Path := [.key "a]", .key "1", .key "", .index (-9223372036854775808), .key "it's",
      .key "'q'", .key " b.c", .key "$"]
    let q : Path := [.key "$x", .index 0, .key "y"]
    p.IsSpellable ∧ p.spelling = "a].1[''][-9223372036854775808].it's.'q'[' b.c'].$" ∧
      parse p.spelling = p ∧ parse ("$" ++ p.spelling) = p ∧
      q.IsSpellable ∧ q.spelling = "['$x'][0].y" ∧ parse q.spelling = q := by
  intro p q
  have hp : p.IsSpellable := by decide
  have hq : q.IsSpellable := by decide
  obtain ⟨hread, hbehind⟩ := spelling_is_read_back hp
  exact ⟨hp, by decide +kernel, hread, hbehind, hq, by decide +kernel, (spelling_is_read_back hq).1⟩

end Path

end TabPilot
