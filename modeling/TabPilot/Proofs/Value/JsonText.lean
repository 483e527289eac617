import TabPilot.Value.Json

set_option autoImplicit false

/-! # The characters of compact JSON

Compact JSON is one line of visible text: inside a string every control character is escaped,
and everything outside strings is punctuation, letters and digits. So no byte of it is zero,
which is what lets a zero byte end a message on a pipe.
-/

namespace TabPilot.Value

/-- A text without control characters. -/
def Visible (cs : List Char) : Prop := ∀ c ∈ cs, 32 ≤ c.toNat

instance (cs : List Char) : Decidable (Visible cs) :=
  decidable_of_iff (cs.all fun c => 32 ≤ c.toNat) (by simp [Visible])

theorem visible_nil : Visible [] := by
  intro c hc
  cases hc

theorem visible_cons {c : Char} {cs : List Char} :
    Visible (c :: cs) ↔ 32 ≤ c.toNat ∧ Visible cs :=
  List.forall_mem_cons

theorem visible_append {cs ds : List Char} : Visible (cs ++ ds) ↔ Visible cs ∧ Visible ds :=
  List.forall_mem_append

theorem Visible.sublist {cs ds : List Char} (h : Visible ds) (sub : cs.Sublist ds) :
    Visible cs :=
  fun c hc => h c (sub.subset hc)

/-! ## Numbers -/

theorem le_toNat_of_isDigit {c : Char} (h : c.isDigit = true) : 32 ≤ c.toNat := by
  have hzero : '0'.toNat ≤ c.toNat := (Char.isDigit_iff_toNat.mp h).1
  exact Nat.le_trans (by decide) hzero

theorem visible_toDigits (n : Nat) : Visible (Nat.toDigits 10 n) :=
  fun _ hc => le_toNat_of_isDigit (Nat.isDigit_of_mem_toDigits (by decide) (by decide) hc)

theorem visible_replicate_zero (n : Nat) : Visible (List.replicate n '0') := by
  intro c hc
  obtain ⟨-, rfl⟩ := List.mem_replicate.mp hc
  decide

theorem visible_int (i : Int) : Visible (toString i).toList := by
  rw [Int.toString_eq_repr, Int.repr_eq_if]
  split
  · rw [Nat.toList_repr]
    exact visible_toDigits _
  · rw [String.toList_append, Nat.toList_repr, visible_append]
    exact ⟨by decide, visible_toDigits _⟩

theorem visible_positionalText (wholePoint : Bool) {digits : List Char} (exponent : Int)
    (h : Visible digits) : Visible (Decimal.positionalText wholePoint digits exponent) := by
  unfold Decimal.positionalText
  dsimp only
  split
  · refine visible_append.mpr ⟨visible_append.mpr ⟨h, visible_replicate_zero _⟩, ?_⟩
    cases wholePoint <;> decide
  · split
    · refine visible_append.mpr ⟨h.sublist (List.take_sublist _ _), ?_⟩
      exact visible_cons.mpr ⟨by decide, h.sublist (List.drop_sublist _ _)⟩
    · exact visible_append.mpr ⟨visible_append.mpr ⟨by decide, visible_replicate_zero _⟩, h⟩

theorem visible_scientificText {digits : List Char} (leading : Int) (h : Visible digits) :
    Visible (Decimal.scientificText digits leading) := by
  unfold Decimal.scientificText
  have hfraction : Visible (if digits.length ≤ 1 then [] else '.' :: digits.drop 1) := by
    split
    · exact visible_nil
    · exact visible_cons.mpr ⟨by decide, h.sublist (List.drop_sublist _ _)⟩
  have hmark : Visible (if leading < 0 then ['e', '-'] else ['e', '+']) := by
    split <;> decide
  exact visible_append.mpr ⟨visible_append.mpr ⟨visible_append.mpr
    ⟨h.sublist (List.take_sublist _ _), hfraction⟩, hmark⟩, visible_toDigits _⟩

theorem visible_magnitudeText (layout : Decimal.Layout) (p : Binary64.Parts) :
    Visible (layout.magnitudeText p) := by
  unfold Decimal.Layout.magnitudeText
  dsimp only
  split
  · split <;> decide
  · split
    · exact visible_positionalText _ _ (visible_toDigits _)
    · exact visible_scientificText _ (visible_toDigits _)

theorem visible_float (layout : Decimal.Layout) (f : Float) :
    Visible (layout.text f).toList := by
  unfold Decimal.Layout.text
  split
  · rw [String.toList_ofList]
    refine visible_append.mpr ⟨?_, visible_magnitudeText layout _⟩
    split <;> decide
  · split
    · decide
    · split <;> decide

/-! ## Strings -/

theorem le_toNat_hexDigit {n : Nat} (h : n < 16) : 32 ≤ (hexDigit n).toNat := by
  have hdigits : ∀ d : Fin 16, 32 ≤ (Nat.digitChar d).toNat := by decide
  rw [hexDigit, Nat.toDigits_of_lt_base h]
  exact hdigits ⟨n, h⟩

theorem visible_escapeChar (c : Char) : Visible (escapeChar c) := by
  unfold escapeChar
  -- The short escapes are fixed texts; what is left is a `\\u` escape or the character itself.
  iterate 7
    split
    · decide
  split
  · have hhigh := le_toNat_hexDigit (n := c.toNat / 16) (by omega)
    have hlow := le_toNat_hexDigit (n := c.toNat % 16) (by omega)
    have hfour : Visible ['\\', 'u', '0', '0'] := by decide
    exact visible_append.mpr
      ⟨hfour, visible_cons.mpr ⟨hhigh, visible_cons.mpr ⟨hlow, visible_nil⟩⟩⟩
  · exact visible_cons.mpr ⟨by omega, visible_nil⟩

theorem visible_quoted (s : String) : Visible (quoted s) := by
  refine visible_cons.mpr ⟨by decide, visible_append.mpr ⟨?_, by decide⟩⟩
  intro c hc
  obtain ⟨d, -, hd⟩ := List.mem_flatMap.mp hc
  exact visible_escapeChar d c hd

/-! ## Values -/

theorem visible_joinWith {separator : List Char} (h : Visible separator) :
    {texts : List (List Char)} → (∀ text ∈ texts, Visible text) →
      Visible (joinWith separator texts)
  | [], _ => visible_nil
  | [text], all => all text (by simp)
  | text :: next :: rest, all => by
      have hrest := visible_joinWith h fun t ht => all t (List.mem_cons_of_mem text ht)
      exact visible_append.mpr ⟨visible_append.mpr ⟨all text (by simp), h⟩, hrest⟩

theorem visible_scalarText (v : Value) : Visible (scalarText v) := by
  cases v with
  | bool b => cases b <;> decide
  | int i => exact visible_int i
  | float f => exact visible_float _ f
  | string s => exact visible_quoted s
  | null => decide
  | array items => exact visible_nil
  | object members => exact visible_nil

mutual

theorem visible_compactText : (v : Value) → Visible (compactText v)
  | .array items => by
      rw [compactText, visible_cons, visible_append]
      exact ⟨by decide, visible_joinWith (by decide) (visible_compactItems items), by decide⟩
  | .object ⟨entries⟩ => by
      rw [compactText, visible_cons, visible_append]
      exact ⟨by decide, visible_joinWith (by decide) (visible_compactEntries entries), by decide⟩
  | .null | .bool _ | .int _ | .float _ | .string _ => by
      rw [compactText]
      · exact visible_scalarText _
      all_goals simp

theorem visible_compactItems : (items : List Value) → ∀ text ∈ compactItems items, Visible text
  | [] => by simp [compactItems]
  | v :: rest => by
      rw [compactItems]
      exact List.forall_mem_cons.mpr ⟨visible_compactText v, visible_compactItems rest⟩

theorem visible_compactEntries :
    (entries : List (String × Value)) → ∀ text ∈ compactEntries entries, Visible text
  | [] => by simp [compactEntries]
  | (name, v) :: rest => by
      rw [compactEntries]
      refine List.forall_mem_cons.mpr ⟨?_, visible_compactEntries rest⟩
      rw [visible_append, visible_cons]
      exact ⟨visible_quoted name, by decide, visible_compactText v⟩

end

/-- **Compact JSON is visible text**: it holds no control character, whatever the value. -/
theorem visible_json (v : Value) : Visible v.json.toList := by
  rw [json, String.toList_ofList]
  exact visible_compactText v

end TabPilot.Value
