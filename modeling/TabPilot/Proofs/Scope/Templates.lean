import TabPilot.Proofs.Outcome
import TabPilot.Scope.Store
import TabPilot.Scope.Template

set_option autoImplicit false

/-! # Texts without placeholders

A template stands for itself, whatever the variables are, just if nothing in it is read as a
placeholder or as a doubled brace. `Inert` says so of its characters.
-/

namespace TabPilot.Template

/-- Nothing is filled in: there is no opening brace, and no closing brace is doubled. -/
def Inert (cs : List Char) : Prop := '\x7b' ∉ cs ∧ ¬ ['\x7d', '\x7d'] <:+: cs

def readNothing (_ : Path) : Option Value := none

variable {read : Path → Option Value} {cs out : List Char}

theorem inert_nil : Inert [] := ⟨List.not_mem_nil, by simp⟩

theorem inert_cons_iff {c : Char} {rest : List Char} :
    Inert (c :: rest) ↔
      c ≠ '\x7b' ∧ ¬ (c = '\x7d' ∧ rest.head? = some '\x7d') ∧ Inert rest := by
  have hprefix : ['\x7d', '\x7d'] <+: c :: rest ↔ c = '\x7d' ∧ rest.head? = some '\x7d' := by
    rw [List.cons_prefix_cons, List.head?_eq_some_iff]
    refine and_congr eq_comm ⟨fun ⟨more, hmore⟩ => ⟨more, hmore.symm⟩, ?_⟩
    exact fun ⟨more, hmore⟩ => ⟨more, hmore.symm⟩
  unfold Inert
  rw [List.mem_cons, List.infix_cons_iff, hprefix, not_or, not_or]
  constructor
  · rintro ⟨⟨hc, hrest⟩, hdouble, hinfix⟩
    exact ⟨Ne.symm hc, hdouble, hrest, hinfix⟩
  · rintro ⟨hc, hdouble, hrest, hinfix⟩
    exact ⟨⟨Ne.symm hc, hrest⟩, hdouble, hinfix⟩

/-- A character that opens nothing and is not doubled stays, and the rest is filled in. -/
theorem fillText_cons {c : Char} {rest : List Char} (hopen : c ≠ '\x7b')
    (hdouble : ¬ (c = '\x7d' ∧ rest.head? = some '\x7d')) :
    fillText read (c :: rest) = (fillText read rest).map (c :: ·) := by
  rw [fillText.eq_def]
  split
  · next heq => cases heq
  · next heq => cases heq; exact absurd rfl hopen
  · next heq => cases heq; exact absurd ⟨rfl, rfl⟩ hdouble
  · next heq => cases heq; exact absurd rfl hopen
  · next heq => cases heq; rfl

theorem fillText_of_inert (h : Inert cs) : fillText read cs = .ok cs := by
  induction cs with
  | nil => rfl
  | cons c rest ih =>
      obtain ⟨hopen, hdouble, hrest⟩ := inert_cons_iff.mp h
      rw [fillText_cons hopen hdouble, ih hrest]
      rfl

/-! ## Where nothing is found -/

theorem fillPlace_readNothing (inner cs : List Char) :
    fillPlace readNothing inner cs ≠ .ok out := by
  induction cs generalizing inner with
  | nil => rw [fillPlace]; exact nofun
  | cons c rest ih =>
      rw [fillPlace]
      split
      · exact nofun
      · exact ih _

/-- Where no variable is found, a template gets shorter unless it holds nothing to fill in. -/
theorem shorter_or_inert (h : fillText readNothing cs = .ok out) :
    out.length < cs.length ∨ Inert cs := by
  induction hlength : cs.length using Nat.strongRecOn generalizing cs out with
  | ind n ih =>
      subst hlength
      -- A text is not longer than the template that it is made from.
      have hle {cs' out' : List Char} (hshort : cs'.length < cs.length)
          (h' : fillText readNothing cs' = .ok out') : out'.length ≤ cs'.length := by
        rcases ih _ hshort h' rfl with hlt | hinert
        · exact Nat.le_of_lt hlt
        · rw [fillText_of_inert hinert] at h'
          cases h'
          exact Nat.le_refl _
      rw [fillText.eq_def] at h
      split at h
      · exact .inr inert_nil
      · next rest =>
          obtain ⟨text, htext, rfl⟩ := exists_of_map_eq_ok h
          have hrest := hle (by simp only [List.length_cons]; omega) htext
          refine .inl ?_
          simp only [List.length_cons]
          omega
      · next rest =>
          obtain ⟨text, htext, rfl⟩ := exists_of_map_eq_ok h
          have hrest := hle (by simp only [List.length_cons]; omega) htext
          refine .inl ?_
          simp only [List.length_cons]
          omega
      · exact absurd h (fillPlace_readNothing _ _)
      · next c rest _ hdouble hopen =>
          obtain ⟨text, htext, rfl⟩ := exists_of_map_eq_ok h
          rcases ih _ (Nat.lt_succ_self _) htext rfl with hlt | hinert
          · exact .inl (Nat.succ_lt_succ hlt)
          · refine .inr (inert_cons_iff.mpr ⟨fun hc => hopen hc, ?_, hinert⟩)
            rintro ⟨rfl, hhead⟩
            obtain ⟨more, rfl⟩ := List.head?_eq_some_iff.mp hhead
            exact hdouble more rfl rfl

theorem fill_of_inert {t : String} (h : Inert t.toList) : fill read t = .ok t := by
  rw [fill, fillText_of_inert h]
  exact congrArg Except.ok String.ofList_toList

/-- A template that stands for itself where no variable is found holds nothing to fill in. -/
theorem inert_of_fill {t : String} (h : fill readNothing t = .ok t) : Inert t.toList := by
  obtain ⟨text, htext, heq⟩ := exists_of_map_eq_ok h
  have hlength : text.length = t.toList.length := by rw [← heq, String.toList_ofList]
  exact (shorter_or_inert htext).resolve_left (by omega)

end TabPilot.Template

namespace TabPilot.Store

theorem get_empty (s : ScopeId) : empty.get s = Template.readNothing := by
  funext p
  cases p with
  | nil => rfl
  | cons first rest => rfl

/-- **Templates that stand for themselves.** A text is filled in as itself in every scope just if it
holds neither an opening brace nor a doubled closing one. -/
theorem fill_eq_self_iff (t : String) :
    (∀ (st : Store) s, Template.fill (st.get s) t = .ok t) ↔ Template.Inert t.toList := by
  refine ⟨fun h => Template.inert_of_fill ?_, fun h _ _ => Template.fill_of_inert h⟩
  rw [← get_empty 0]
  exact h empty 0

end TabPilot.Store
