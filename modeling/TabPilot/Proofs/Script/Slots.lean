import TabPilot.Proofs.Script.Consumed
import TabPilot.Proofs.Script.Headers

set_option autoImplicit false

/-! # Where the texts of a script go

A quoted text is a token, and the grammar takes it as an operand or as a name: of a member, of a
place for a result, of the events of a handler. These are the slots of a tree. `Fills` says that the
texts among some tokens fill slots in order, each with what it says and an operand also with how it
is quoted; `KeepsTexts` is what each function of the grammar does to this end.
-/

namespace TabPilot

/-- A part of a tree that a text is written for. -/
inductive TextSlot
  | operand (content : String) (interpolated : Bool)
  | name (content : String)

/-! ## The slots of expressions -/

mutual

def Expr.slots : Expr → List TextSlot
  | .literal _ => []
  | .text content interpolated => [.operand content interpolated]
  | .array items => itemSlots items
  | .object entries => entrySlots entries
  | .variable _ accessors => accessorSlots accessors
  | .pattern _ => []
  | .negate operand => operand.slots
  | .binary _ lhs rhs => lhs.slots ++ rhs.slots

def itemSlots : List Expr → List TextSlot
  | [] => []
  | e :: rest => e.slots ++ itemSlots rest

def entrySlots : List (String × Expr) → List TextSlot
  | [] => []
  | (name, e) :: rest => .name name :: (e.slots ++ entrySlots rest)

def accessorSlots : List Accessor → List TextSlot
  | [] => []
  | .field _ :: rest => accessorSlots rest
  | .index e :: rest => e.slots ++ accessorSlots rest

end

def Variable.slots (v : Variable) : List TextSlot := accessorSlots v.accessors

/-! ## The slots of assignments and commands -/

def Target.slots : Target → List TextSlot
  | .skip => []
  | .variable v => v.slots

def Assignment.slots (a : Assignment) : List TextSlot :=
  a.targets.flatMap Target.slots ++ a.sources.flatMap Expr.slots

def Destination.slots : Destination → List TextSlot
  | .default | .discard => []
  | .variable v => v.slots
  | .key name => [.name name]

def argumentSlots (id : Option Expr) : List TextSlot := id.elim [] Expr.slots

def optionSlots (options : Option (List (String × Expr))) : List TextSlot :=
  options.elim [] entrySlots

def Command.slots (c : Command) : List TextSlot :=
  argumentSlots c.id ++ (optionSlots c.options ++ c.destination.slots)

/-! ## The slots of conditions and loop headers -/

def comparisonSlots : Option (Comparator × Expr) → List TextSlot
  | none => []
  | some (_, rhs) => rhs.slots

def Condition.slots : Condition → List TextSlot
  | .assigning _ _ first rest => first.slots ++ rest.slots
  | .commanding _ _ first rest => first.slots ++ rest.slots
  | .command _ _ c => c.slots
  | .comparison _ _ lhs rhs => lhs.slots ++ comparisonSlots rhs

def Clause.slots : Clause → List TextSlot
  | .assignment a => a.slots
  | .command c _ => c.slots

def LoopSource.slots : LoopSource → List TextSlot
  | .variable v => v.slots
  | .command c => c.slots

def LoopMode.slots : LoopMode → List TextSlot
  | .infinite => []
  | .count times => times.slots
  | .items targets source => targets.flatMap Target.slots ++ source.slots
  | .whilst test => test.slots
  | .bounded init test next => init.slots ++ (test.slots ++ next.slots)

/-! ## The slots of statements -/

mutual

def Statement.slots : Statement → List TextSlot
  | .assign a => a.slots
  | .unset taken _ => taken.flatMap Variable.slots
  | .expression e _ => e.slots
  | .choice first others otherwise _ =>
      first.slots ++ (branchSlots others ++ otherwiseSlots otherwise)
  | .loop mode body _ => mode.slots ++ statementSlots body
  | .commands cs _ => cs.flatMap Command.slots
  | .jump _ _ _ => []

def Branch.slots : Branch → List TextSlot
  | .mk test body => test.slots ++ statementSlots body

def branchSlots : List Branch → List TextSlot
  | [] => []
  | b :: rest => b.slots ++ branchSlots rest

def otherwiseSlots : Option (List Statement) → List TextSlot
  | none => []
  | some body => statementSlots body

def statementSlots : List Statement → List TextSlot
  | [] => []
  | s :: rest => s.slots ++ statementSlots rest

end

def Handler.slots (h : Handler) : List TextSlot := .name h.pattern :: statementSlots h.body

def blockSlots : Statement ⊕ Handler → List TextSlot
  | .inl s => s.slots
  | .inr h => h.slots

namespace Grammar

/-! ## Texts fill slots -/

/-- The texts among tokens fill slots, in order and each as it stands. A word may be a name, too;
no other token fills anything. -/
inductive Fills : List Token → List TextSlot → Prop
  | nil : Fills [] []
  | operand {t : Token} {ts : List Token} {ss : List TextSlot} {content : String}
      {interpolated : Bool} (text : t.kind = .text content interpolated) (rest : Fills ts ss) :
      Fills (t :: ts) (.operand content interpolated :: ss)
  | name {t : Token} {ts : List Token} {ss : List TextSlot} {content : String}
      {interpolated : Bool} (text : t.kind = .text content interpolated) (rest : Fills ts ss) :
      Fills (t :: ts) (.name content :: ss)
  | word {t : Token} {ts : List Token} {ss : List TextSlot} {w : String} (word : t.kind = .word w)
      (rest : Fills ts ss) : Fills (t :: ts) (.name w :: ss)
  | other {t : Token} {ts : List Token} {ss : List TextSlot}
      (noText : ∀ content interpolated, t.kind ≠ .text content interpolated)
      (rest : Fills ts ss) : Fills (t :: ts) ss

variable {ts ts' rest : List Token} {ss ss' : List TextSlot}

theorem Fills.append (h : Fills ts ss) (h' : Fills ts' ss') : Fills (ts ++ ts') (ss ++ ss') := by
  induction h with
  | nil => exact h'
  | operand text _ ih => exact .operand text ih
  | name text _ ih => exact .name text ih
  | word word _ ih => exact .word word ih
  | other noText _ ih => exact .other noText ih

theorem Fills.exists_of_append (h : Fills (ts ++ ts') ss) :
    ∃ front back, ss = front ++ back ∧ Fills ts front ∧ Fills ts' back := by
  induction ts generalizing ss with
  | nil => exact ⟨[], ss, rfl, .nil, h⟩
  | cons t ts ih =>
      cases h with
      | operand text rest =>
          obtain ⟨front, back, rfl, hfront, hback⟩ := ih rest
          exact ⟨_ :: front, back, rfl, .operand text hfront, hback⟩
      | name text rest =>
          obtain ⟨front, back, rfl, hfront, hback⟩ := ih rest
          exact ⟨_ :: front, back, rfl, .name text hfront, hback⟩
      | word word rest =>
          obtain ⟨front, back, rfl, hfront, hback⟩ := ih rest
          exact ⟨_ :: front, back, rfl, .word word hfront, hback⟩
      | other noText rest =>
          obtain ⟨front, back, rfl, hfront, hback⟩ := ih rest
          exact ⟨front, back, rfl, .other noText hfront, hback⟩

/-- Every text fills one of the slots. -/
theorem Fills.exists_slot {t : Token} {content : String} {interpolated : Bool}
    (h : Fills (ts ++ t :: ts') ss) (ht : t.kind = .text content interpolated) :
    ∃ front slot back, ss = front ++ slot :: back ∧ Fills ts front ∧ Fills ts' back ∧
      (slot = .operand content interpolated ∨ slot = .name content) := by
  obtain ⟨front, back, rfl, hfront, hback⟩ := h.exists_of_append
  cases hback with
  | operand text rest =>
      rw [ht] at text
      cases text
      exact ⟨front, _, _, rfl, hfront, rest, .inl rfl⟩
  | name text rest =>
      rw [ht] at text
      cases text
      exact ⟨front, _, _, rfl, hfront, rest, .inr rfl⟩
  | word word _ => rw [ht] at word; cases word
  | other noText _ => exact absurd ht (noText _ _)

/-- Tokens are left such that the texts among those in front of them fill the slots. -/
structure FillsUpTo (ts : List Token) (ss : List TextSlot) (rest : List Token) : Prop where
  input : Input rest
  taken : ∃ us, ts = us ++ rest ∧ Fills us ss

/-- Whatever is read, the texts that are taken for it fill its slots. -/
def KeepsTexts {α : Type} (slots : α → List TextSlot) (read : List Token → Parsed α) : Prop :=
  ∀ ts a rest, Input ts → read ts = .ok (a, rest) → FillsUpTo ts (slots a) rest

namespace FillsUpTo

theorem refl (h : Input ts) : FillsUpTo ts [] ts := ⟨h, [], rfl, .nil⟩

theorem trans (h : FillsUpTo ts ss ts') (h' : FillsUpTo ts' ss' rest) :
    FillsUpTo ts (ss ++ ss') rest := by
  obtain ⟨us, rfl, hus⟩ := h.taken
  obtain ⟨vs, rfl, hvs⟩ := h'.taken
  exact ⟨h'.input, us ++ vs, (List.append_assoc us vs rest).symm, hus.append hvs⟩

/-- What stands behind tokens that fill nothing. -/
theorem after (h : FillsUpTo ts [] ts') (h' : FillsUpTo ts' ss rest) : FillsUpTo ts ss rest :=
  h.trans h'

/-- Tokens that fill nothing may follow. -/
theorem before (h : FillsUpTo ts ss ts') (h' : FillsUpTo ts' [] rest) : FillsUpTo ts ss rest := by
  have hboth := h.trans h'
  rwa [List.append_nil] at hboth

end FillsUpTo

/-! ## Single tokens -/

namespace Input

/-- A token that is not the end of the input is taken off. -/
theorem takes (h : Input ts) {ss : List TextSlot} (hend : kind ts ≠ .endOfInput)
    (hfills : ∀ t, t.kind = kind ts → Fills [t] ss) : FillsUpTo ts ss (advance ts) := by
  cases ts with
  | nil => exact absurd rfl hend
  | cons t ts =>
      have hrest := h.tail_of_kind hend
      cases ts with
      | nil => obtain ⟨last, hlast, -⟩ := hrest; cases hlast
      | cons u us => exact ⟨hrest, [t], rfl, hfills t rfl⟩

theorem takes_operand {content : String} {interpolated : Bool} (h : Input ts)
    (hkind : kind ts = .text content interpolated) :
    FillsUpTo ts [.operand content interpolated] (advance ts) :=
  h.takes (by simp [hkind]) fun _ ht => .operand (ht.trans hkind) .nil

/-- The name of a member: a text or a word. -/
theorem takes_memberName {name : String} (h : Input ts)
    (hname : memberName? (kind ts) = some name) :
    FillsUpTo ts [.name name] (advance ts) := by
  unfold memberName? at hname
  split at hname
  · next w hkind =>
      cases hname
      exact h.takes (by simp [hkind]) fun _ ht => .word (ht.trans hkind) .nil
  · next content interpolated hkind =>
      cases hname
      exact h.takes (by simp [hkind]) fun _ ht => .name (ht.trans hkind) .nil
  · cases hname

/-- A token that is no text fills nothing, also if it is the last one and stays. -/
theorem skips (h : Input ts)
    (hkind : ∀ content interpolated, kind ts ≠ .text content interpolated) :
    FillsUpTo ts [] (advance ts) := by
  by_cases hend : kind ts = .endOfInput
  · cases ts with
    | nil => exact .refl h
    | cons t ts =>
        cases ts with
        | nil => exact .refl h
        | cons u us =>
            exact ⟨h.tail (List.cons_ne_nil _ _), [t], rfl, .other hkind .nil⟩
  · exact h.takes hend fun t ht => .other (by rwa [ht]) .nil

theorem skips_word {w : String} (h : Input ts) (hkind : kind ts = .word w) :
    FillsUpTo ts [] (advance ts) := h.skips (by simp [hkind])

theorem skips_variable {name : String} (h : Input ts) (hkind : kind ts = .variable name) :
    FillsUpTo ts [] (advance ts) := h.skips (by simp [hkind])

theorem skips_at {s : Symbol} (h : Input ts) (hat : at? s ts = true) :
    FillsUpTo ts [] (advance ts) := by
  refine h.skips fun content interpolated hkind => ?_
  rw [at?, hkind] at hat
  cases hat

theorem skips_symbol {s : Symbol} (h : Input ts) (hkind : kind ts = .symbol s) :
    FillsUpTo ts [] (advance ts) := h.skips (by simp [hkind])

theorem skips_atWord {word : String} (h : Input ts) (hat : atWord word ts = true) :
    FillsUpTo ts [] (advance ts) := by
  refine h.skips fun content interpolated hkind => ?_
  rw [atWord, hkind] at hat
  cases hat

theorem skips_expect {s : Symbol} (h : Input ts) (hread : expect s ts = .ok rest) :
    FillsUpTo ts [] rest := by
  rw [expect] at hread
  split at hread
  · next hat =>
      cases hread
      exact h.skips_at hat
  · cases hread

/-- Tokens of some kinds that are no texts are skipped at the front. -/
theorem skips_dropWhile {p : TokenKind → Bool} (hend : p .endOfInput = false)
    (htext : ∀ content interpolated, p (.text content interpolated) = false) (h : Input ts) :
    FillsUpTo ts [] (ts.dropWhile fun t => p t.kind) := by
  induction ts with
  | nil => exact .refl h
  | cons t ts ih =>
      rw [List.dropWhile_cons]
      split
      · next ht =>
          have hrest := h.tail_of_kind fun heq => by rw [heq, hend] at ht; cases ht
          have hfills : Fills [t] [] :=
            .other (fun _ _ heq => by rw [heq, htext] at ht; cases ht) .nil
          exact FillsUpTo.after ⟨hrest, [t], rfl, hfills⟩ (ih hrest)
      · exact .refl h

theorem skips_newlines (h : Input ts) : FillsUpTo ts [] (skipNewlines ts) := by
  have heq : ∀ ts : List Token, skipNewlines ts = ts.dropWhile fun t => t.kind.isNewline := by
    intro ts
    induction ts with
    | nil => rfl
    | cons t ts ih => rw [skipNewlines, List.dropWhile_cons, ih]
  rw [heq]
  exact h.skips_dropWhile rfl fun _ _ => rfl

theorem skips_separators (h : Input ts) : FillsUpTo ts [] (skipSeparators ts) := by
  have heq : ∀ ts : List Token, skipSeparators ts = ts.dropWhile fun t => isSeparator t.kind := by
    intro ts
    induction ts with
    | nil => rfl
    | cons t ts ih => rw [skipSeparators, List.dropWhile_cons, ih]
  rw [heq]
  exact h.skips_dropWhile rfl fun _ _ => rfl

end Input

namespace FillsUpTo

/-- Line ends may follow. -/
theorem lines (h : FillsUpTo ts ss rest) : FillsUpTo ts ss (skipNewlines rest) :=
  h.before h.input.skips_newlines

/-- A closing bracket, on the same line or a later one. -/
theorem closed {s : Symbol} (h : FillsUpTo ts ss ts')
    (hread : expect s (skipNewlines ts') = .ok rest) : FillsUpTo ts ss rest :=
  h.lines.before (h.lines.input.skips_expect hread)

theorem closed_map {α : Type} {s : Symbol} {a b : α} (h : FillsUpTo ts ss ts')
    (hread : (expect s (skipNewlines ts')).map (fun us => (a, us)) = .ok (b, rest)) :
    a = b ∧ FillsUpTo ts ss rest := by
  obtain ⟨us, hclose, heq⟩ := exists_of_map_eq_ok hread
  cases heq
  exact ⟨rfl, h.closed hclose⟩

end FillsUpTo

/-- What is made of something that is read comes of a value whose slots are filled. -/
theorem KeepsTexts.of_map {α β : Type} {slots : α → List TextSlot} {read : List Token → Parsed α}
    {wrap : α × List Token → β × List Token} {b : β} (hread : KeepsTexts slots read)
    (hts : Input ts) (h : (read ts).map wrap = .ok (b, rest)) :
    ∃ a us, wrap (a, us) = (b, rest) ∧ FillsUpTo ts (slots a) us := by
  obtain ⟨⟨a, us⟩, ha, heq⟩ := exists_of_map_eq_ok h
  exact ⟨a, us, heq, hread _ _ _ hts ha⟩

/-! ## Expressions -/

/-- What the functions that read expressions do with texts when they may go as deep as `fuel`. The
operators behind an operand add their slots to those it has. -/
structure KeepsExpressions (fuel : Nat) : Prop where
  expression : ∀ level, KeepsTexts Expr.slots (expression fuel level)
  operators : ∀ level lhs ts e rest, Input ts → operators fuel level lhs ts = .ok (e, rest) →
    ∃ more, e.slots = lhs.slots ++ more ∧ FillsUpTo ts more rest
  operand : KeepsTexts Expr.slots (operand fuel)
  primary : KeepsTexts Expr.slots (primary fuel)
  items : KeepsTexts itemSlots (items fuel)
  entries : KeepsTexts entrySlots (entries fuel)
  accessors : KeepsTexts accessorSlots (accessors fuel)

theorem slots_negated (e : Expr) : (negated e).slots = e.slots := by
  unfold negated
  split <;> rfl

section

variable {fuel : Nat} (ih : KeepsExpressions fuel)
include ih

theorem keepsTexts_expression (level : Nat) :
    KeepsTexts Expr.slots (expression (fuel + 1) level) := by
  intro ts e rest hts h
  rw [expression] at h
  split at h
  · next lhs us hread =>
      have hlhs := ih.operand _ _ _ hts hread
      obtain ⟨more, hmore, hrest⟩ := ih.operators level lhs _ _ _ hlhs.input h
      rw [hmore]
      exact hlhs.trans hrest
  · cases h

theorem keepsTexts_operators (level : Nat) (lhs : Expr) (ts : List Token) (e : Expr)
    (rest : List Token) (hts : Input ts) (h : operators (fuel + 1) level lhs ts = .ok (e, rest)) :
    ∃ more, e.slots = lhs.slots ++ more ∧ FillsUpTo ts more rest := by
  rw [operators] at h
  split at h
  · next op tightness hop =>
      split at h
      · split at h
        · next rhs us hread =>
            have hskip : FillsUpTo ts [] (advance ts) :=
              hts.skips fun content interpolated hkind => by
                rw [hkind] at hop
                cases hop
            have hlines := hskip.after hskip.input.skips_newlines
            have hrhs := hlines.after (ih.expression _ _ _ _ hlines.input hread)
            obtain ⟨more, hmore, hrest⟩ := ih.operators level _ _ _ _ hrhs.input h
            refine ⟨rhs.slots ++ more, ?_, hrhs.trans hrest⟩
            rw [hmore, Expr.slots, List.append_assoc]
        · cases h
      · cases h
        exact ⟨[], (List.append_nil _).symm, .refl hts⟩
  · cases h
    exact ⟨[], (List.append_nil _).symm, .refl hts⟩

theorem keepsTexts_operand : KeepsTexts Expr.slots (operand (fuel + 1)) := by
  intro ts e rest hts h
  rw [operand] at h
  split at h
  · next hminus =>
      have hsign := hts.skips_at hminus
      split at h
      · next e' us hread =>
          cases h
          rw [slots_negated]
          exact hsign.after (ih.operand _ _ _ hsign.input hread)
      · cases h
  · split at h
    · next base us hread =>
        have hbase := ih.primary _ _ _ hts hread
        split at h
        · next hpower =>
            have hsign := hbase.input.skips_at hpower
            split at h
            · next e' vs hread' =>
                cases h
                exact hbase.trans (hsign.after (ih.operand _ _ _ hsign.input hread'))
            · cases h
        · cases h
          exact hbase
    · cases h

theorem keepsTexts_primary : KeepsTexts Expr.slots (primary (fuel + 1)) := by
  intro ts e rest hts h
  rw [primary] at h
  -- Only a text has a slot of its own; what has parts has the slots of its parts.
  split at h
  · next hkind =>
      cases h
      exact hts.skips (by simp [hkind])
  · next hkind =>
      cases h
      have hslots (f : Float) : (Expr.literal (Value.ofFloat f)).slots = [] := rfl
      rw [hslots]
      exact hts.skips (by simp [hkind])
  · next hkind =>
      cases h
      exact hts.takes_operand hkind
  · next hkind =>
      cases h
      exact hts.skips (by simp [hkind])
  · next hkind =>
      have hname := hts.skips_variable hkind
      split at h
      · next steps us hread =>
          cases h
          exact hname.after (ih.accessors _ _ _ hname.input hread)
      · cases h
  · next hkind =>
      have hopen := (hts.skips_symbol hkind).lines
      split at h
      · next es us hread =>
          have hes := hopen.after (ih.items _ _ _ hopen.input hread)
          obtain ⟨rfl, hclosed⟩ := hes.closed_map h
          exact hclosed
      · cases h
  · next hkind =>
      have hopen := (hts.skips_symbol hkind).lines
      split at h
      · next es us hread =>
          have hes := hopen.after (ih.entries _ _ _ hopen.input hread)
          obtain ⟨rfl, hclosed⟩ := hes.closed_map h
          exact hclosed
      · cases h
  · next hkind =>
      have hopen := (hts.skips_symbol hkind).lines
      split at h
      · next inner us hread =>
          have hinner := hopen.after (ih.expression 0 _ _ _ hopen.input hread)
          obtain ⟨rfl, hclosed⟩ := hinner.closed_map h
          exact hclosed
      · cases h
  · next hkind =>
      split at h
      · cases h
        exact hts.skips_word hkind
      · cases h
  · cases h

theorem keepsTexts_items : KeepsTexts itemSlots (items (fuel + 1)) := by
  intro ts es rest hts h
  rw [items] at h
  split at h
  · cases h
    exact .refl hts
  · split at h
    · cases h
    · next first us hread =>
        have hfirst := (ih.expression 0 _ _ _ hts hread).lines
        dsimp only at h
        split at h
        · next hcomma =>
            have hcomma := (hfirst.input.skips_at hcomma).lines
            split at h
            · next more vs hreadMore =>
                cases h
                exact hfirst.trans (hcomma.after (ih.items _ _ _ hcomma.input hreadMore))
            · cases h
        · cases h
          exact hfirst.trans (.refl hfirst.input)

theorem keepsTexts_entries : KeepsTexts entrySlots (entries (fuel + 1)) := by
  intro ts es rest hts h
  rw [entries] at h
  split at h
  · cases h
    exact .refl hts
  · split at h
    · cases h
    · next name hname =>
        have hname := hts.takes_memberName hname
        split at h
        · cases h
        · next us hcolon =>
            have hcolon := (hname.before (hname.input.skips_expect hcolon)).lines
            split at h
            · cases h
            · next first vs hread =>
                have hfirst := hcolon.trans (ih.expression 0 _ _ _ hcolon.input hread).lines
                dsimp only at h
                split at h
                · next hcomma =>
                    have hcomma := (hfirst.input.skips_at hcomma).lines
                    split at h
                    · next more ws hreadMore =>
                        cases h
                        exact hfirst.trans (hcomma.after (ih.entries _ _ _ hcomma.input hreadMore))
                    · cases h
                · cases h
                  exact hfirst.trans (.refl hfirst.input)

theorem keepsTexts_accessors : KeepsTexts accessorSlots (accessors (fuel + 1)) := by
  intro ts steps rest hts h
  unfold accessors at h
  split at h
  · next p us =>
      have hdot := hts.skips_symbol (s := .dot) rfl
      dsimp only at h
      split at h
      · cases h
      · next step hstep =>
          -- What follows the dot is a word, a number or a variable, each without slots.
          obtain ⟨hslots, hnoText⟩ : (∀ more, accessorSlots (step :: more) = accessorSlots more) ∧
              ∀ content interpolated, kind (advance (⟨.symbol .dot, p, false⟩ :: us)) ≠
                .text content interpolated := by
            split at hstep
            · next hkind =>
                cases hstep
                exact ⟨fun _ => rfl, by simp [hkind]⟩
            · next hkind =>
                cases hstep
                exact ⟨fun _ => rfl, by simp [hkind]⟩
            · next hkind =>
                cases hstep
                exact ⟨fun _ => rfl, by simp [hkind]⟩
            · cases hstep
          have hname := hdot.after (hdot.input.skips hnoText)
          split at h
          · next more vs hread =>
              cases h
              rw [hslots]
              exact hname.after (ih.accessors _ _ _ hname.input hread)
          · cases h
  · have hopen := hts.skips_symbol (s := .openBracket) rfl
    split at h
    · cases h
    · next index us hread =>
        have hindex := hopen.after (ih.expression 0 _ _ _ hopen.input hread)
        split at h
        · cases h
        · next vs hclose =>
            have hclose := hindex.before (hindex.input.skips_expect hclose)
            split at h
            · next more ws hreadMore =>
                cases h
                exact hclose.trans (ih.accessors _ _ _ hclose.input hreadMore)
            · cases h
  · cases h
    exact .refl hts

end

/-- **Expressions.** The texts of an expression fill its slots. -/
theorem keepsExpressions : ∀ fuel, KeepsExpressions fuel
  | 0 => {
      expression := fun _ _ _ _ _ h => by cases h
      operators := fun _ _ _ _ _ _ h => by cases h
      operand := fun _ _ _ _ h => by cases h
      primary := fun _ _ _ _ h => by cases h
      items := fun _ _ _ _ h => by cases h
      entries := fun _ _ _ _ h => by cases h
      accessors := fun _ _ _ _ h => by cases h }
  | fuel + 1 =>
      have ih := keepsExpressions fuel
      { expression := keepsTexts_expression ih
        operators := keepsTexts_operators ih
        operand := keepsTexts_operand ih
        primary := keepsTexts_primary ih
        items := keepsTexts_items ih
        entries := keepsTexts_entries ih
        accessors := keepsTexts_accessors ih }

end Grammar

end TabPilot
