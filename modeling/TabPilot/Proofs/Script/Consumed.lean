import TabPilot.Proofs.Outcome
import TabPilot.Script.Grammar.Statement

set_option autoImplicit false

/-! # What the grammar consumes

Every function of the grammar fails at one of the tokens that are left, or takes some of them off
the front. `Consumes` says this together with what holds of the tree that is read and of the places
of the tokens that were taken: that something was taken at all, or that the places which the tree
remembers are among them.
-/

namespace TabPilot

/-! ## The places that a tree remembers -/

def Condition.marks : Condition → List Position
  | .assigning _ p _ rest => p :: rest.marks
  | .commanding _ p first rest => p :: first.position :: rest.marks
  | .command _ p c => [p, c.position]
  | .comparison _ p _ _ => [p]

theorem Condition.position_mem_marks (c : Condition) : c.position ∈ c.marks := by
  cases c <;> exact List.mem_cons_self

def Clause.marks : Clause → List Position
  | .assignment _ => []
  | .command c _ => [c.position]

def LoopSource.marks : LoopSource → List Position
  | .variable _ => []
  | .command c => [c.position]

/-- Where the commands and conditions of a loop's header stand. -/
def LoopMode.marks : LoopMode → List Position
  | .infinite | .count _ => []
  | .items _ source => source.marks
  | .whilst test => test.marks
  | .bounded init test next => init.marks ++ (test.marks ++ next.marks)

namespace Grammar

/-! ## Tokens -/

variable {α β : Type} {ts ts' rest : List Token} {u v : List Position}

/-- Tokens that are left to be read: the last one is the end of input. -/
def Input (ts : List Token) : Prop := ∃ t, ts.getLast? = some t ∧ t.kind = .endOfInput

/-- The tokens at `u` were taken off the front of `ts`, and `rest` is left. -/
def Past (ts : List Token) (u : List Position) (rest : List Token) : Prop :=
  Input rest ∧ ts.map Token.position = u ++ rest.map Token.position

theorem Past.trans (h : Past ts u ts') (h' : Past ts' v rest) : Past ts (u ++ v) rest :=
  ⟨h'.1, by rw [h.2, h'.2, List.append_assoc]⟩

theorem Past.mem (h : Past ts u rest) {p : Position} (hp : p ∈ rest.map Token.position) :
    p ∈ ts.map Token.position := by
  rw [h.2]
  exact List.mem_append_right _ hp

theorem Past.mem_of_taken (h : Past ts u rest) {p : Position} (hp : p ∈ u) :
    p ∈ ts.map Token.position := by
  rw [h.2]
  exact List.mem_append_left _ hp

/-- The first token taken is the one that was next. -/
theorem Past.here_mem (h : Past ts u rest) (hne : u ≠ []) : here ts ∈ u := by
  obtain ⟨p, u, rfl⟩ := List.exists_cons_of_ne_nil hne
  obtain ⟨-, heq⟩ := h
  cases ts with
  | nil => cases heq
  | cons t ts =>
      obtain ⟨rfl, -⟩ := List.cons.inj heq
      exact List.mem_cons_self

namespace Input

theorem refl (h : Input ts) : Past ts [] ts := ⟨h, rfl⟩

theorem here_mem (h : Input ts) : here ts ∈ ts.map Token.position := by
  obtain ⟨t, ht, -⟩ := h
  cases ts with
  | nil => cases ht
  | cons t ts => exact List.mem_cons_self

theorem tail {t : Token} (h : Input (t :: ts)) (hne : ts ≠ []) : Input ts := by
  obtain ⟨last, hlast, hkind⟩ := h
  obtain ⟨u, ts, rfl⟩ := List.exists_cons_of_ne_nil hne
  exact ⟨last, by rwa [List.getLast?_cons_cons] at hlast, hkind⟩

/-- What is not the end of input is not the last token. -/
theorem tail_of_kind {t : Token} (h : Input (t :: ts)) (hkind : t.kind ≠ .endOfInput) :
    Input ts := by
  refine h.tail ?_
  rintro rfl
  obtain ⟨last, hlast, hend⟩ := h
  cases hlast
  exact hkind hend

theorem advance_of_kind (h : Input ts) (hkind : kind ts ≠ .endOfInput) :
    Past ts [here ts] (advance ts) := by
  cases ts with
  | nil => exact absurd rfl hkind
  | cons t ts =>
      cases ts with
      | nil =>
          obtain ⟨last, hlast, hend⟩ := h
          cases hlast
          exact absurd hend hkind
      | cons u ts => exact ⟨h.tail (List.cons_ne_nil _ _), rfl⟩

theorem advance_of_at {s : Symbol} (h : Input ts) (hat : at? s ts = true) :
    Past ts [here ts] (advance ts) := by
  refine h.advance_of_kind fun hend => ?_
  rw [at?, hend] at hat
  cases hat

theorem advance_of_atWord {word : String} (h : Input ts) (hat : atWord word ts = true) :
    Past ts [here ts] (advance ts) := by
  refine h.advance_of_kind fun hend => ?_
  rw [atWord, hend] at hat
  cases hat

theorem exists_advance (h : Input ts) : ∃ u, Past ts u (advance ts) := by
  by_cases hkind : kind ts = .endOfInput
  · cases ts with
    | nil => exact ⟨[], h.refl⟩
    | cons t ts =>
        cases ts with
        | nil => exact ⟨[], h.refl⟩
        | cons u ts => exact ⟨[t.position], h.tail (List.cons_ne_nil _ _), rfl⟩
  · exact ⟨_, h.advance_of_kind hkind⟩

theorem exists_skipNewlines (h : Input ts) : ∃ u, Past ts u (skipNewlines ts) := by
  induction ts with
  | nil => exact ⟨[], h.refl⟩
  | cons t ts ih =>
      rw [skipNewlines]
      split
      · next hline =>
          have hrest := h.tail_of_kind fun hend => by rw [hend] at hline; cases hline
          obtain ⟨u, hu⟩ := ih hrest
          have hfirst : Past (t :: ts) [t.position] ts := ⟨hrest, rfl⟩
          exact ⟨_, hfirst.trans hu⟩
      · exact ⟨[], h.refl⟩

theorem exists_skipSeparators (h : Input ts) : ∃ u, Past ts u (skipSeparators ts) := by
  induction ts with
  | nil => exact ⟨[], h.refl⟩
  | cons t ts ih =>
      rw [skipSeparators]
      split
      · next hline =>
          have hrest := h.tail_of_kind fun hend => by rw [hend] at hline; cases hline
          obtain ⟨u, hu⟩ := ih hrest
          have hfirst : Past (t :: ts) [t.position] ts := ⟨hrest, rfl⟩
          exact ⟨_, hfirst.trans hu⟩
      · exact ⟨[], h.refl⟩

/-- A token and the line ends after it. -/
theorem exists_skipNewlines_advance (h : Input ts) (hkind : kind ts ≠ .endOfInput) :
    ∃ u ≠ [], Past ts u (skipNewlines (Grammar.advance ts)) := by
  have hadvance := h.advance_of_kind hkind
  obtain ⟨u, hu⟩ := hadvance.1.exists_skipNewlines
  exact ⟨_, List.cons_ne_nil _ _, hadvance.trans hu⟩

end Input

/-! ## Reading -/

/-- What a function of the grammar comes to when the tokens `ts` are left: it fails at one of
them, or takes some off, and what it reads has a property together with their places. -/
def Consumes (P : List Position → α → Prop) (ts : List Token) : Parsed α → Prop
  | .error e => e.position ∈ ts.map Token.position
  | .ok (a, rest) => ∃ u, Past ts u rest ∧ P u a

/-- What was taken does not matter. -/
def Any (_ : List Position) (_ : α) : Prop := True

/-- Something was taken. -/
def Something (u : List Position) (_ : α) : Prop := u ≠ []

theorem Something.append {a : α} {b : β} (h : Something u a) : Something (u ++ v) b :=
  List.append_ne_nil_of_left_ne_nil h v

/-- What was taken first is enough. -/
theorem Something.append_append {a : α} {b : β} {x : List Position} (h : Something u a) :
    Something (u ++ v ++ x) b := by
  rw [List.append_assoc]
  exact h.append

namespace Consumes

variable {P : List Position → α → Prop} {Q : List Position → β → Prop} {r : Parsed α}

theorem fail {cause : Misreading} (h : Input ts) : Consumes P ts (Grammar.fail cause ts) :=
  h.here_mem

theorem of_ok {a : α} (h : Consumes P ts r) (hr : r = .ok (a, rest)) :
    ∃ u, Past ts u rest ∧ P u a := by
  rw [hr] at h
  exact h

theorem of_error {e : Misread} (h : Consumes P ts r) (hr : r = .error e) :
    Consumes Q ts (.error e) := by
  rw [hr] at h
  exact h

/-- What is read behind tokens that were taken. -/
theorem after {r : Parsed β} (h : Past ts u ts') (hr : Consumes (fun v b => Q (u ++ v) b) ts' r) :
    Consumes Q ts r := by
  cases r with
  | error e => exact h.mem hr
  | ok b =>
      obtain ⟨v, hpast, hQ⟩ := hr
      exact ⟨_, h.trans hpast, hQ⟩

theorem map {f : α × List Token → β × List Token} (h : Consumes P ts r)
    (hrest : ∀ a rest, (f (a, rest)).2 = rest)
    (hQ : ∀ u a rest, P u a → Q u (f (a, rest)).1) : Consumes Q ts (r.map f) := by
  cases r with
  | error e => exact h
  | ok a =>
      obtain ⟨a, rest⟩ := a
      obtain ⟨u, hpast, hP⟩ := h
      refine ⟨u, ?_, hQ u a rest hP⟩
      rwa [hrest]

theorem mono {P' : List Position → α → Prop} (h : Consumes P ts r)
    (hP : ∀ u a rest, Past ts u rest → P u a → P' u a) : Consumes P' ts r := by
  cases r with
  | error e => exact h
  | ok a =>
      obtain ⟨u, hpast, hu⟩ := h
      exact ⟨u, hpast, hP u a.1 a.2 hpast hu⟩

/-- What is read ends with a symbol. -/
theorem expect {s : Symbol} {b : β} (h : Input ts) (hQ : Q [here ts] b) :
    Consumes Q ts ((Grammar.expect s ts).map fun ts => (b, ts)) := by
  rw [Grammar.expect]
  split
  · next hat => exact ⟨_, h.advance_of_at hat, hQ⟩
  · exact h.here_mem

end Consumes

theorem Input.past_of_expect {s : Symbol} (h : Input ts) (hread : expect s ts = .ok rest) :
    Past ts [here ts] rest := by
  rw [expect] at hread
  split at hread
  · next hat =>
      obtain rfl := Except.ok.inj hread
      exact h.advance_of_at hat
  · cases hread

theorem Input.mem_of_expect {s : Symbol} {e : Misread} (h : Input ts)
    (hread : expect s ts = .error e) : e.position ∈ ts.map Token.position := by
  rw [expect] at hread
  split at hread
  · cases hread
  · obtain rfl := Except.error.inj hread
    exact h.here_mem

/-! ## Expressions -/

/-- What the functions consume that read expressions, when they may go as deep as `fuel`. -/
structure ConsumesExpressions (fuel : Nat) : Prop where
  expression : ∀ level ts, Input ts → Consumes Something ts (expression fuel level ts)
  operators : ∀ level lhs ts, Input ts → Consumes Any ts (operators fuel level lhs ts)
  operand : ∀ ts, Input ts → Consumes Something ts (operand fuel ts)
  primary : ∀ ts, Input ts → Consumes Something ts (primary fuel ts)
  items : ∀ ts, Input ts → Consumes Any ts (items fuel ts)
  entries : ∀ ts, Input ts → Consumes Any ts (entries fuel ts)
  accessors : ∀ ts, Input ts → Consumes Any ts (accessors fuel ts)

section

variable {fuel : Nat} (ih : ConsumesExpressions fuel) (hts : Input ts)
include ih hts

theorem consumes_expression (level : Nat) :
    Consumes Something ts (expression (fuel + 1) level ts) := by
  rw [expression]
  split
  · next lhs us hread =>
      obtain ⟨u, hpast, hu⟩ := (ih.operand ts hts).of_ok hread
      exact .after hpast ((ih.operators level lhs us hpast.1).mono fun _ _ _ _ _ => hu.append)
  · next e hread => exact (ih.operand ts hts).of_error hread

theorem consumes_operators (level : Nat) (lhs : Expr) :
    Consumes Any ts (operators (fuel + 1) level lhs ts) := by
  rw [operators]
  split
  · next op tightness _ =>
    split
    · obtain ⟨u, hu⟩ := hts.exists_advance
      obtain ⟨v, hv⟩ := hu.1.exists_skipNewlines
      have hrhs := ih.expression (tightness + 1) _ hv.1
      split
      · next rhs us hread =>
          obtain ⟨x, hpast, -⟩ := hrhs.of_ok hread
          exact .after (hu.trans (hv.trans hpast)) (ih.operators level _ us hpast.1)
      · next e hread => exact .after (hu.trans hv) (hrhs.of_error hread)
    · exact ⟨[], hts.refl, trivial⟩
  · exact ⟨[], hts.refl, trivial⟩

theorem consumes_operand : Consumes Something ts (operand (fuel + 1) ts) := by
  rw [operand]
  split
  · next hminus =>
      have hadvance := hts.advance_of_at hminus
      have hoperand := ih.operand _ hadvance.1
      split
      · next e us hread =>
          obtain ⟨u, hpast, -⟩ := hoperand.of_ok hread
          exact ⟨_, hadvance.trans hpast, List.cons_ne_nil _ _⟩
      · next e hread => exact .after hadvance (hoperand.of_error hread)
  · split
    · next base us hread =>
        obtain ⟨u, hpast, hu⟩ := (ih.primary ts hts).of_ok hread
        split
        · obtain ⟨v, hv⟩ := hpast.1.exists_advance
          have hoperand := ih.operand _ hv.1
          split
          · next e ws hread =>
              obtain ⟨x, hpast', -⟩ := hoperand.of_ok hread
              exact ⟨_, hpast.trans (hv.trans hpast'), hu.append⟩
          · next e hread => exact .after (hpast.trans hv) (hoperand.of_error hread)
        · exact ⟨u, hpast, hu⟩
    · next e hread => exact (ih.primary ts hts).of_error hread

theorem consumes_primary : Consumes Something ts (primary (fuel + 1) ts) := by
  have hadvance (hkind : kind ts ≠ .endOfInput) := hts.advance_of_kind hkind
  rw [primary]
  split
  -- Literals are single tokens.
  · next hkind => exact ⟨_, hadvance (by simp [hkind]), List.cons_ne_nil _ _⟩
  · next hkind => exact ⟨_, hadvance (by simp [hkind]), List.cons_ne_nil _ _⟩
  · next hkind => exact ⟨_, hadvance (by simp [hkind]), List.cons_ne_nil _ _⟩
  · next hkind => exact ⟨_, hadvance (by simp [hkind]), List.cons_ne_nil _ _⟩
  · next hkind =>
      have hpast := hadvance (by simp [hkind])
      have hsteps := ih.accessors _ hpast.1
      split
      · next steps us hread =>
          obtain ⟨u, hpast', -⟩ := hsteps.of_ok hread
          exact ⟨_, hpast.trans hpast', List.cons_ne_nil _ _⟩
      · next e hread => exact .after hpast (hsteps.of_error hread)
  · next hkind =>
      obtain ⟨u, hu, hpast⟩ := hts.exists_skipNewlines_advance (by simp [hkind])
      have hitems := ih.items _ hpast.1
      split
      · next es us hread =>
          obtain ⟨v, hpast', -⟩ := hitems.of_ok hread
          obtain ⟨x, hx⟩ := hpast'.1.exists_skipNewlines
          exact .after (hpast.trans (hpast'.trans hx)) (.expect hx.1 (by simp [Something]))
      · next e hread => exact .after hpast (hitems.of_error hread)
  · next hkind =>
      obtain ⟨u, hu, hpast⟩ := hts.exists_skipNewlines_advance (by simp [hkind])
      have hentries := ih.entries _ hpast.1
      split
      · next es us hread =>
          obtain ⟨v, hpast', -⟩ := hentries.of_ok hread
          obtain ⟨x, hx⟩ := hpast'.1.exists_skipNewlines
          exact .after (hpast.trans (hpast'.trans hx)) (.expect hx.1 (by simp [Something]))
      · next e hread => exact .after hpast (hentries.of_error hread)
  · next hkind =>
      obtain ⟨u, hu, hpast⟩ := hts.exists_skipNewlines_advance (by simp [hkind])
      have hinner := ih.expression 0 _ hpast.1
      split
      · next e us hread =>
          obtain ⟨v, hpast', -⟩ := hinner.of_ok hread
          obtain ⟨x, hx⟩ := hpast'.1.exists_skipNewlines
          exact .after (hpast.trans (hpast'.trans hx)) (.expect hx.1 (by simp [Something]))
      · next e hread => exact .after hpast (hinner.of_error hread)
  · next hkind =>
      split
      · exact ⟨_, hadvance (by simp [hkind]), List.cons_ne_nil _ _⟩
      · exact .fail hts
  · exact .fail hts

theorem consumes_items : Consumes Any ts (items (fuel + 1) ts) := by
  rw [items]
  split
  · exact ⟨[], hts.refl, trivial⟩
  · have hfirst := ih.expression 0 ts hts
    split
    · next e hread => exact hfirst.of_error hread
    · next first us hread =>
        obtain ⟨u, hpast, -⟩ := hfirst.of_ok hread
        obtain ⟨v, hv⟩ := hpast.1.exists_skipNewlines
        have hbehind := hpast.trans hv
        dsimp only
        split
        · obtain ⟨x, hx⟩ := hbehind.1.exists_advance
          obtain ⟨y, hy⟩ := hx.1.exists_skipNewlines
          have hmore := ih.items _ hy.1
          split
          · next more ws hread =>
              obtain ⟨z, hz, -⟩ := hmore.of_ok hread
              exact ⟨_, hbehind.trans (hx.trans (hy.trans hz)), trivial⟩
          · next e hread => exact .after (hbehind.trans (hx.trans hy)) (hmore.of_error hread)
        · exact ⟨_, hbehind, trivial⟩

theorem consumes_entries : Consumes Any ts (entries (fuel + 1) ts) := by
  rw [entries]
  split
  · exact ⟨[], hts.refl, trivial⟩
  · split
    · exact .fail hts
    · obtain ⟨u, hu⟩ := hts.exists_advance
      split
      · next e hread => exact hu.mem (hu.1.mem_of_expect hread)
      · next us hread =>
          have hcolon := hu.trans (hu.1.past_of_expect hread)
          obtain ⟨v, hv⟩ := hcolon.1.exists_skipNewlines
          have hbehind := hcolon.trans hv
          have hfirst := ih.expression 0 _ hv.1
          split
          · next e hread => exact .after hbehind (hfirst.of_error hread)
          · next first ws hread =>
              obtain ⟨x, hx, -⟩ := hfirst.of_ok hread
              obtain ⟨y, hy⟩ := hx.1.exists_skipNewlines
              have hbehind' := hbehind.trans (hx.trans hy)
              dsimp only
              split
              · obtain ⟨a, ha⟩ := hy.1.exists_advance
                obtain ⟨b, hb⟩ := ha.1.exists_skipNewlines
                have hmore := ih.entries _ hb.1
                split
                · next more xs hread =>
                    obtain ⟨z, hz, -⟩ := hmore.of_ok hread
                    exact ⟨_, hbehind'.trans (ha.trans (hb.trans hz)), trivial⟩
                · next e hread =>
                    exact .after (hbehind'.trans (ha.trans hb)) (hmore.of_error hread)
              · exact ⟨_, hbehind', trivial⟩

theorem consumes_accessors : Consumes Any ts (accessors (fuel + 1) ts) := by
  unfold accessors
  split
  · obtain ⟨u, hu⟩ := hts.exists_advance
    dsimp only
    split
    · exact hu.mem hu.1.here_mem
    · obtain ⟨v, hv⟩ := hu.1.exists_advance
      have hmore := ih.accessors _ hv.1
      split
      · next more us hread =>
          obtain ⟨x, hx, -⟩ := hmore.of_ok hread
          exact ⟨_, hu.trans (hv.trans hx), trivial⟩
      · next e hread => exact .after (hu.trans hv) (hmore.of_error hread)
  · obtain ⟨u, hu⟩ := hts.exists_advance
    have hindex := ih.expression 0 _ hu.1
    split
    · next e hread => exact .after hu (hindex.of_error hread)
    · next index us hread =>
        obtain ⟨v, hv, -⟩ := hindex.of_ok hread
        have hbehind := hu.trans hv
        split
        · next e hread => exact hbehind.mem (hv.1.mem_of_expect hread)
        · next ws hread =>
            have hclose := hbehind.trans (hv.1.past_of_expect hread)
            have hmore := ih.accessors _ hclose.1
            split
            · next more xs hread =>
                obtain ⟨x, hx, -⟩ := hmore.of_ok hread
                exact ⟨_, hclose.trans hx, trivial⟩
            · next e hread => exact .after hclose (hmore.of_error hread)
  · exact ⟨[], hts.refl, trivial⟩

end

/-- **Expressions.** An expression takes at least one token. -/
theorem consumesExpressions : ∀ fuel, ConsumesExpressions fuel
  | 0 => {
      expression := fun _ _ hts => .fail hts
      operators := fun _ _ _ hts => .fail hts
      operand := fun _ hts => .fail hts
      primary := fun _ hts => .fail hts
      items := fun _ hts => .fail hts
      entries := fun _ hts => .fail hts
      accessors := fun _ hts => .fail hts }
  | fuel + 1 =>
      have ih := consumesExpressions fuel
      { expression := fun level _ hts => consumes_expression ih hts level
        operators := fun level lhs _ hts => consumes_operators ih hts level lhs
        operand := fun _ hts => consumes_operand ih hts
        primary := fun _ hts => consumes_primary ih hts
        items := fun _ hts => consumes_items ih hts
        entries := fun _ hts => consumes_entries ih hts
        accessors := fun _ hts => consumes_accessors ih hts }

/-! ## Assignments -/

theorem consumes_reference (fuel : Nat) (hts : Input ts) :
    Consumes Something ts (reference fuel ts) := by
  unfold reference
  split
  · next hkind =>
      have hpast := hts.advance_of_kind (by simp [hkind])
      refine .after hpast (((consumesExpressions fuel).accessors _ hpast.1).map (fun _ _ => rfl) ?_)
      exact fun _ _ _ _ => List.cons_ne_nil _ _
  · exact .fail hts

/-- The targets of an assignment, as far as the first one. -/
theorem consumes_target (fuel : Nat) (hts : Input ts) :
    Consumes Something ts
      (if atWord "_" ts then .ok (.skip, advance ts)
        else (reference fuel ts).map fun (v, ts) => (.variable v, ts) : Parsed Target) := by
  split
  · next hskip => exact ⟨_, hts.advance_of_atWord hskip, List.cons_ne_nil _ _⟩
  · exact (consumes_reference fuel hts).map (fun _ _ => rfl) fun _ _ _ hu => hu

theorem consumes_targets : ∀ fuel {ts : List Token}, Input ts →
    Consumes Something ts (targets fuel ts)
  | 0, _, hts => .fail hts
  | fuel + 1, ts, hts => by
      have hfirst := consumes_target fuel hts
      rw [targets]
      dsimp only
      split
      · next e hread => exact hfirst.of_error hread
      · next target us hread =>
          obtain ⟨u, hpast, hu⟩ := hfirst.of_ok hread
          split
          · obtain ⟨v, hv⟩ := hpast.1.exists_advance
            refine .after (hpast.trans hv) ((consumes_targets fuel hv.1).map (fun _ _ => rfl) ?_)
            exact fun _ _ _ _ => hu.append_append
          · exact ⟨u, hpast, hu⟩

theorem consumes_sources : ∀ fuel {ts : List Token}, Input ts →
    Consumes Something ts (sources fuel ts)
  | 0, _, hts => .fail hts
  | fuel + 1, ts, hts => by
      have hfirst := (consumesExpressions fuel).expression 0 ts hts
      rw [sources]
      split
      · next e hread => exact hfirst.of_error hread
      · next first us hread =>
          obtain ⟨u, hpast, hu⟩ := hfirst.of_ok hread
          split
          · obtain ⟨v, hv⟩ := hpast.1.exists_advance
            obtain ⟨x, hx⟩ := hv.1.exists_skipNewlines
            have hbehind := hpast.trans (hv.trans hx)
            refine .after hbehind ((consumes_sources fuel hx.1).map (fun _ _ => rfl) ?_)
            exact fun _ _ _ _ => hu.append_append
          · exact ⟨u, hpast, hu⟩

theorem consumes_references : ∀ fuel {ts : List Token}, Input ts →
    Consumes Something ts (references fuel ts)
  | 0, _, hts => .fail hts
  | fuel + 1, ts, hts => by
      have hfirst := consumes_reference fuel hts
      rw [references]
      split
      · next e hread => exact hfirst.of_error hread
      · next first us hread =>
          obtain ⟨u, hpast, hu⟩ := hfirst.of_ok hread
          split
          · obtain ⟨v, hv⟩ := hpast.1.exists_advance
            refine .after (hpast.trans hv) ((consumes_references fuel hv.1).map (fun _ _ => rfl) ?_)
            exact fun _ _ _ _ => hu.append_append
          · exact ⟨u, hpast, hu⟩

/-- Where an assignment stands that may be there, and where it fails. -/
def ConsumesMaybe (ts : List Token) : Except Misread (Option (Assignment × List Token)) → Prop
  | .error e => e.position ∈ ts.map Token.position
  | .ok none => True
  | .ok (some (a, rest)) => ∃ u, Past ts u rest ∧ u ≠ [] ∧ a.position = here ts

theorem consumesMaybe_assignment? (fuel : Nat) (hts : Input ts) :
    ConsumesMaybe ts (assignment? fuel ts) := by
  have hgoals := consumes_targets fuel hts
  rw [assignment?]
  split
  · trivial
  · split
    · trivial
    · next goals us hread =>
        obtain ⟨u, hpast, hu⟩ := hgoals.of_ok hread
        split
        · trivial
        · obtain ⟨v, hv⟩ := hpast.1.exists_advance
          have hbehind := hpast.trans hv
          have hvalues := consumes_sources fuel hv.1
          cases hread' : sources fuel (advance us) with
          | error e =>
              rw [hread'] at hvalues
              exact hbehind.mem hvalues
          | ok values =>
              obtain ⟨x, hx, -⟩ := hvalues.of_ok hread'
              exact ⟨_, hbehind.trans hx, hu.append_append (b := ()), rfl⟩

theorem past_of_assignment? {fuel : Nat} {a : Assignment} (hts : Input ts)
    (h : assignment? fuel ts = .ok (some (a, rest))) :
    ∃ u, Past ts u rest ∧ u ≠ [] ∧ a.position = here ts := by
  have hreads := consumesMaybe_assignment? fuel hts
  rw [h] at hreads
  exact hreads

theorem mem_of_assignment? {fuel : Nat} {e : Misread} (hts : Input ts)
    (h : assignment? fuel ts = .error e) : e.position ∈ ts.map Token.position := by
  have hreads := consumesMaybe_assignment? fuel hts
  rw [h] at hreads
  exact hreads

/-! ## Commands -/

theorem consumes_qualified : ∀ fuel name {ts : List Token}, Input ts →
    Consumes Any ts (qualified fuel name ts)
  | 0, _, _, hts => .fail hts
  | fuel + 1, name, ts, hts => by
      rw [qualified]
      split
      · obtain ⟨u, hu⟩ := hts.exists_advance
        obtain ⟨v, hv⟩ := hu.1.exists_advance
        dsimp only
        split
        · exact .after (hu.trans hv) (consumes_qualified fuel _ hv.1)
        · exact .after (hu.trans hv) (.fail hv.1)
      · exact ⟨[], hts.refl, trivial⟩

theorem consumes_argument (fuel : Nat) (hts : Input ts) : Consumes Any ts (argument fuel ts) := by
  rw [argument]
  split
  · have hread := (consumesExpressions fuel).expression 0 ts hts
    exact hread.map (fun _ _ => rfl) fun _ _ _ _ => trivial
  · exact ⟨[], hts.refl, trivial⟩

theorem consumes_options (fuel : Nat) (inHeader : Bool) (hts : Input ts) :
    Consumes Any ts (options fuel inHeader ts) := by
  rw [options]
  split
  · obtain ⟨u, hu⟩ := hts.exists_advance
    obtain ⟨v, hv⟩ := hu.1.exists_skipNewlines
    have hentries := (consumesExpressions fuel).entries _ hv.1
    split
    · next e hread => exact .after (hu.trans hv) (hentries.of_error hread)
    · next es us hread =>
        obtain ⟨x, hx, -⟩ := hentries.of_ok hread
        obtain ⟨y, hy⟩ := hx.1.exists_skipNewlines
        exact .after (hu.trans (hv.trans (hx.trans hy))) (.expect hy.1 trivial)
  · exact ⟨[], hts.refl, trivial⟩

theorem consumes_destination (fuel : Nat) (hts : Input ts) :
    Consumes Any ts (destination fuel ts) := by
  rw [destination]
  split
  · exact ⟨[], hts.refl, trivial⟩
  · obtain ⟨u, hu⟩ := hts.exists_advance
    obtain ⟨v, hv⟩ := hu.1.exists_advance
    dsimp only
    split
    · exact .after hu ((consumes_reference fuel hu.1).map (fun _ _ => rfl) fun _ _ _ _ => trivial)
    · exact ⟨_, hu.trans hv, trivial⟩
    · split
      · exact ⟨_, hu.trans hv, trivial⟩
      · exact .after hu (.fail hu.1)
    · exact .after hu (.fail hu.1)

/-- A command stands at its first token. -/
theorem consumes_command (fuel : Nat) (inHeader : Bool) (hts : Input ts) :
    Consumes (fun u c => c.position ∈ u) ts (command fuel inHeader ts) := by
  rw [command]
  split
  · next w hkind =>
      have hword := hts.advance_of_kind (by simp [hkind])
      have hname := consumes_qualified fuel w hword.1
      split
      · next e hread => exact .after hword (hname.of_error hread)
      · next name afterName hread =>
          obtain ⟨u, hu, -⟩ := hname.of_ok hread
          have hargument := consumes_argument fuel hu.1
          split
          · next e hread => exact .after (hword.trans hu) (hargument.of_error hread)
          · next id afterId hread =>
              obtain ⟨v, hv, -⟩ := hargument.of_ok hread
              have hoptions := consumes_options fuel inHeader hv.1
              split
              · next e hread =>
                  exact .after (hword.trans (hu.trans hv)) (hoptions.of_error hread)
              · next opts afterOptions hread =>
                  obtain ⟨x, hx, -⟩ := hoptions.of_ok hread
                  refine .after (hword.trans (hu.trans (hv.trans hx)))
                    ((consumes_destination fuel hx.1).map (fun _ _ => rfl) fun y _ _ _ => ?_)
                  exact List.mem_append_left y List.mem_cons_self
  · obtain ⟨u, hu⟩ := hts.exists_advance
    exact .after hu (.fail hu.1)

theorem consumes_commandSequence : ∀ fuel {ts : List Token}, Input ts →
    Consumes (fun u cs => u ≠ [] ∧ ∀ c ∈ cs, c.position ∈ u) ts (commandSequence fuel ts)
  | 0, _, hts => .fail hts
  | fuel + 1, ts, hts => by
      have hfirst := consumes_command fuel false hts
      rw [commandSequence]
      split
      · next e hread => exact hfirst.of_error hread
      · next first us hread =>
          obtain ⟨u, hpast, hu⟩ := hfirst.of_ok hread
          split
          · obtain ⟨v, hv⟩ := hpast.1.exists_advance
            refine .after (hpast.trans hv)
              ((consumes_commandSequence fuel hv.1).map (fun _ _ => rfl) fun x cs _ hx => ?_)
            refine ⟨List.append_ne_nil_of_right_ne_nil _ hx.1, List.forall_mem_cons.mpr ⟨?_, ?_⟩⟩
            · exact List.mem_append_left _ (List.mem_append_left _ hu)
            · exact fun c hc => List.mem_append_right _ (hx.2 c hc)
          · exact ⟨u, hpast, List.ne_nil_of_mem hu, List.forall_mem_singleton.mpr hu⟩

/-! ## Conditions -/

theorem past_of_comparator? {op : Comparator} (hts : Input ts)
    (h : comparator? ts = some (op, rest)) : ∃ u, Past ts u rest := by
  obtain ⟨u, hu⟩ := hts.exists_advance
  obtain ⟨v, hv⟩ := hu.1.exists_advance
  unfold comparator? at h
  split at h
  all_goals first
    | (split at h
       · cases h
         exact ⟨_, hu.trans hv⟩
       · cases h)
    | (cases h; exact ⟨_, hu⟩)
    | cases h

theorem consumes_comparison (fuel : Nat) (negated : Bool) (start : Position) (hts : Input ts) :
    Consumes (fun u c => u ≠ [] ∧ c.marks = [start]) ts (comparison fuel negated start ts) := by
  have hlhs := (consumesExpressions fuel).expression 0 ts hts
  rw [comparison]
  split
  · next e hread => exact hlhs.of_error hread
  · next lhs us hread =>
      obtain ⟨u, hpast, hu⟩ := hlhs.of_ok hread
      split
      · exact ⟨u, hpast, hu, rfl⟩
      · next op vs hop =>
          obtain ⟨v, hv⟩ := past_of_comparator? hpast.1 hop
          have hrhs := (consumesExpressions fuel).expression 0 vs hv.1
          refine .after (hpast.trans hv) (hrhs.map (fun _ _ => rfl) fun _ _ _ _ => ?_)
          exact ⟨hu.append_append (b := ()), rfl⟩

/-- A condition and its parts stand at tokens that it takes. -/
theorem consumes_condition : ∀ fuel {ts : List Token}, Input ts →
    Consumes (fun u c => c.marks ⊆ u) ts (condition fuel ts)
  | 0, _, hts => .fail hts
  | fuel + 1, ts, hts => by
      -- `u` is the place of the word `not`, if it stands in front.
      obtain ⟨u, hu⟩ : ∃ u, Past ts u (if atWord "not" ts = true then advance ts else ts) := by
        split
        · exact hts.exists_advance
        · exact ⟨[], hts.refl⟩
      rw [condition]
      dsimp only
      generalize (if atWord "not" ts = true then advance ts else ts) = ts' at hu ⊢
      -- What comes next is an assignment, a command or a comparison, tried in this order.
      have hcommand := consumes_command fuel true hu.1
      split
      · next e hread => exact hu.mem (mem_of_assignment? hu.1 hread)
      · next first us hread =>
          obtain ⟨v, hv, hne, -⟩ := past_of_assignment? hu.1 hread
          have hfirst := hu.trans hv
          have hstart : here ts ∈ u ++ v :=
            hfirst.here_mem (List.append_ne_nil_of_right_ne_nil u hne)
          split
          · next e hread => exact hfirst.mem (hv.1.mem_of_expect hread)
          · next ws hread =>
              have hbehind := hfirst.trans (hv.1.past_of_expect hread)
              refine .after hbehind ((consumes_condition fuel hbehind.1).map (fun _ _ => rfl) ?_)
              intro x rest _ hx
              refine List.cons_subset.mpr ⟨?_, fun p hp => List.mem_append_right _ (hx hp)⟩
              exact List.mem_append_left _ (List.mem_append_left _ hstart)
      · split
        · split
          · next e hread => exact .after hu (hcommand.of_error hread)
          · next first us hread =>
              obtain ⟨v, hv, hmem⟩ := hcommand.of_ok hread
              have hfirst := hu.trans hv
              have hstart : here ts ∈ u ++ v :=
                hfirst.here_mem (List.append_ne_nil_of_right_ne_nil u (List.ne_nil_of_mem hmem))
              have hcommand : first.position ∈ u ++ v := List.mem_append_right u hmem
              split
              · obtain ⟨x, hx⟩ := hv.1.exists_advance
                refine .after (hfirst.trans hx)
                  ((consumes_condition fuel hx.1).map (fun _ _ => rfl) fun y rest _ hy => ?_)
                refine List.cons_subset.mpr ⟨?_, List.cons_subset.mpr ⟨?_, ?_⟩⟩
                · exact List.mem_append_left _ (List.mem_append_left _ hstart)
                · exact List.mem_append_left _ (List.mem_append_left _ hcommand)
                · exact fun p hp => List.mem_append_right _ (hy hp)
              · refine ⟨_, hfirst, List.cons_subset.mpr ⟨hstart, ?_⟩⟩
                exact List.cons_subset.mpr ⟨hcommand, List.nil_subset _⟩
        · have hcomparison := consumes_comparison fuel (atWord "not" ts) (here ts) hu.1
          have hfull : Consumes (fun u c => u ≠ [] ∧ c.marks = [here ts]) ts
              (comparison fuel (atWord "not" ts) (here ts) ts') :=
            .after hu (hcomparison.mono fun v c _ _ hv =>
              ⟨List.append_ne_nil_of_right_ne_nil u hv.1, hv.2⟩)
          refine hfull.mono fun v c rest hpast hv => ?_
          rw [hv.2]
          exact List.cons_subset.mpr ⟨hpast.here_mem hv.1, List.nil_subset _⟩

/-! ## Loop headers -/

theorem consumes_loopSource (fuel : Nat) (hts : Input ts) :
    Consumes (fun u s => s.marks ⊆ u) ts (loopSource fuel ts) := by
  unfold loopSource
  split
  · exact (consumes_reference fuel hts).map (fun _ _ => rfl) fun _ _ _ _ => List.nil_subset _
  · split
    · refine (consumes_command fuel true hts).map (fun _ _ => rfl) fun u c _ hu => ?_
      exact List.cons_subset.mpr ⟨hu, List.nil_subset _⟩
    · exact .fail hts

theorem marks_of_splitInit {head test : Condition} {init : Clause}
    (h : splitInit head = .ok (init, test)) : init.marks ++ test.marks ⊆ head.marks := by
  unfold splitInit at h
  split at h
  · cases h
    exact List.subset_cons_self _ _
  · cases h
    exact List.subset_cons_self _ _
  · cases h

theorem position_of_splitInit {head : Condition} {e : Misread} (h : splitInit head = .error e) :
    e.position = head.position := by
  unfold splitInit at h
  split at h
  · cases h
  · cases h
  · cases h
    rfl

theorem consumes_nextClause (fuel : Nat) (hts : Input ts) :
    Consumes (fun u c => c.marks ⊆ u) ts (nextClause fuel ts) := by
  rw [nextClause]
  split
  · next e hread => exact mem_of_assignment? hts hread
  · next a rest hread =>
      obtain ⟨u, hu, -⟩ := past_of_assignment? hts hread
      exact ⟨u, hu, List.nil_subset _⟩
  · split
    · refine (consumes_command fuel true hts).map (fun _ _ => rfl) fun u c _ hu => ?_
      exact List.cons_subset.mpr ⟨hu, List.nil_subset _⟩
    · exact .fail hts

theorem consumes_loopMode (fuel : Nat) (hts : Input ts) :
    Consumes (fun u mode => mode.marks ⊆ u) ts (loopMode fuel ts) := by
  rw [loopMode]
  split
  · exact ⟨[], hts.refl, List.nil_subset _⟩
  split
  · obtain ⟨u, hu⟩ := hts.exists_advance
    refine .after hu (((consumesExpressions fuel).expression 0 _ hu.1).map (fun _ _ => rfl) ?_)
    exact fun _ _ _ _ => List.nil_subset _
  split
  · have hgoals := consumes_targets fuel hts
    split
    · next e hread => exact hgoals.of_error hread
    · next goals us hread =>
        obtain ⟨u, hu, -⟩ := hgoals.of_ok hread
        obtain ⟨v, hv⟩ := hu.1.exists_advance
        refine .after (hu.trans hv) ((consumes_loopSource fuel hv.1).map (fun _ _ => rfl) ?_)
        exact fun x source _ hx p hp => List.mem_append_right _ (hx hp)
  · have hhead := consumes_condition fuel hts
    split
    · next e hread => exact hhead.of_error hread
    · next head us hread =>
        obtain ⟨u, hu, hmarks⟩ := hhead.of_ok hread
        split
        · split
          · next e hsplit =>
              -- The clause that opens the header is looked for at the condition it was read as.
              rw [Consumes, position_of_splitInit hsplit]
              exact hu.mem_of_taken (hmarks head.position_mem_marks)
          · next init test hsplit =>
              have hparts :=
                List.append_subset.mp (List.Subset.trans (marks_of_splitInit hsplit) hmarks)
              obtain ⟨v, hv⟩ := hu.1.exists_advance
              refine .after (hu.trans hv)
                ((consumes_nextClause fuel hv.1).map (fun _ _ => rfl) fun x next _ hx => ?_)
              refine List.append_subset.mpr ⟨?_, List.append_subset.mpr ⟨?_, ?_⟩⟩
              · exact fun p hp => List.mem_append_left _ (List.mem_append_left _ (hparts.1 hp))
              · exact fun p hp => List.mem_append_left _ (List.mem_append_left _ (hparts.2 hp))
              · exact fun p hp => List.mem_append_right _ (hx hp)
        · exact ⟨u, hu, hmarks⟩

/-! ## Statements without a body -/

theorem consumes_levels (hts : Input ts) : Consumes Any ts (levels ts) := by
  unfold levels
  split
  · next n hkind =>
      split
      · exact .fail hts
      · exact ⟨_, hts.advance_of_kind (by simp [hkind]), trivial⟩
  · exact ⟨[], hts.refl, trivial⟩

theorem consumes_simpleStatement (fuel : Nat) (hts : Input ts) :
    Consumes (fun u s => u ≠ [] ∧ ((∃ a, s = .assign a ∧ a.position = here ts) ∨
      ∃ e, s = .expression e (here ts))) ts (simpleStatement fuel ts) := by
  rw [simpleStatement]
  split
  · next e hread => exact mem_of_assignment? hts hread
  · next a rest hread =>
      obtain ⟨u, hu, hne, hposition⟩ := past_of_assignment? hts hread
      exact ⟨u, hu, hne, .inl ⟨a, rfl, hposition⟩⟩
  · refine ((consumesExpressions fuel).expression 0 ts hts).map (fun _ _ => rfl) fun u e _ hu => ?_
    exact ⟨hu, .inr ⟨e, rfl⟩⟩

end Grammar

end TabPilot
