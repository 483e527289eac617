import TabPilot.Proofs.Script.Scanned
import TabPilot.Proofs.Script.Blocks

set_option autoImplicit false

/-! # What is read is well formed

Only well-formed scripts are read. Besides the shape of names and numbers, this says which parts
of a tree cannot be empty, and what the grammar decides by looking ahead: a command in a header
has no empty options, a test in front of a semicolon ends in a comparison, a loop header that is
no count does not start with the word of one. The main statement is `Script.wellFormed_of_parse`.
-/

namespace TabPilot.Grammar

open Token

/-! ## Assignments -/

/-- A loop over elements gives at least one of them. -/
theorem CommaLoop.gives {α : Type} {loop : Nat → List Token → Parsed (List α)}
    {element : Nat → List Token → Parsed α} {skip : List Token → List Token} {P : α → Prop}
    (hloop : CommaLoop loop element skip)
    (hskip : ∀ ts, AllWellFormed ts → AllWellFormed (skip ts))
    (helement : ∀ fuel, Gives P (element fuel)) :
    ∀ fuel, Gives (fun as => as ≠ [] ∧ ∀ a ∈ as, P a) (loop fuel)
  | 0 => fun _ _ _ _ h => absurd h (hloop.zero _ _)
  | fuel + 1 => by
      intro ts as rest hts h
      rw [hloop.succ] at h
      split at h
      · cases h
      · next first us hread =>
          obtain ⟨hfirst, hus⟩ := helement fuel _ _ _ hts hread
          split at h
          · obtain ⟨⟨more, vs⟩, hmore, heq⟩ := exists_of_map_eq_ok h
            -- That there are more elements is not used: the first one makes the list non-empty.
            obtain ⟨⟨-, has⟩, hvs⟩ :=
              CommaLoop.gives hloop hskip helement fuel _ _ _ (hskip _ hus.advance) hmore
            cases heq
            exact ⟨⟨List.cons_ne_nil _ _, List.forall_mem_cons.mpr ⟨hfirst, has⟩⟩, hvs⟩
          · cases h
            exact ⟨⟨List.cons_ne_nil _ _, List.forall_mem_singleton.mpr hfirst⟩, hus⟩

theorem gives_target (fuel : Nat) : Gives Target.WellFormed (target fuel) := by
  intro ts t rest hts h
  rw [target] at h
  split at h
  · cases h
    exact ⟨trivial, hts.advance⟩
  · obtain ⟨⟨v, us⟩, hread, heq⟩ := exists_of_map_eq_ok h
    cases heq
    exact gives_reference fuel _ _ _ hts hread

theorem gives_targets (fuel : Nat) :
    Gives (fun ts => ts ≠ [] ∧ ∀ t ∈ ts, t.WellFormed) (targets fuel) :=
  commaLoop_targets.gives (fun _ h => h) gives_target fuel

theorem gives_sources (fuel : Nat) :
    Gives (fun es => es ≠ [] ∧ ∀ e ∈ es, e.WellFormed) (sources fuel) :=
  commaLoop_sources.gives (fun _ h => h.skipNewlines)
    (fun fuel => (readsWell fuel).expression 0) fuel

theorem gives_references (fuel : Nat) :
    Gives (fun vs => vs ≠ [] ∧ ∀ v ∈ vs, v.WellFormed) (references fuel) :=
  commaLoop_references.gives (fun _ h => h) gives_reference fuel

/-- An assignment that is read is well formed. -/
theorem wellFormed_assignment? {fuel : Nat} {ts rest : List Token} {a : Assignment}
    (hts : AllWellFormed ts) (h : assignment? fuel ts = .ok (some (a, rest))) :
    a.WellFormed ∧ AllWellFormed rest := by
  rw [assignment?] at h
  split at h
  · cases h
  · split at h
    · cases h
    · next goals after hread =>
        obtain ⟨hgoals, hafter⟩ := gives_targets fuel _ _ _ hts hread
        split at h
        · cases h
        · obtain ⟨⟨values, us⟩, hreadValues, heq⟩ := exists_of_map_eq_ok h
          obtain ⟨hvalues, hus⟩ := gives_sources fuel _ _ _ hafter.advance hreadValues
          cases heq
          exact ⟨⟨hgoals, hvalues⟩, hus⟩

/-! ## Names of commands -/

/-- A name is joined from words: none of their characters is a colon, so they are its parts. -/
theorem nameParts_words {part : List Char} (hpart : ':' ∉ part) (rest : List Char) :
    nameParts (part ++ ':' :: ':' :: rest) = part :: nameParts rest := by
  induction part with
  | nil => rfl
  | cons c part ih =>
      have hc : c ≠ ':' := fun h => hpart (by rw [h]; exact List.mem_cons_self)
      have ih := ih fun h => hpart (List.mem_cons_of_mem _ h)
      rw [List.cons_append, nameParts, ih]
      -- The other equation of `nameParts` is for a colon in front.
      intro rest' hcolon
      exact absurd hcolon hc

theorem nameParts_word {part : List Char} (hpart : ':' ∉ part) : nameParts part = [part] := by
  induction part with
  | nil => rfl
  | cons c part ih =>
      have hc : c ≠ ':' := fun h => hpart (by rw [h]; exact List.mem_cons_self)
      have ih := ih fun h => hpart (List.mem_cons_of_mem _ h)
      rw [nameParts, ih]
      intro rest' hcolon
      exact absurd hcolon hc

theorem colon_not_mem {w : String} (h : IsWord w) : ':' ∉ w.toList := by
  intro hcolon
  have hword := Lexeme.all_isWordChar h ':' hcolon
  exact absurd hword (by decide)

/-- The parts of a name that was joined from words are the words. -/
theorem nameParts_foldl (parts : List String) (hparts : ∀ p ∈ parts, IsWord p) :
    ∀ {w : String}, IsWord w →
      nameParts (parts.foldl (fun name part => name ++ "::" ++ part) w).toList =
        w.toList :: parts.map String.toList := by
  -- Joined, the parts are the first word and the others with double colons in front of them.
  have hflat : ∀ (parts : List String) (w : String),
      (parts.foldl (fun name part => name ++ "::" ++ part) w).toList =
        w.toList ++ parts.flatMap fun part => ':' :: ':' :: part.toList := by
    intro parts
    induction parts with
    | nil => simp
    | cons part parts ih =>
        intro w
        rw [List.foldl_cons, ih, List.flatMap_cons]
        simp [String.toList_append]
  induction parts with
  | nil =>
      intro w hw
      exact nameParts_word (colon_not_mem hw)
  | cons part parts ih =>
      intro w hw
      have hpart : IsWord part := hparts part List.mem_cons_self
      have ih := ih (fun p hp => hparts p (List.mem_cons_of_mem _ hp)) hpart
      rw [hflat] at ih ⊢
      rw [List.map_cons, ← ih]
      exact nameParts_words (colon_not_mem hw) _

/-- A name that was joined from words, of which the first may start a command, is a command's. -/
theorem isCommandName_foldl {w : String} {parts : List String} (hw : IsWord w)
    (hparts : ∀ p ∈ parts, IsWord p) (hreserved : isReserved w = false) (hskip : w ≠ "_") :
    IsCommandName (parts.foldl (fun name part => name ++ "::" ++ part) w) ∧
      firstPart (parts.foldl (fun name part => name ++ "::" ++ part) w) = w := by
  have hnames := nameParts_foldl parts hparts hw
  have hfirst : firstPart (parts.foldl (fun name part => name ++ "::" ++ part) w) = w := by
    rw [firstPart, hnames, List.headD_cons, String.ofList_toList]
  refine ⟨⟨fun part hpart => ?_, by rw [hfirst]; exact hreserved, by rw [hfirst]; exact hskip⟩,
    hfirst⟩
  rw [hnames] at hpart
  rcases List.mem_cons.mp hpart with rfl | hpart
  · rw [String.ofList_toList]
    exact hw
  · obtain ⟨p, hp, rfl⟩ := List.mem_map.mp hpart
    rw [String.ofList_toList]
    exact hparts p hp

theorem exists_of_qualified : ∀ fuel {name result : String} {ts rest : List Token},
    AllWellFormed ts → qualified fuel name ts = .ok (result, rest) →
      ∃ parts : List String, (∀ p ∈ parts, IsWord p) ∧
        result = parts.foldl (fun name part => name ++ "::" ++ part) name ∧ AllWellFormed rest
  | 0, _, _, _, _, _, h => by cases h
  | fuel + 1, name, result, ts, rest, hts, h => by
      rw [qualified] at h
      split at h
      · dsimp only at h
        split at h
        · next w hk =>
            have hw : IsWord w := by
              have hkind := hts.advance.kind
              rw [hk] at hkind
              exact hkind
            obtain ⟨parts, hparts, rfl, hrest⟩ := exists_of_qualified fuel hts.advance.advance h
            exact ⟨w :: parts, List.forall_mem_cons.mpr ⟨hw, hparts⟩, rfl, hrest⟩
        · cases h
      · cases h
        exact ⟨[], List.forall_mem_nil _, rfl, hts⟩

/-! ## Commands -/

theorem gives_argument (fuel : Nat) :
    Gives (fun id => ∀ e ∈ id, e.WellFormed) (argument fuel) := by
  intro ts id rest hts h
  rw [argument] at h
  split at h
  · obtain ⟨⟨e, us⟩, hread, heq⟩ := exists_of_map_eq_ok h
    obtain ⟨he, hus⟩ := (readsWell fuel).expression _ _ _ _ hts hread
    cases heq
    exact ⟨fun x hx => Option.some.inj hx ▸ he, hus⟩
  · cases h
    exact ⟨by simp, hts⟩

theorem entriesWellFormed_iff {es : List (String × Expr)} :
    entriesWellFormed es ↔ ∀ m ∈ es, m.2.WellFormed := by
  induction es with
  | nil => simp [entriesWellFormed]
  | cons m es ih =>
      obtain ⟨name, e⟩ := m
      simp [entriesWellFormed, ih]

/-- Entries are not empty unless the braces close at once. -/
theorem entries_ne_nil {fuel : Nat} {ts rest : List Token} {es : List (String × Expr)}
    (hname : (memberName? (kind ts)).isSome = true) (h : entries fuel ts = .ok (es, rest)) :
    es ≠ [] := by
  cases fuel with
  | zero => cases h
  | succ fuel =>
      -- What may name a member is no closing brace, so a member is read or the reading fails.
      have hclose : at? .closeBrace ts = false := by
        rw [at?]
        unfold memberName? at hname
        split at hname
        · next hk => rw [hk]; rfl
        · next hk => rw [hk]; rfl
        · cases hname
      rw [entries, hclose] at h
      simp only [Bool.false_eq_true, if_false] at h
      split at h
      · cases h
      · split at h
        · cases h
        · split at h
          · cases h
          · split at h
            · split at h
              · cases h
                exact List.cons_ne_nil _ _
              · cases h
            · cases h
              exact List.cons_ne_nil _ _

theorem gives_options (fuel : Nat) (inHeader : Bool) :
    Gives (fun os => (∀ members ∈ os, ∀ m ∈ members, m.2.WellFormed) ∧
      (inHeader = true → os ≠ some [])) (options fuel inHeader) := by
  intro ts os rest hts h
  rw [options] at h
  split at h
  · next hstart =>
      split at h
      · cases h
      · next es us hread =>
          obtain ⟨hes, hus⟩ := (readsWell fuel).entries _ _ _ hts.advance.skipNewlines hread
          obtain ⟨vs, hclose, heq⟩ := exists_of_map_eq_ok h
          cases heq
          refine ⟨⟨?_, ?_⟩, hus.skipNewlines.expect hclose⟩
          · intro members hmembers
            obtain rfl := Option.some.inj hmembers
            exact entriesWellFormed_iff.mp hes
          -- In a header the look-ahead has seen the name of a member.
          · rintro rfl hempty
            obtain rfl := Option.some.inj hempty
            simp only [startsOptions, Bool.and_eq_true, Bool.not_true, Bool.false_or] at hstart
            exact entries_ne_nil hstart.2.1 hread rfl
  · cases h
    exact ⟨⟨by simp, by simp⟩, hts⟩

theorem gives_destination (fuel : Nat) : Gives Destination.WellFormed (destination fuel) := by
  intro ts d rest hts h
  rw [destination] at h
  split at h
  · cases h
    exact ⟨trivial, hts⟩
  · dsimp only at h
    split at h
    · obtain ⟨⟨v, us⟩, hread, heq⟩ := exists_of_map_eq_ok h
      cases heq
      exact gives_reference fuel _ _ _ hts.advance hread
    · cases h
      exact ⟨trivial, hts.advance.advance⟩
    · split at h
      · cases h
        exact ⟨trivial, hts.advance.advance⟩
      · cases h
    · cases h

/-- A command that is read where one starts is well formed. -/
theorem wellFormed_command {fuel : Nat} {inHeader : Bool} {ts rest : List Token} {c : Command}
    (hts : AllWellFormed ts) (hstart : startsCommand ts = true)
    (h : command fuel inHeader ts = .ok (c, rest)) :
    c.WellFormed ∧ (inHeader = true → c.FitsHeader) ∧ kind ts = .word (firstPart c.name) ∧
      AllWellFormed rest := by
  have hkind := hts.kind
  rw [command] at h
  split at h
  · next w hk =>
      rw [hk] at hkind
      split at h
      · cases h
      · next name afterName hname =>
          obtain ⟨parts, hparts, rfl, hafterName⟩ := exists_of_qualified fuel hts.advance hname
          split at h
          · cases h
          · next id afterId hreadId =>
              obtain ⟨hid, hafterId⟩ := gives_argument fuel _ _ _ hafterName hreadId
              split at h
              · cases h
              · next os afterOptions hreadOptions =>
                  obtain ⟨⟨hos, hfits⟩, hafterOptions⟩ :=
                    gives_options fuel inHeader _ _ _ hafterId hreadOptions
                  obtain ⟨⟨d, us⟩, hread, heq⟩ := exists_of_map_eq_ok h
                  obtain ⟨hd, hus⟩ := gives_destination fuel _ _ _ hafterOptions hread
                  rw [startsCommand, hk] at hstart
                  simp only [Bool.and_eq_true, Bool.not_eq_true', bne_iff_ne] at hstart
                  obtain ⟨hcommand, hfirst⟩ :=
                    isCommandName_foldl hkind hparts hstart.1 hstart.2
                  cases heq
                  exact ⟨⟨hcommand, hid, hos, hd⟩, hfits, by rw [hk, hfirst], hus⟩
  · cases h

/-- Commands that are read where one starts are well formed. -/
theorem wellFormed_commandSequence : ∀ fuel {ts rest : List Token} {cs : List Command},
    AllWellFormed ts → startsCommand ts = true → commandSequence fuel ts = .ok (cs, rest) →
      (cs ≠ [] ∧ ∀ c ∈ cs, c.WellFormed) ∧ AllWellFormed rest
  | 0, _, _, _, _, _, h => by cases h
  | fuel + 1, ts, rest, cs, hts, hstart, h => by
      rw [commandSequence] at h
      split at h
      · cases h
      · next first us hread =>
          obtain ⟨hfirst, -, -, hus⟩ := wellFormed_command hts hstart hread
          split at h
          · next hmore =>
              simp only [Bool.and_eq_true] at hmore
              obtain ⟨⟨more, vs⟩, hreadMore, heq⟩ := exists_of_map_eq_ok h
              obtain ⟨⟨-, hcs⟩, hvs⟩ :=
                wellFormed_commandSequence fuel hus.advance hmore.2 hreadMore
              cases heq
              exact ⟨⟨List.cons_ne_nil _ _, List.forall_mem_cons.mpr ⟨hfirst, hcs⟩⟩, hvs⟩
          · cases h
            exact ⟨⟨List.cons_ne_nil _ _, List.forall_mem_singleton.mpr hfirst⟩, hus⟩

/-! ## Conditions -/

theorem AllWellFormed.comparator? {ts rest : List Token} {op : Comparator}
    (hts : AllWellFormed ts) (h : comparator? ts = some (op, rest)) : AllWellFormed rest := by
  unfold Grammar.comparator? at h
  split at h <;> first
    | (cases h; exact hts.advance)
    | (split at h <;> first | (cases h; exact hts.advance.advance) | cases h)
    | cases h

theorem gives_comparison (fuel : Nat) (negated : Bool) (start : Position) :
    Gives (fun c => c.WellFormed ∧ ∃ lhs compared, c = .comparison negated start lhs compared)
      (comparison fuel negated start) := by
  intro ts c rest hts h
  rw [comparison] at h
  split at h
  · cases h
  · next lhs us hread =>
      obtain ⟨hlhs, hus⟩ := (readsWell fuel).expression _ _ _ _ hts hread
      split at h
      · cases h
        exact ⟨⟨hlhs, _, _, rfl⟩, hus⟩
      · next op vs hop =>
          obtain ⟨⟨rhs, ws⟩, hreadRhs, heq⟩ := exists_of_map_eq_ok h
          obtain ⟨hrhs, hws⟩ :=
            (readsWell fuel).expression _ _ _ _ (AllWellFormed.comparator? hus hop) hreadRhs
          cases heq
          exact ⟨⟨⟨hlhs, hrhs⟩, _, _, rfl⟩, hws⟩

/-- What is read as a condition is well formed. In front of a semicolon it ends in a comparison,
and it starts with no word of a loop header unless the tokens do. -/
theorem wellFormed_condition : ∀ fuel {ts rest : List Token} {c : Condition}, AllWellFormed ts →
    condition fuel ts = .ok (c, rest) →
      c.WellFormed ∧ (at? .semicolon rest = true → c.EndsInComparison) ∧
        (atWord "count" ts = false → c.OpensLoop) ∧ AllWellFormed rest
  | 0, _, _, _, _, h => by cases h
  | fuel + 1, ts, rest, c, hts, h => by
      rw [condition] at h
      dsimp only at h
      have hstart : AllWellFormed (if atWord "not" ts = true then advance ts else ts) := by
        split
        · exact hts.advance
        · exact hts
      have hsame : atWord "not" ts = false →
          (if atWord "not" ts = true then advance ts else ts) = ts := by
        intro hnot
        rw [hnot]
        rfl
      -- Whether `not` stands in front, and the tokens behind it, are all that matters from here on.
      generalize (if atWord "not" ts = true then advance ts else ts) = us at h hstart hsame
      generalize atWord "not" ts = negated at h hsame
      split at h
      · cases h
      · next first vs hread =>
          obtain ⟨hfirst, hvs⟩ := wellFormed_assignment? hstart hread
          split at h
          · cases h
          · next ws hsemicolon =>
              obtain ⟨⟨c', xs⟩, hreadRest, heq⟩ := exists_of_map_eq_ok h
              obtain ⟨hc', hends, -, hxs⟩ :=
                wellFormed_condition fuel (hvs.expect hsemicolon) hreadRest
              cases heq
              exact ⟨⟨hfirst, hc'⟩, hends, fun _ => trivial, hxs⟩
      · split at h
        · next hcommand =>
            split at h
            · cases h
            · next first vs hread =>
                obtain ⟨hfirst, hfits, hname, hvs⟩ := wellFormed_command hstart hcommand hread
                -- Without a `not` the command's name is the first word of the tokens.
                have hopens : negated = false → atWord "count" ts = false → first.OpensLoop := by
                  intro hnegated hcount
                  rw [← hsame hnegated, atWord, hname] at hcount
                  exact of_decide_eq_false hcount
                split at h
                · obtain ⟨⟨c', xs⟩, hreadRest, heq⟩ := exists_of_map_eq_ok h
                  obtain ⟨hc', hends, -, hxs⟩ := wellFormed_condition fuel hvs.advance hreadRest
                  cases heq
                  refine ⟨⟨hfirst, hfits rfl, hc'⟩, hends, fun hcount => ?_, hxs⟩
                  cases negated with
                  | false => exact hopens rfl hcount
                  | true => trivial
                · next hsemicolon =>
                    cases h
                    refine ⟨⟨hfirst, hfits rfl⟩, fun h => absurd h hsemicolon,
                      fun hcount => ?_, hvs⟩
                    cases negated with
                    | false => exact hopens rfl hcount
                    | true => trivial
        · obtain ⟨⟨hc, lhs, compared, rfl⟩, hrest⟩ := gives_comparison fuel _ _ _ _ _ hstart h
          refine ⟨hc, fun _ => trivial, fun _ => trivial, hrest⟩

/-! ## Headers of loops -/

theorem gives_loopSource (fuel : Nat) : Gives LoopSource.WellFormed (loopSource fuel) := by
  intro ts s rest hts h
  rw [loopSource] at h
  split at h
  · obtain ⟨⟨v, us⟩, hread, heq⟩ := exists_of_map_eq_ok h
    cases heq
    exact gives_reference fuel _ _ _ hts hread
  · split at h
    · next hstart =>
        obtain ⟨⟨c, us⟩, hread, heq⟩ := exists_of_map_eq_ok h
        obtain ⟨hc, hfits, -, hus⟩ := wellFormed_command hts hstart hread
        cases heq
        exact ⟨⟨hc, hfits rfl⟩, hus⟩
    · cases h

theorem gives_nextClause (fuel : Nat) : Gives Clause.WellFormed (nextClause fuel) := by
  intro ts c rest hts h
  rw [nextClause] at h
  split at h
  · cases h
  · next a us hread =>
      cases h
      exact wellFormed_assignment? hts hread
  · split at h
    · next hstart =>
        obtain ⟨⟨c, us⟩, hread, heq⟩ := exists_of_map_eq_ok h
        obtain ⟨hc, hfits, -, hus⟩ := wellFormed_command hts hstart hread
        cases heq
        exact ⟨⟨hc, hfits rfl⟩, hus⟩
    · cases h

/-- A variable in front of a comma or a word has no accessors. -/
theorem accessors_eq_nil {fuel : Nat} {ts rest : List Token} {steps : List Accessor}
    (hdot : at? .dot ts = false) (hbracket : at? .openBracket ts = false)
    (h : accessors fuel ts = .ok (steps, rest)) : steps = [] ∧ rest = ts := by
  cases fuel with
  | zero => cases h
  | succ fuel =>
      unfold accessors at h
      split at h
      · cases hdot
      · cases hbracket
      · cases h
        exact ⟨rfl, rfl⟩

/-- What stands behind a target in the header of a loop: a comma and more targets, or a word. -/
theorem exists_of_isItemsHeader {ts : List Token} (h : isItemsHeader ts = true) :
    ∃ t sep more, ts = t :: sep :: more ∧ at? .dot (sep :: more) = false ∧
      at? .openBracket (sep :: more) = false ∧
        ((at? .comma (sep :: more) = true ∧ isItemsHeader more = true) ∨
          at? .comma (sep :: more) = false ∧ ∃ w, sep.kind = .word w) := by
  cases ts with
  | nil => cases h
  | cons t ts =>
      cases ts with
      | nil =>
          rw [isItemsHeader] at h
          simp at h
      | cons sep more =>
          refine ⟨t, sep, more, rfl, ?_⟩
          rw [isItemsHeader] at h
          simp only [Bool.and_eq_true] at h
          obtain ⟨-, h⟩ := h
          simp only [at?, kind]
          split at h
          · next hk =>
              rw [hk]
              exact ⟨rfl, rfl, .inl ⟨rfl, h⟩⟩
          · next w hk =>
              rw [hk]
              exact ⟨rfl, rfl, .inr ⟨rfl, w, rfl⟩⟩
          · cases h

/-- The targets of a loop have no accessors, and a word stands behind them. -/
theorem targets_of_isItemsHeader : ∀ fuel {ts rest : List Token} {goals : List Target},
    isItemsHeader ts = true → targets fuel ts = .ok (goals, rest) →
      (∀ t ∈ goals, t.IsBare) ∧ ∃ w, kind rest = .word w
  | 0, _, _, _, _, h => by cases h
  | fuel + 1, ts, rest, goals, hitems, h => by
      obtain ⟨t, sep, more, rfl, hdot, hbracket, hnext⟩ := exists_of_isItemsHeader hitems
      rw [targets] at h
      dsimp only at h
      split at h
      · cases h
      · next target us hfirst =>
          -- The look-ahead has seen a comma or a word behind the target, so no accessor follows.
          have htarget : target.IsBare ∧ us = sep :: more := by
            split at hfirst
            · cases hfirst
              exact ⟨trivial, rfl⟩
            · obtain ⟨⟨v, vs⟩, hread, heq⟩ := exists_of_map_eq_ok hfirst
              cases heq
              unfold reference at hread
              split at hread
              · obtain ⟨⟨steps, ws⟩, hsteps, heq⟩ := exists_of_map_eq_ok hread
                cases heq
                exact accessors_eq_nil hdot hbracket hsteps
              · cases hread
          obtain ⟨hbare, rfl⟩ := htarget
          rcases hnext with ⟨hcomma, hitems⟩ | ⟨hcomma, hword⟩
          · rw [if_pos hcomma] at h
            have hadvance : advance (sep :: more) = more := by
              refine advance_cons ?_
              rintro rfl
              cases hitems
            obtain ⟨⟨goals', vs⟩, hread, heq⟩ := exists_of_map_eq_ok h
            rw [hadvance] at hread
            cases heq
            obtain ⟨hmore, hend⟩ := targets_of_isItemsHeader fuel hitems hread
            exact ⟨List.forall_mem_cons.mpr ⟨hbare, hmore⟩, hend⟩
          · rw [hcomma] at h
            cases h
            exact ⟨List.forall_mem_singleton.mpr hbare, hword⟩

/-- A condition that is split into a clause and a test gives well-formed ones. -/
theorem wellFormed_splitInit {c test : Condition} {init : Clause} (hc : c.WellFormed)
    (hends : c.EndsInComparison) (hopens : c.OpensLoop) (h : splitInit c = .ok (init, test)) :
    init.WellFormed ∧ init.OpensLoop ∧ test.WellFormed ∧ test.EndsInComparison := by
  unfold splitInit at h
  split at h
  · cases h
    exact ⟨hc.1, trivial, hc.2, hends⟩
  · cases h
    exact ⟨⟨hc.1, hc.2.1⟩, hopens, hc.2.2, hends⟩
  · cases h

theorem gives_loopMode (fuel : Nat) : Gives LoopMode.WellFormed (loopMode fuel) := by
  intro ts m rest hts h
  rw [loopMode] at h
  split at h
  · cases h
    exact ⟨trivial, hts⟩
  · split at h
    · obtain ⟨⟨times, us⟩, hread, heq⟩ := exists_of_map_eq_ok h
      cases heq
      exact (readsWell fuel).expression _ _ _ _ hts.advance hread
    · next hcount =>
        split at h
        · next hitems =>
            split at h
            · cases h
            · next goals us hread =>
                obtain ⟨⟨hne, hgoals⟩, hus⟩ := gives_targets fuel _ _ _ hts hread
                obtain ⟨hbare, -⟩ := targets_of_isItemsHeader fuel hitems hread
                obtain ⟨⟨source, vs⟩, hreadSource, heq⟩ := exists_of_map_eq_ok h
                obtain ⟨hsource, hvs⟩ := gives_loopSource fuel _ _ _ hus.advance hreadSource
                cases heq
                exact ⟨⟨hne, fun t ht => ⟨hgoals t ht, hbare t ht⟩, hsource⟩, hvs⟩
        · split at h
          · cases h
          · next head us hread =>
              obtain ⟨hhead, hends, hopens, hus⟩ := wellFormed_condition fuel hts hread
              -- The header was not taken for a count.
              have hopens := hopens (Bool.eq_false_iff.mpr hcount)
              split at h
              · next hsemicolon =>
                  split at h
                  · cases h
                  · next init test hsplit =>
                      obtain ⟨hinit, hinitOpens, htest, htestEnds⟩ :=
                        wellFormed_splitInit hhead (hends hsemicolon) hopens hsplit
                      obtain ⟨⟨next, vs⟩, hreadNext, heq⟩ := exists_of_map_eq_ok h
                      obtain ⟨hnext, hvs⟩ := gives_nextClause fuel _ _ _ hus.advance hreadNext
                      cases heq
                      exact ⟨⟨hinit, hinitOpens, htest, htestEnds, hnext⟩, hvs⟩
              · cases h
                exact ⟨⟨hhead, hopens⟩, hus⟩

/-! ## Statements -/

theorem gives_levels : Gives (fun n : Nat => 1 ≤ n ∧ (n : Int) < Word.signedLimit) levels := by
  intro ts n rest hts h
  have hkind := hts.kind
  rw [levels] at h
  split at h
  · next i hk =>
      rw [hk] at hkind
      split at h
      · cases h
      · cases h
        obtain ⟨hlow, hhigh⟩ := hkind
        exact ⟨⟨by omega, by omega⟩, hts.advance⟩
  · cases h
    exact ⟨⟨Nat.le_refl 1, by decide⟩, hts⟩

theorem gives_simpleStatement (fuel : Nat) :
    Gives Statement.WellFormed (simpleStatement fuel) := by
  intro ts s rest hts h
  rw [simpleStatement] at h
  split at h
  · cases h
  · next a us hread =>
      cases h
      exact wellFormed_assignment? hts hread
  · obtain ⟨⟨e, us⟩, hread, heq⟩ := exists_of_map_eq_ok h
    cases heq
    exact (readsWell fuel).expression _ _ _ _ hts hread

/-- What the functions give that read statements, when they may go as deep as `fuel`. -/
structure ReadsStatements (fuel : Nat) : Prop where
  statement : Gives Statement.WellFormed (statement fuel)
  branch : Gives Branch.WellFormed (branch fuel)
  alternatives : Gives (fun x => branchesWellFormed x.1 ∧ otherwiseWellFormed x.2)
    (alternatives fuel)
  body : Gives statementsWellFormed (body fuel)
  statements : Gives statementsWellFormed (statements fuel)

section

variable {fuel : Nat} (ih : ReadsStatements fuel)
include ih

theorem gives_statement : Gives Statement.WellFormed (statement (fuel + 1)) := by
  intro ts s rest hts h
  rw [statement] at h
  -- The keywords in the order of `statement`; anything else is a simple statement.
  split at h
  · split at h
    · split at h
      · cases h
      · next first us hread =>
          obtain ⟨hfirst, hus⟩ := ih.branch _ _ _ hts.advance hread
          obtain ⟨⟨⟨others, otherwise⟩, vs⟩, hreadRest, heq⟩ := exists_of_map_eq_ok h
          obtain ⟨⟨hothers, hotherwise⟩, hvs⟩ := ih.alternatives _ _ _ hus hreadRest
          cases heq
          exact ⟨⟨hfirst, hothers, hotherwise⟩, hvs⟩
    · split at h
      · cases h
      · next mode us hread =>
          obtain ⟨hmode, hus⟩ := gives_loopMode fuel _ _ _ hts.advance hread
          obtain ⟨⟨inner, vs⟩, hreadBody, heq⟩ := exists_of_map_eq_ok h
          obtain ⟨hinner, hvs⟩ := ih.body _ _ _ hus hreadBody
          cases heq
          exact ⟨⟨hmode, hinner⟩, hvs⟩
    · obtain ⟨⟨vs, us⟩, hread, heq⟩ := exists_of_map_eq_ok h
      cases heq
      exact gives_references fuel _ _ _ hts.advance hread
    · obtain ⟨⟨n, us⟩, hread, heq⟩ := exists_of_map_eq_ok h
      cases heq
      exact gives_levels _ _ _ hts.advance hread
    · obtain ⟨⟨n, us⟩, hread, heq⟩ := exists_of_map_eq_ok h
      cases heq
      exact gives_levels _ _ _ hts.advance hread
    · split at h
      · next hstart =>
          obtain ⟨⟨cs, us⟩, hread, heq⟩ := exists_of_map_eq_ok h
          cases heq
          exact wellFormed_commandSequence fuel hts hstart hread
      · exact gives_simpleStatement fuel _ _ _ hts h
  · exact gives_simpleStatement fuel _ _ _ hts h

theorem gives_branch : Gives Branch.WellFormed (branch (fuel + 1)) := by
  intro ts b rest hts h
  rw [branch] at h
  split at h
  · cases h
  · next test us hread =>
      obtain ⟨htest, -, -, hus⟩ := wellFormed_condition fuel hts hread
      obtain ⟨⟨inner, vs⟩, hreadBody, heq⟩ := exists_of_map_eq_ok h
      obtain ⟨hinner, hvs⟩ := ih.body _ _ _ hus hreadBody
      cases heq
      exact ⟨⟨htest, hinner⟩, hvs⟩

theorem gives_alternatives :
    Gives (fun x => branchesWellFormed x.1 ∧ otherwiseWellFormed x.2)
      (alternatives (fuel + 1)) := by
  intro ts x rest hts h
  rw [alternatives] at h
  dsimp only at h
  split at h
  · cases h
    exact ⟨⟨trivial, trivial⟩, hts⟩
  · split at h
    · split at h
      · cases h
      · next first us hread =>
          obtain ⟨hfirst, hus⟩ := ih.branch _ _ _ hts.skipNewlines.advance.advance hread
          obtain ⟨⟨⟨others, otherwise⟩, vs⟩, hreadRest, heq⟩ := exists_of_map_eq_ok h
          obtain ⟨⟨hothers, hotherwise⟩, hvs⟩ := ih.alternatives _ _ _ hus hreadRest
          cases heq
          exact ⟨⟨⟨hfirst, hothers⟩, hotherwise⟩, hvs⟩
    · obtain ⟨⟨inner, us⟩, hread, heq⟩ := exists_of_map_eq_ok h
      obtain ⟨hinner, hus⟩ := ih.body _ _ _ hts.skipNewlines.advance hread
      cases heq
      exact ⟨⟨trivial, hinner⟩, hus⟩

theorem gives_body : Gives statementsWellFormed (body (fuel + 1)) := by
  intro ts inner rest hts h
  rw [body] at h
  split at h
  · cases h
  · next us hopen =>
      exact ih.statements _ _ _ (hts.skipNewlines.expect hopen).skipSeparators h

theorem gives_statements : Gives statementsWellFormed (statements (fuel + 1)) := by
  intro ts ss rest hts h
  rw [statements] at h
  split at h
  · cases h
    exact ⟨trivial, hts.advance⟩
  · split at h
    · cases h
    · split at h
      · cases h
      · split at h
        · cases h
        · next first us hread =>
            obtain ⟨hfirst, hus⟩ := ih.statement _ _ _ hts hread
            split at h
            · obtain ⟨⟨more, vs⟩, hreadMore, heq⟩ := exists_of_map_eq_ok h
              obtain ⟨hmore, hvs⟩ := ih.statements _ _ _ hus.skipSeparators hreadMore
              cases heq
              exact ⟨⟨hfirst, hmore⟩, hvs⟩
            · cases h

end

/-- **Reading statements.** From well-formed tokens only well-formed statements are read. -/
theorem readsStatements : ∀ fuel, ReadsStatements fuel
  | 0 => {
      statement := fun _ _ _ _ h => by cases h
      branch := fun _ _ _ _ h => by cases h
      alternatives := fun _ _ _ _ h => by cases h
      body := fun _ _ _ _ h => by cases h
      statements := fun _ _ _ _ h => by cases h }
  | fuel + 1 =>
      have ih := readsStatements fuel
      { statement := gives_statement ih
        branch := gives_branch ih
        alternatives := gives_alternatives ih
        body := gives_body ih
        statements := gives_statements ih }

/-! ## Scripts -/

theorem gives_handler (fuel : Nat) :
    Gives (fun h => statementsWellFormed h.body) (handler fuel) := by
  intro ts h rest hts hread
  rw [handler] at hread
  dsimp only at hread
  split at hread
  · obtain ⟨⟨inner, us⟩, hreadBody, heq⟩ := exists_of_map_eq_ok hread
    cases heq
    refine (readsStatements fuel).body _ _ _ ?_ hreadBody
    split
    · exact hts.advance.advance.advance
    · exact hts.advance.advance
  · cases hread

theorem gives_block (fuel : Nat) : Gives BlockWellFormed (block fuel) := by
  intro ts item rest hts h
  rw [block] at h
  split at h
  · obtain ⟨⟨h', us⟩, hread, heq⟩ := exists_of_map_eq_ok h
    cases heq
    exact gives_handler fuel _ _ _ hts hread
  · obtain ⟨⟨s, us⟩, hread, heq⟩ := exists_of_map_eq_ok h
    cases heq
    exact (readsStatements fuel).statement _ _ _ hts hread

theorem wellFormed_topLevel : ∀ fuel {ts : List Token} {items : List Item}, AllWellFormed ts →
    topLevel fuel ts = .ok items → ∀ item ∈ items, BlockWellFormed item
  | 0, _, _, _, h => by cases h
  | fuel + 1, ts, items, hts, h => by
      cases hend : (kind ts).isEnd with
      | true =>
          rw [topLevel, hend] at h
          cases h
          exact List.forall_mem_nil _
      | false =>
          rw [topLevel_eq hend] at h
          split at h
          · cases h
          · next item us hread =>
              obtain ⟨hitem, hus⟩ := gives_block fuel _ _ _ hts hread
              split at h
              · obtain ⟨more, hmore, rfl⟩ := exists_of_map_eq_ok h
                exact List.forall_mem_cons.mpr
                  ⟨hitem, wellFormed_topLevel fuel hus.skipSeparators hmore⟩
              · cases h

end TabPilot.Grammar

namespace TabPilot.Script

open Grammar

/-- **What is read is well formed.** -/
theorem wellFormed_of_parse {source : String} {s : Script} (h : parse source = .ok s) :
    s.WellFormed := by
  unfold parse at h
  split at h
  · next script hread =>
      cases h
      unfold read at hread
      split at hread
      · cases hread
      · next ts hscan =>
          obtain ⟨⟨statements, handlers⟩, hblocks, heq⟩ := exists_of_map_eq_ok hread
          obtain ⟨items, hitems, heq'⟩ := exists_of_map_eq_ok hblocks
          have hts := Token.allWellFormed_scan hscan
          have hwf := wellFormed_topLevel _ hts.skipSeparators hitems
          cases heq
          cases heq'
          constructor
          · refine statementsWellFormed_iff.mpr fun t ht => ?_
            obtain ⟨item, hitem, hleft⟩ := List.mem_filterMap.mp ht
            obtain rfl := Sum.getLeft?_eq_some_iff.mp hleft
            exact hwf _ hitem
          · intro t ht
            obtain ⟨item, hitem, hright⟩ := List.mem_filterMap.mp ht
            obtain rfl := Sum.getRight?_eq_some_iff.mp hright
            exact hwf _ hitem
  · cases h

end TabPilot.Script
