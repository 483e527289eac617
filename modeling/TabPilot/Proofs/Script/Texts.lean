import TabPilot.Proofs.Script.Places
import TabPilot.Proofs.Script.Slots
import TabPilot.Proofs.Script.Parsed

set_option autoImplicit false

/-! # The texts of a script

Every function of the grammar keeps the texts that it takes: they fill the slots of what is read, in
order, and each says there what it said as a token.
-/

namespace TabPilot.Grammar

variable {ts rest : List Token}

/-! ## Variables and assignments -/

theorem keepsTexts_reference (fuel : Nat) : KeepsTexts Variable.slots (reference fuel) := by
  intro ts v rest hts h
  unfold reference at h
  split at h
  · next hkind =>
      have hname := hts.skips_variable hkind
      obtain ⟨steps, _, ⟨⟩, hsteps⟩ := (keepsExpressions fuel).accessors.of_map hname.input h
      exact hname.after hsteps
  · cases h

/-- A loop over elements keeps the texts of all of them. -/
theorem CommaLoop.keepsTexts {α : Type} {loop : Nat → List Token → Parsed (List α)}
    {element : Nat → List Token → Parsed α} {skip : List Token → List Token}
    {slots : α → List TextSlot}
    (hloop : CommaLoop loop element skip)
    (hskip : ∀ ts, Input ts → FillsUpTo ts [] (skip ts))
    (helement : ∀ fuel, KeepsTexts slots (element fuel)) :
    ∀ fuel, KeepsTexts (fun as => as.flatMap slots) (loop fuel)
  | 0 => fun _ _ _ _ h => absurd h (hloop.zero _ _)
  | fuel + 1 => by
      intro ts as rest hts h
      rw [hloop.succ] at h
      split at h
      · cases h
      · next first us hread =>
          have hfirst := helement fuel _ _ _ hts hread
          split at h
          · next hcomma =>
              have hcomma := hfirst.input.skips_at hcomma
              have hcomma := hcomma.before (hskip _ hcomma.input)
              have hloop := CommaLoop.keepsTexts hloop hskip helement fuel
              obtain ⟨more, _, ⟨⟩, hmore⟩ := hloop.of_map hcomma.input h
              exact hfirst.trans (hcomma.after hmore)
          · cases h
            exact hfirst.trans (.refl hfirst.input)

theorem keepsTexts_target (fuel : Nat) : KeepsTexts Target.slots (target fuel) := by
  intro ts t rest hts h
  rw [target] at h
  split at h
  · next hskip =>
      cases h
      exact hts.skips_atWord hskip
  · obtain ⟨v, _, ⟨⟩, hv⟩ := (keepsTexts_reference fuel).of_map hts h
    exact hv

theorem keepsTexts_targets (fuel : Nat) :
    KeepsTexts (fun ts => ts.flatMap Target.slots) (targets fuel) :=
  commaLoop_targets.keepsTexts (fun _ h => .refl h) keepsTexts_target fuel

theorem keepsTexts_sources (fuel : Nat) :
    KeepsTexts (fun es => es.flatMap Expr.slots) (sources fuel) :=
  commaLoop_sources.keepsTexts (fun _ h => h.skips_newlines)
    (fun fuel => (keepsExpressions fuel).expression 0) fuel

theorem keepsTexts_references (fuel : Nat) :
    KeepsTexts (fun vs => vs.flatMap Variable.slots) (references fuel) :=
  commaLoop_references.keepsTexts (fun _ h => .refl h) keepsTexts_reference fuel

theorem fillsUpTo_assignment? {fuel : Nat} {a : Assignment} (hts : Input ts)
    (h : assignment? fuel ts = .ok (some (a, rest))) : FillsUpTo ts a.slots rest := by
  rw [assignment?] at h
  split at h
  · cases h
  · split at h
    · cases h
    · next goals us hread =>
        have hgoals := keepsTexts_targets fuel _ _ _ hts hread
        split at h
        · cases h
        · next op hop =>
            have hsign : FillsUpTo us [] (advance us) :=
              hgoals.input.skips fun content interpolated hkind => by
                rw [hkind] at hop
                cases hop
            obtain ⟨⟨values, vs⟩, hreadValues, heq⟩ := exists_of_map_eq_ok h
            cases heq
            exact hgoals.trans
              (hsign.after (keepsTexts_sources fuel _ _ _ hsign.input hreadValues))

/-! ## Commands -/

theorem keepsTexts_qualified : ∀ fuel name,
    KeepsTexts (fun _ : String => []) (qualified fuel name)
  | 0, _ => fun _ _ _ _ h => by cases h
  | fuel + 1, name => by
      intro ts result rest hts h
      rw [qualified] at h
      split at h
      · next hcolons =>
          have hcolons := hts.skips_at hcolons
          dsimp only at h
          split at h
          · next w hkind =>
              have hword := hcolons.after (hcolons.input.skips_word hkind)
              exact hword.after (keepsTexts_qualified fuel _ _ _ _ hword.input h)
          · cases h
      · cases h
        exact .refl hts

theorem keepsTexts_argument (fuel : Nat) : KeepsTexts argumentSlots (argument fuel) := by
  intro ts id rest hts h
  rw [argument] at h
  split at h
  · obtain ⟨e, _, ⟨⟩, he⟩ := ((keepsExpressions fuel).expression 0).of_map hts h
    exact he
  · cases h
    exact .refl hts

theorem keepsTexts_options (fuel : Nat) (inHeader : Bool) :
    KeepsTexts optionSlots (options fuel inHeader) := by
  intro ts opts rest hts h
  rw [options] at h
  split at h
  · next hstarts =>
      rw [startsOptions, Bool.and_eq_true] at hstarts
      have hopen := (hts.skips_at hstarts.1).lines
      split at h
      · cases h
      · next es us hread =>
          have hes := hopen.after ((keepsExpressions fuel).entries _ _ _ hopen.input hread)
          obtain ⟨rfl, hclosed⟩ := hes.closed_map h
          exact hclosed
  · cases h
    exact .refl hts

theorem keepsTexts_destination (fuel : Nat) :
    KeepsTexts Destination.slots (destination fuel) := by
  intro ts goal rest hts h
  rw [destination] at h
  split at h
  · cases h
    exact .refl hts
  · next harrow =>
      have harrow := hts.skips_at (by simpa using harrow)
      dsimp only at h
      split at h
      · obtain ⟨v, _, ⟨⟩, hv⟩ := (keepsTexts_reference fuel).of_map harrow.input h
        exact harrow.after hv
      · next content interpolated hkind =>
          cases h
          exact harrow.after (harrow.input.takes_memberName (by rw [hkind]; rfl))
      · next w hkind =>
          split at h
          · cases h
            exact harrow.after (harrow.input.skips_word hkind)
          · cases h
      · cases h

theorem keepsTexts_command (fuel : Nat) (inHeader : Bool) :
    KeepsTexts Command.slots (command fuel inHeader) := by
  intro ts c rest hts h
  rw [command] at h
  split at h
  · next w hkind =>
      have hword := hts.skips_word hkind
      split at h
      · cases h
      · next name afterName hreadName =>
          have hname := hword.after (keepsTexts_qualified fuel w _ _ _ hword.input hreadName)
          split at h
          · cases h
          · next id afterId hreadId =>
              have hid := hname.after (keepsTexts_argument fuel _ _ _ hname.input hreadId)
              split at h
              · cases h
              · next opts afterOptions hreadOptions =>
                  have hopts := keepsTexts_options fuel inHeader _ _ _ hid.input hreadOptions
                  obtain ⟨goal, _, ⟨⟩, hgoal⟩ := (keepsTexts_destination fuel).of_map hopts.input h
                  exact hid.trans (hopts.trans hgoal)
  · cases h

theorem keepsTexts_commandSequence : ∀ fuel,
    KeepsTexts (fun cs => cs.flatMap Command.slots) (commandSequence fuel)
  | 0 => fun _ _ _ _ h => by cases h
  | fuel + 1 => by
      intro ts cs rest hts h
      rw [commandSequence] at h
      split at h
      · cases h
      · next first us hread =>
          have hfirst := keepsTexts_command fuel false _ _ _ hts hread
          split at h
          · next hsemicolon =>
              rw [Bool.and_eq_true] at hsemicolon
              have hsemicolon := hfirst.input.skips_at hsemicolon.1
              have hloop := keepsTexts_commandSequence fuel
              obtain ⟨more, _, ⟨⟩, hmore⟩ := hloop.of_map hsemicolon.input h
              exact hfirst.trans (hsemicolon.after hmore)
          · cases h
            exact hfirst.trans (.refl hfirst.input)

/-! ## Conditions -/

theorem fillsUpTo_comparator? {op : Comparator} (hts : Input ts)
    (h : comparator? ts = some (op, rest)) : FillsUpTo ts [] rest := by
  unfold comparator? at h
  split at h
  all_goals next hkind =>
    first
      | (cases h; exact hts.skips (by simp [hkind]))
      | cases h
      | (have hnot := hts.skips_word hkind
         split at h
         · next hkind =>
             cases h
             exact hnot.after (hnot.input.skips_word hkind)
         · cases h)

theorem keepsTexts_comparison (fuel : Nat) (negated : Bool) (start : Position) :
    KeepsTexts Condition.slots (comparison fuel negated start) := by
  intro ts c rest hts h
  rw [comparison] at h
  split at h
  · cases h
  · next lhs us hread =>
      have hlhs := (keepsExpressions fuel).expression 0 _ _ _ hts hread
      split at h
      · cases h
        exact hlhs.trans (.refl hlhs.input)
      · next op vs hop =>
          have hop := fillsUpTo_comparator? hlhs.input hop
          obtain ⟨rhs, _, ⟨⟩, hrhs⟩ := ((keepsExpressions fuel).expression 0).of_map hop.input h
          exact hlhs.trans (hop.after hrhs)

theorem keepsTexts_condition : ∀ fuel, KeepsTexts Condition.slots (condition fuel)
  | 0 => fun _ _ _ _ h => by cases h
  | fuel + 1 => by
      intro ts c rest hts h
      have hnot : FillsUpTo ts [] (if atWord "not" ts = true then advance ts else ts) := by
        split
        · next hnot => exact hts.skips_atWord hnot
        · exact .refl hts
      rw [condition] at h
      dsimp only at h
      generalize (if atWord "not" ts = true then advance ts else ts) = ts' at hnot h
      refine hnot.after ?_
      split at h
      · cases h
      · next first us hread =>
          have hfirst := fillsUpTo_assignment? hnot.input hread
          split at h
          · cases h
          · next vs hsemicolon =>
              have hsemicolon := hfirst.input.skips_expect hsemicolon
              obtain ⟨more, _, ⟨⟩, hmore⟩ := (keepsTexts_condition fuel).of_map hsemicolon.input h
              exact hfirst.trans (hsemicolon.after hmore)
      · split at h
        · split at h
          · cases h
          · next first us hread =>
              have hfirst := keepsTexts_command fuel true _ _ _ hnot.input hread
              split at h
              · next hsemicolon =>
                  have hsemicolon := hfirst.input.skips_at hsemicolon
                  have hrest := keepsTexts_condition fuel
                  obtain ⟨more, _, ⟨⟩, hmore⟩ := hrest.of_map hsemicolon.input h
                  exact hfirst.trans (hsemicolon.after hmore)
              · cases h
                exact hfirst
        · exact keepsTexts_comparison fuel _ _ _ _ _ hnot.input h

/-! ## Loop headers -/

theorem keepsTexts_loopSource (fuel : Nat) : KeepsTexts LoopSource.slots (loopSource fuel) := by
  intro ts source rest hts h
  unfold loopSource at h
  split at h
  · obtain ⟨v, _, ⟨⟩, hv⟩ := (keepsTexts_reference fuel).of_map hts h
    exact hv
  · split at h
    · obtain ⟨c, _, ⟨⟩, hc⟩ := (keepsTexts_command fuel true).of_map hts h
      exact hc
    · cases h

theorem slots_splitInit {head test : Condition} {init : Clause}
    (h : splitInit head = .ok (init, test)) : head.slots = init.slots ++ test.slots := by
  unfold splitInit at h
  split at h
  · cases h
    rfl
  · cases h
    rfl
  · cases h

theorem keepsTexts_nextClause (fuel : Nat) : KeepsTexts Clause.slots (nextClause fuel) := by
  intro ts clause rest hts h
  rw [nextClause] at h
  split at h
  · cases h
  · next a us hread =>
      cases h
      exact fillsUpTo_assignment? hts hread
  · split at h
    · obtain ⟨c, _, ⟨⟩, hc⟩ := (keepsTexts_command fuel true).of_map hts h
      exact hc
    · cases h

theorem keepsTexts_loopMode (fuel : Nat) : KeepsTexts LoopMode.slots (loopMode fuel) := by
  intro ts mode rest hts h
  rw [loopMode] at h
  split at h
  · cases h
    exact .refl hts
  split at h
  · next hcount =>
      have hcount := hts.skips_atWord hcount
      have htimes := (keepsExpressions fuel).expression 0
      obtain ⟨times, _, ⟨⟩, htimes⟩ := htimes.of_map hcount.input h
      exact hcount.after htimes
  split at h
  · next hitems =>
      split at h
      · cases h
      · next goals us hread =>
          have hgoals := keepsTexts_targets fuel _ _ _ hts hread
          -- The word behind the targets is the one that the look-ahead has seen.
          obtain ⟨-, w, hword⟩ := targets_of_isItemsHeader fuel hitems hread
          have hword := hgoals.input.skips_word hword
          obtain ⟨source, _, ⟨⟩, hsource⟩ := (keepsTexts_loopSource fuel).of_map hword.input h
          exact hgoals.trans (hword.after hsource)
  · split at h
    · cases h
    · next head us hread =>
        have hhead := keepsTexts_condition fuel _ _ _ hts hread
        split at h
        · next hsemicolon =>
            have hsemicolon := hhead.input.skips_at hsemicolon
            split at h
            · cases h
            · next init test hsplit =>
                have hnext := keepsTexts_nextClause fuel
                obtain ⟨next, _, ⟨⟩, hnext⟩ := hnext.of_map hsemicolon.input h
                have hall := hhead.trans (hsemicolon.after hnext)
                rwa [slots_splitInit hsplit, List.append_assoc] at hall
        · cases h
          exact hhead

/-! ## Statements -/

theorem keepsTexts_levels : KeepsTexts (fun _ : Nat => []) levels := by
  intro ts n rest hts h
  unfold levels at h
  split at h
  · next i hkind =>
      split at h
      · cases h
      · cases h
        exact hts.skips (by simp [hkind])
  · cases h
    exact .refl hts

theorem keepsTexts_simpleStatement (fuel : Nat) :
    KeepsTexts Statement.slots (simpleStatement fuel) := by
  intro ts s rest hts h
  rw [simpleStatement] at h
  split at h
  · cases h
  · next a us hread =>
      cases h
      exact fillsUpTo_assignment? hts hread
  · obtain ⟨e, _, ⟨⟩, he⟩ := ((keepsExpressions fuel).expression 0).of_map hts h
    exact he

/-- What the functions that read statements do with texts when they may go as deep as `fuel`. -/
structure KeepsStatements (fuel : Nat) : Prop where
  statement : KeepsTexts Statement.slots (statement fuel)
  branch : KeepsTexts Branch.slots (branch fuel)
  alternatives : KeepsTexts (fun x => branchSlots x.1 ++ otherwiseSlots x.2) (alternatives fuel)
  body : KeepsTexts statementSlots (body fuel)
  statements : KeepsTexts statementSlots (statements fuel)

section

variable {fuel : Nat} (ih : KeepsStatements fuel)
include ih

theorem keepsTexts_statement : KeepsTexts Statement.slots (statement (fuel + 1)) := by
  intro ts s rest hts h
  rw [statement] at h
  split at h
  · next w hkind =>
      have hword := hts.skips_word hkind
      split at h
      · split at h
        · cases h
        · next first us hread =>
            have hfirst := hword.after (ih.branch _ _ _ hword.input hread)
            obtain ⟨⟨⟨others, otherwise⟩, vs⟩, hreadRest, heq⟩ := exists_of_map_eq_ok h
            cases heq
            exact hfirst.trans (ih.alternatives _ _ _ hfirst.input hreadRest)
      · split at h
        · cases h
        · next mode us hread =>
            have hmode := hword.after (keepsTexts_loopMode fuel _ _ _ hword.input hread)
            obtain ⟨inner, _, ⟨⟩, hinner⟩ := ih.body.of_map hmode.input h
            exact hmode.trans hinner
      · obtain ⟨vs, _, ⟨⟩, hvs⟩ := (keepsTexts_references fuel).of_map hword.input h
        exact hword.after hvs
      · obtain ⟨n, _, ⟨⟩, hn⟩ := keepsTexts_levels.of_map hword.input h
        exact hword.after hn
      · obtain ⟨n, _, ⟨⟩, hn⟩ := keepsTexts_levels.of_map hword.input h
        exact hword.after hn
      · split at h
        · obtain ⟨cs, _, ⟨⟩, hcs⟩ := (keepsTexts_commandSequence fuel).of_map hts h
          exact hcs
        · exact keepsTexts_simpleStatement fuel _ _ _ hts h
  · exact keepsTexts_simpleStatement fuel _ _ _ hts h

theorem keepsTexts_branch : KeepsTexts Branch.slots (branch (fuel + 1)) := by
  intro ts b rest hts h
  rw [branch] at h
  split at h
  · cases h
  · next test us hread =>
      have htest := keepsTexts_condition fuel _ _ _ hts hread
      obtain ⟨inner, _, ⟨⟩, hinner⟩ := ih.body.of_map htest.input h
      exact htest.trans hinner

theorem keepsTexts_alternatives :
    KeepsTexts (fun x => branchSlots x.1 ++ otherwiseSlots x.2) (alternatives (fuel + 1)) := by
  intro ts x rest hts h
  rw [alternatives] at h
  dsimp only at h
  split at h
  · cases h
    exact .refl hts
  · next helse =>
      have hlines := hts.skips_newlines
      have helse := hlines.after (hlines.input.skips_atWord (by simpa using helse))
      split at h
      · next hif =>
          have hif := helse.after (helse.input.skips_atWord hif)
          split at h
          · cases h
          · next first us hread =>
              have hfirst := hif.after (ih.branch _ _ _ hif.input hread)
              obtain ⟨⟨⟨others, otherwise⟩, vs⟩, hreadRest, heq⟩ := exists_of_map_eq_ok h
              cases heq
              have hall := hfirst.trans (ih.alternatives _ _ _ hfirst.input hreadRest)
              rwa [← List.append_assoc] at hall
      · obtain ⟨inner, _, ⟨⟩, hinner⟩ := ih.body.of_map helse.input h
        exact helse.after hinner

theorem keepsTexts_body : KeepsTexts statementSlots (body (fuel + 1)) := by
  intro ts inner rest hts h
  rw [body] at h
  split at h
  · cases h
  · next us hopen =>
      have hopen := (FillsUpTo.refl hts).closed hopen
      have hopen := hopen.before hopen.input.skips_separators
      exact hopen.after (ih.statements _ _ _ hopen.input h)

theorem keepsTexts_statements : KeepsTexts statementSlots (statements (fuel + 1)) := by
  intro ts ss rest hts h
  rw [statements] at h
  split at h
  · next hclose =>
      cases h
      exact hts.skips_at hclose
  split at h
  · cases h
  split at h
  · cases h
  · split at h
    · cases h
    · next first us hread =>
        have hfirst := ih.statement _ _ _ hts hread
        split at h
        · have hends := hfirst.input.skips_separators
          obtain ⟨more, _, ⟨⟩, hmore⟩ := ih.statements.of_map hends.input h
          exact hfirst.trans (hends.after hmore)
        · cases h

end

/-- **Statements.** The texts of a statement fill its slots, those of its bodies included. -/
theorem keepsStatements : ∀ fuel, KeepsStatements fuel
  | 0 => {
      statement := fun _ _ _ _ h => by cases h
      branch := fun _ _ _ _ h => by cases h
      alternatives := fun _ _ _ _ h => by cases h
      body := fun _ _ _ _ h => by cases h
      statements := fun _ _ _ _ h => by cases h }
  | fuel + 1 =>
      have ih := keepsStatements fuel
      { statement := keepsTexts_statement ih
        branch := keepsTexts_branch ih
        alternatives := keepsTexts_alternatives ih
        body := keepsTexts_body ih
        statements := keepsTexts_statements ih }

/-! ## Scripts -/

/-- A handler is read behind its first token, the word `on`. -/
theorem keepsTexts_handler {fuel : Nat} {h : Handler} (hts : Input ts)
    (hon : atWord "on" ts = true) (hread : handler fuel ts = .ok (h, rest)) :
    FillsUpTo ts h.slots rest := by
  have hon := hts.skips_atWord hon
  rw [handler] at hread
  dsimp only at hread
  split at hread
  · next pattern interpolated hkind =>
      have hname := hon.after (hon.input.takes_memberName (by rw [hkind]; rfl))
      have hisolated : FillsUpTo (advance (advance ts)) []
          (if atWord "isolated" (advance (advance ts)) = true then advance (advance (advance ts))
            else advance (advance ts)) := by
        split
        · next hisolated => exact hname.input.skips_atWord hisolated
        · exact .refl hname.input
      obtain ⟨inner, _, ⟨⟩, hinner⟩ := (keepsStatements fuel).body.of_map hisolated.input hread
      exact hname.trans (hisolated.after hinner)
  · cases hread

theorem keepsTexts_block (fuel : Nat) : KeepsTexts blockSlots (block fuel) := by
  intro ts item rest hts h
  rw [block] at h
  split at h
  · next hon =>
      obtain ⟨⟨h', us⟩, hread, heq⟩ := exists_of_map_eq_ok h
      cases heq
      exact keepsTexts_handler hts hon hread
  · obtain ⟨s, _, ⟨⟩, hs⟩ := (keepsStatements fuel).statement.of_map hts h
    exact hs

/-- The statements and handlers of a script are read up to the end of the input. -/
theorem exists_of_topLevel : ∀ fuel {ts : List Token} {items : List Item}, Input ts →
    topLevel fuel ts = .ok items →
      ∃ last, FillsUpTo ts (items.flatMap blockSlots) last ∧ kind last = .endOfInput
  | 0, _, _, _, h => by cases h
  | fuel + 1, ts, items, hts, h => by
      cases hend : (kind ts).isEnd with
      | true =>
          rw [topLevel, hend] at h
          cases h
          refine ⟨ts, .refl hts, ?_⟩
          cases hkind : kind ts <;> simp [hkind, TokenKind.isEnd] at hend
          rfl
      | false =>
          rw [topLevel_eq hend] at h
          split at h
          · cases h
          · next item us hread =>
              have hitem := keepsTexts_block fuel _ _ _ hts hread
              split at h
              · have hends := hitem.input.skips_separators
                obtain ⟨more, hmore, rfl⟩ := exists_of_map_eq_ok h
                obtain ⟨last, hlast, hkind⟩ := exists_of_topLevel fuel hends.input hmore
                exact ⟨last, hitem.trans (hends.after hlast), hkind⟩
              · cases h

end TabPilot.Grammar

namespace TabPilot

open Grammar

/-- Nothing but the last token of a text is the end of the input. -/
theorem Token.Covers.fills_last {cs : List Char} {previous : Option TokenKind} {e : Nat}
    {us last : List Token} (h : Token.Covers cs previous e (us ++ last))
    (hlast : Grammar.kind last = .endOfInput) : Fills last [] := by
  induction us generalizing previous e with
  | nil =>
      cases h with
      | last _ _ => exact .other (fun _ _ => nofun) .nil
      | next _ _ _ _ spells _ _ _ =>
          rw [Grammar.kind] at hlast
          rw [hlast] at spells
          cases spells
  | cons t us ih =>
      generalize hall : t :: us ++ last = ts at h
      cases h with
      | last _ _ =>
          obtain ⟨-, hnil⟩ := List.cons.inj hall
          obtain ⟨-, rfl⟩ := List.append_eq_nil_iff.mp hnil
          exact .nil
      | next _ _ _ _ _ _ _ rest =>
          obtain ⟨-, rfl⟩ := List.cons.inj hall
          exact ih rest

/-! ## Texts in single quotes -/

namespace Lexeme

/-- Only a text in single quotes is spelled with a single quote in front. -/
theorem exists_of_single_quote {previous : Option TokenKind} {k : TokenKind} {cs : List Char}
    (h : Spells previous k cs) (hquote : cs.head? = some '\'') :
    ∃ body text, Quoted '\'' body text ∧ k = .text (String.ofList text) false ∧
      cs = '\'' :: (body ++ ['\'']) := by
  have hdigits {ds more : List Char} (hds : IsDigits ds) : (ds ++ more).head? ≠ some '\'' := by
    obtain ⟨d, ds, rfl⟩ := List.exists_cons_of_ne_nil hds.1
    intro heq
    cases heq
    exact absurd (hds.2 '\'' List.mem_cons_self) (by decide)
  cases h with
  | newline => cases hquote
  | symbol s => cases s <;> exact absurd hquote (by decide)
  | word isWord =>
      obtain ⟨c, rest, hw, hstart, -⟩ := isWord
      rw [hw] at hquote
      cases hquote
      exact absurd hstart (by decide +kernel)
  | «variable» => cases hquote
  | int isDigits =>
      rw [← List.append_nil cs] at hquote
      exact absurd hquote (hdigits isDigits)
  | float _ isDigits =>
      rw [List.append_assoc] at hquote
      exact absurd hquote (hdigits isDigits)
  | single quoted => exact ⟨_, _, quoted, rfl, rfl⟩
  | double => cases hquote
  | lines => cases hquote
  | pattern => cases hquote

end Lexeme

theorem positionAt_inj {cs : List Char} {j k : Nat} (hj : j ≤ cs.length) (hk : k ≤ cs.length)
    (h : positionAt cs j = positionAt cs k) : j = k := by
  rcases Nat.lt_trichotomy j k with hlt | heq | hlt
  · exact absurd h (positionAt_before hlt hk).ne
  · exact heq
  · exact absurd h.symm (positionAt_before hlt hj).ne

/-- The token that stands where a text in single quotes is written is this text. -/
theorem Token.Covers.kind_of_quoted {cs after content : List Char} {previous : Option TokenKind}
    {e k : Nat} {ts : List Token} (h : Token.Covers cs previous e ts) (hk : k ≤ cs.length)
    (hcs : cs.drop k = Piece.quoted '\'' content ++ after) :
    ∀ t ∈ ts, t.position = positionAt cs k → t.kind = .text (String.ofList content) false := by
  induction h with
  | last _ _ =>
      refine List.forall_mem_singleton.mpr fun hposition => ?_
      rw [← positionAt_inj (Nat.le_refl _) hk hposition, List.drop_length] at hcs
      cases hcs
  | @next previous e s e' t ts after' forward within _ spells position _ rest ih =>
      refine List.forall_mem_cons.mpr ⟨fun hposition => ?_, ih⟩
      obtain rfl : s = k := positionAt_inj (by omega) hk (position.symm.trans hposition)
      have hsplit : cs.drop s = cs.extract s e' ++ cs.drop e' := by
        have hdrop : cs.drop e' = (cs.drop s).drop (e' - s) := by
          rw [List.drop_drop]
          congr 1
          omega
        rw [hdrop, List.extract_eq_take_drop, List.take_append_drop]
      have hhead : (cs.extract s e').head? = some '\'' := by
        cases hchars : cs.extract s e' with
        | nil =>
            have hlength := congrArg List.length hchars
            simp only [List.extract_eq_take_drop, List.length_take, List.length_drop,
              List.length_nil] at hlength
            omega
        | cons c chars =>
            rw [hchars, hcs] at hsplit
            obtain ⟨rfl, -⟩ := List.cons.inj hsplit
            rfl
      obtain ⟨body, text, hquoted, hkind, hchars⟩ := Lexeme.exists_of_single_quote spells hhead
      -- Both ways of reading what stands behind the quote come to the same text.
      have hread := Lexeme.quoted?_of_quoted (by decide) hquoted (cs.drop e')
      have hread' := Lexeme.quoted?_flatMap_escaped (.inr rfl) content after
      rw [hcs, hchars, Piece.quoted] at hsplit
      simp only [List.cons_append, List.append_assoc, List.nil_append, List.cons.injEq,
        true_and] at hsplit
      rw [← hsplit, hread'] at hread
      obtain ⟨rfl, -⟩ := Prod.mk.inj (Option.some.inj hread)
      exact hkind

/-! ## Texts and slots of a script -/

/-- The slots of a script, where its statements and handlers stand among each other as they are
written. -/
def Script.HasSlots (script : Script) (ss : List TextSlot) : Prop :=
  ∃ items : List Item, script.statements = items.filterMap Sum.getLeft? ∧
    script.handlers = items.filterMap Sum.getRight? ∧ ss = items.flatMap blockSlots

/-- **The texts of a script.** The texts among the tokens of a script fill its slots, in order and
each as it stands. -/
theorem Script.fills_of_parse {source : String} {script : Script} {ts : List Token}
    (hscan : Token.scan source.toList = .ok ts) (h : Script.parse source = .ok script) :
    ∃ ss, script.HasSlots ss ∧ Fills ts ss := by
  have hcovers := Token.covers_of_scan hscan
  unfold Script.parse at h
  split at h
  · next read hread =>
      cases h
      rw [Script.read, hscan] at hread
      obtain ⟨⟨statements, handlers⟩, hblocks, heq⟩ := exists_of_map_eq_ok hread
      obtain ⟨items, hitems, heq'⟩ := exists_of_map_eq_ok hblocks
      cases heq
      cases heq'
      refine ⟨_, ⟨items, rfl, rfl, rfl⟩, ?_⟩
      have hfirst := hcovers.input.skips_separators
      obtain ⟨last, hlast, hkind⟩ := exists_of_topLevel _ hfirst.input hitems
      obtain ⟨us, rfl, hus⟩ := (hfirst.after hlast).taken
      have hall := hus.append (hcovers.fills_last hkind)
      rwa [List.append_nil] at hall
  · cases h

def Token.StartsAt (cs : List Char) (k : Nat) : Prop :=
  ∃ ts, Token.scan cs = .ok ts ∧ ∃ t ∈ ts, t.position = positionAt cs k

/-- A slot of a script is filled by the token that starts at an offset of its text: the texts in
front of it fill the slots in front, and those behind it the slots behind. -/
def Script.SlotAt (script : Script) (k : Nat) (slot : TextSlot) : Prop :=
  ∃ ts t ts' front back, Token.scan script.source.toList = .ok (ts ++ t :: ts') ∧
    t.position = positionAt script.source.toList k ∧ script.HasSlots (front ++ slot :: back) ∧
      Fills ts front ∧ Fills ts' back

theorem Script.source_of_parse {source : String} {script : Script}
    (h : Script.parse source = .ok script) : script.source = source := by
  unfold Script.parse Script.read at h
  split at h
  · next read hread =>
      cases h
      split at hread
      · cases hread
      · obtain ⟨⟨statements, handlers⟩, -, rfl⟩ := exists_of_map_eq_ok hread
        rfl
  · cases h

/-- A text in single quotes fills a slot with exactly this text, as an operand that is no template
or as a name. -/
theorem Script.slotAt_of_quoted {source content : String} {script : Script}
    {before after : List Char}
    (hsource : source.toList = before ++ (Piece.quoted '\'' content.toList ++ after))
    (hstart : Token.StartsAt source.toList before.length)
    (h : Script.parse source = .ok script) :
    script.SlotAt before.length (.operand content false) ∨
      script.SlotAt before.length (.name content) := by
  obtain ⟨ts, hscan, t, hmem, hposition⟩ := hstart
  have hlength : before.length ≤ source.toList.length := by
    rw [hsource, List.length_append]
    omega
  have hdrop : source.toList.drop before.length = Piece.quoted '\'' content.toList ++ after := by
    rw [hsource, List.drop_left]
  have hkind := (Token.covers_of_scan hscan).kind_of_quoted hlength hdrop t hmem hposition
  rw [String.ofList_toList] at hkind
  obtain ⟨ss, hslots, hfills⟩ := fills_of_parse hscan h
  obtain ⟨us, us', rfl⟩ := List.append_of_mem hmem
  obtain ⟨front, slot, back, rfl, hfront, hback, hslot⟩ := hfills.exists_slot hkind
  have hat : script.SlotAt before.length slot := by
    unfold SlotAt
    rw [source_of_parse h]
    exact ⟨us, t, us', front, back, hscan, hposition, hslots, hfront, hback⟩
  rcases hslot with rfl | rfl
  · exact .inl hat
  · exact .inr hat

end TabPilot
