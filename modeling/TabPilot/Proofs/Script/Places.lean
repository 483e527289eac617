import TabPilot.Proofs.Script.Blocks
import TabPilot.Proofs.Script.Consumed
import TabPilot.Proofs.Script.Covering

set_option autoImplicit false

/-! # Where the statements of a script stand

`Statement.marks` are the places that belong to a statement itself, and not to the statements in
its bodies. No two statements of a script that was read share such a place: `Laid` goes through the
functions of the grammar, by induction on how deep they may go, and keeps the places of what is
still being read apart from those of the statements inside it.
-/

namespace TabPilot

/-! ## Statements and their places -/

/-- The places of a statement itself: its own, and those of the commands and conditions that belong
directly to it. -/
def Statement.marks : Statement → List Position
  | .assign a => [a.position]
  | .unset _ p | .expression _ p | .jump _ _ p => [p]
  | .choice first others _ p => p :: (first :: others).flatMap fun b => b.test.marks
  | .loop mode _ p => p :: mode.marks
  | .commands cs p => p :: cs.map Command.position

theorem Statement.position_mem_marks (st : Statement) : st.position ∈ st.marks := by
  cases st <;> exact List.mem_cons_self

mutual

def Statement.within : Statement → List Statement
  | .choice first others otherwise p =>
      .choice first others otherwise p ::
        (first.within ++ (branchesWithin others ++ otherwiseWithin otherwise))
  | .loop mode body p => .loop mode body p :: statementsWithin body
  | .assign a => [.assign a]
  | .unset taken p => [.unset taken p]
  | .expression e p => [.expression e p]
  | .commands cs p => [.commands cs p]
  | .jump kind levels p => [.jump kind levels p]

def Branch.within : Branch → List Statement
  | .mk _ body => statementsWithin body

def branchesWithin : List Branch → List Statement
  | [] => []
  | b :: rest => b.within ++ branchesWithin rest

def otherwiseWithin : Option (List Statement) → List Statement
  | none => []
  | some body => statementsWithin body

def statementsWithin : List Statement → List Statement
  | [] => []
  | s :: rest => s.within ++ statementsWithin rest

end

theorem Statement.mem_within (st : Statement) : st ∈ st.within := by
  cases st <;> exact List.mem_cons_self

theorem Branch.within_eq (b : Branch) : b.within = statementsWithin b.body := by
  cases b
  rfl

theorem subset_branchesWithin {b : Branch} {branches : List Branch} (h : b ∈ branches) :
    b.within ⊆ branchesWithin branches := by
  induction branches with
  | nil => cases h
  | cons first rest ih =>
      rw [branchesWithin]
      rcases List.mem_cons.mp h with rfl | h
      · exact List.subset_append_left _ _
      · exact List.Subset.trans (ih h) (List.subset_append_right _ _)

def Script.everyStatement (script : Script) : List Statement :=
  statementsWithin script.statements ++ script.handlers.flatMap fun h => statementsWithin h.body

/-- Two statements share no place. -/
def Statement.Apart (s t : Statement) : Prop := s.marks.Disjoint t.marks

/-! ## Places that are being read -/

/-- Among the places `u` are `open_`, those of what is still being read, and those of the statements
`done` inside it; the former are not among the latter, and no two statements share any. -/
structure Spread (u open_ : List Position) (done : List Statement) : Prop where
  openHere : open_ ⊆ u
  doneHere : ∀ s ∈ done, s.marks ⊆ u
  beside : ∀ s ∈ done, s.marks.Disjoint open_
  apart : done.Pairwise Statement.Apart

/-- The places `u` are spread so if they are distinct. -/
def Laid (u open_ : List Position) (done : List Statement) : Prop := u.Nodup → Spread u open_ done

namespace Laid

variable {u v open_ open' : List Position} {done done' : List Statement}

theorem of_subset (h : open_ ⊆ u) : Laid u open_ [] := fun _ =>
  ⟨h, List.forall_mem_nil _, List.forall_mem_nil _, .nil⟩

theorem nothing (u : List Position) : Laid u [] [] := .of_subset (List.nil_subset u)

theorem append (h : Laid u open_ done) (h' : Laid v open' done') :
    Laid (u ++ v) (open_ ++ open') (done ++ done') := by
  intro hnodup
  obtain ⟨hu, hv, hdisjoint⟩ := List.nodup_append'.mp hnodup
  have hfirst := h hu
  have hsecond := h' hv
  -- What lies among the places `u` and what lies among `v` share nothing.
  have hcross {a b : List Position} (ha : a ⊆ u) (hb : b ⊆ v) : a.Disjoint b :=
    fun p hpa hpb => hdisjoint (ha hpa) (hb hpb)
  have hleft {a : List Position} (ha : a ⊆ u) : a ⊆ u ++ v := fun _ hp =>
    List.mem_append_left v (ha hp)
  have hright {b : List Position} (hb : b ⊆ v) : b ⊆ u ++ v := fun _ hp =>
    List.mem_append_right u (hb hp)
  refine ⟨?_, ?_, ?_, ?_⟩
  · exact List.append_subset.mpr ⟨hleft hfirst.openHere, hright hsecond.openHere⟩
  · intro s hs
    rcases List.mem_append.mp hs with hs | hs
    · exact hleft (hfirst.doneHere s hs)
    · exact hright (hsecond.doneHere s hs)
  · intro s hs
    rw [List.disjoint_append_right]
    rcases List.mem_append.mp hs with hs | hs
    · exact ⟨hfirst.beside s hs, hcross (hfirst.doneHere s hs) hsecond.openHere⟩
    · exact ⟨(hcross hfirst.openHere (hsecond.doneHere s hs)).symm, hsecond.beside s hs⟩
  · refine List.pairwise_append.mpr ⟨hfirst.apart, hsecond.apart, fun s hs t ht => ?_⟩
    exact hcross (hfirst.doneHere s hs) (hsecond.doneHere t ht)

/-- Behind some tokens. -/
theorem behind (u : List Position) (h : Laid v open_ done) : Laid (u ++ v) open_ done :=
  (Laid.nothing u).append h

/-- In front of some tokens. -/
theorem before (v : List Position) (h : Laid u open_ done) : Laid (u ++ v) open_ done := by
  have hboth := h.append (.nothing v)
  rwa [List.append_nil, List.append_nil] at hboth

/-- A statement has been read: its own places are no longer open. -/
theorem close (st : Statement) (h : Laid u open_ done) (hmarks : st.marks ⊆ open_) :
    Laid u [] (st :: done) := by
  intro hnodup
  obtain ⟨hopen, hdone, hbeside, hapart⟩ := h hnodup
  refine ⟨List.nil_subset _, ?_, ?_, ?_⟩
  · exact List.forall_mem_cons.mpr ⟨fun p hp => hopen (hmarks hp), hdone⟩
  · exact fun s _ => List.disjoint_nil_right _
  · refine List.pairwise_cons.mpr ⟨fun s hs => ?_, hapart⟩
    exact fun p hp hps => hbeside s hs hps (hmarks hp)

/-- A statement without a body. -/
theorem single {st : Statement} (hmarks : st.marks ⊆ u) : Laid u [] [st] :=
  (Laid.of_subset hmarks).close st (List.Subset.refl _)

end Laid

namespace Grammar

variable {ts rest : List Token} {u : List Position}

/-! ## Reading statements -/

/-- What the functions consume that read statements, when they may go as deep as `fuel`. -/
structure ConsumesStatements (fuel : Nat) : Prop where
  statement : ∀ ts, Input ts → Consumes (fun u s => Laid u [] s.within) ts (statement fuel ts)
  branch : ∀ ts, Input ts → Consumes (fun u b => Laid u b.test.marks b.within) ts (branch fuel ts)
  alternatives : ∀ ts, Input ts →
    Consumes (fun u x => Laid u (x.1.flatMap fun b => b.test.marks)
      (branchesWithin x.1 ++ otherwiseWithin x.2)) ts (alternatives fuel ts)
  body : ∀ ts, Input ts → Consumes (fun u ss => Laid u [] (statementsWithin ss)) ts (body fuel ts)
  statements : ∀ ts, Input ts →
    Consumes (fun u ss => Laid u [] (statementsWithin ss)) ts (statements fuel ts)

section

variable {fuel : Nat} (ih : ConsumesStatements fuel) (hts : Input ts)
include hts

theorem consumes_withoutBody :
    Consumes (fun u s => Laid u [] s.within) ts (simpleStatement fuel ts) := by
  refine (consumes_simpleStatement fuel hts).mono fun u s rest hpast hs => ?_
  have hhere := hpast.here_mem hs.1
  rcases hs.2 with ⟨a, rfl, ha⟩ | ⟨e, rfl⟩
  · exact .single (List.cons_subset.mpr ⟨ha ▸ hhere, List.nil_subset _⟩)
  · exact .single (List.cons_subset.mpr ⟨hhere, List.nil_subset _⟩)

include ih

theorem consumes_statement :
    Consumes (fun u s => Laid u [] s.within) ts (statement (fuel + 1) ts) := by
  rw [statement]
  split
  · next w hkind =>
      have hword := hts.advance_of_kind (by simp [hkind])
      have hhere : Laid [here ts] [here ts] [] := .of_subset (List.Subset.refl _)
      -- A statement that only has the place of its first word.
      have hplain {st : Statement} (hmarks : st.marks = [here ts]) (u : List Position) :
          Laid ([here ts] ++ u) [] [st] :=
        .single (hmarks ▸ List.subset_append_left _ _)
      split
      · have hfirst := ih.branch _ hword.1
        split
        · next e hread => exact .after hword (hfirst.of_error hread)
        · next first us hread =>
            obtain ⟨u, hu, hlaid⟩ := hfirst.of_ok hread
            refine .after (hword.trans hu)
              ((ih.alternatives us hu.1).map (fun _ _ => rfl) fun v x rest hx => ?_)
            have hall := hhere.append (hlaid.append hx)
            rw [← List.append_assoc] at hall
            exact hall.close (.choice first x.1 x.2 (here ts)) (List.Subset.refl _)
      · have hmode := consumes_loopMode fuel hword.1
        split
        · next e hread => exact .after hword (hmode.of_error hread)
        · next mode us hread =>
            obtain ⟨u, hu, hmarks⟩ := hmode.of_ok hread
            refine .after (hword.trans hu)
              ((ih.body us hu.1).map (fun _ _ => rfl) fun v inner rest hinner => ?_)
            have hall := hhere.append ((Laid.of_subset hmarks).append hinner)
            rw [← List.append_assoc, List.append_nil] at hall
            exact hall.close (.loop mode inner (here ts)) (List.Subset.refl _)
      · refine .after hword ((consumes_references fuel hword.1).map (fun _ _ => rfl) ?_)
        exact fun u _ _ _ => hplain rfl u
      · refine .after hword ((consumes_levels hword.1).map (fun _ _ => rfl) ?_)
        exact fun u _ _ _ => hplain rfl u
      · refine .after hword ((consumes_levels hword.1).map (fun _ _ => rfl) ?_)
        exact fun u _ _ _ => hplain rfl u
      · split
        · have hcommands : Consumes (fun u cs => here ts ∈ u ∧ ∀ c ∈ cs, c.position ∈ u) ts
              (commandSequence fuel ts) :=
            (consumes_commandSequence fuel hts).mono fun u _ _ hpast hu =>
              ⟨hpast.here_mem hu.1, hu.2⟩
          refine hcommands.map (fun _ _ => rfl) fun u cs _ hu => .single ?_
          refine List.cons_subset.mpr ⟨hu.1, fun p hp => ?_⟩
          obtain ⟨c, hc, rfl⟩ := List.mem_map.mp hp
          exact hu.2 c hc
        · exact consumes_withoutBody hts
  · exact consumes_withoutBody hts

theorem consumes_branch :
    Consumes (fun u b => Laid u b.test.marks b.within) ts (branch (fuel + 1) ts) := by
  have htest := consumes_condition fuel hts
  rw [branch]
  split
  · next e hread => exact htest.of_error hread
  · next test us hread =>
      obtain ⟨u, hu, hmarks⟩ := htest.of_ok hread
      refine .after hu ((ih.body us hu.1).map (fun _ _ => rfl) fun v inner _ hinner => ?_)
      have hall := (Laid.of_subset hmarks).append hinner
      rwa [List.append_nil] at hall

theorem consumes_alternatives :
    Consumes (fun u x => Laid u (x.1.flatMap fun b => b.test.marks)
      (branchesWithin x.1 ++ otherwiseWithin x.2)) ts (alternatives (fuel + 1) ts) := by
  obtain ⟨u, hu⟩ := hts.exists_skipNewlines
  rw [alternatives]
  dsimp only
  split
  · exact ⟨[], hts.refl, .nothing []⟩
  · obtain ⟨v, hv⟩ := hu.1.exists_advance
    split
    · obtain ⟨x, hx⟩ := hv.1.exists_advance
      have hword := hu.trans (hv.trans hx)
      have hfirst := ih.branch _ hx.1
      split
      · next e hread => exact .after hword (hfirst.of_error hread)
      · next first us hread =>
          obtain ⟨y, hy, hlaid⟩ := hfirst.of_ok hread
          refine .after (hword.trans hy)
            ((ih.alternatives us hy.1).map (fun _ _ => rfl) fun z others _ hothers => ?_)
          have hall := (hlaid.append hothers).behind (u ++ (v ++ x))
          rw [← List.append_assoc, ← List.append_assoc first.within] at hall
          exact hall
    · refine .after (hu.trans hv) ((ih.body _ hv.1).map (fun _ _ => rfl) ?_)
      exact fun z inner _ hinner => hinner.behind (u ++ v)

theorem consumes_body :
    Consumes (fun u ss => Laid u [] (statementsWithin ss)) ts (body (fuel + 1) ts) := by
  obtain ⟨u, hu⟩ := hts.exists_skipNewlines
  rw [body]
  split
  · next e hread => exact hu.mem (hu.1.mem_of_expect hread)
  · next us hread =>
      have hopen := hu.trans (hu.1.past_of_expect hread)
      obtain ⟨v, hv⟩ := hopen.1.exists_skipSeparators
      refine .after (hopen.trans hv) ((ih.statements _ hv.1).mono fun x ss _ _ hss => ?_)
      exact hss.behind _

theorem consumes_statements :
    Consumes (fun u ss => Laid u [] (statementsWithin ss)) ts (statements (fuel + 1) ts) := by
  rw [statements]
  split
  · obtain ⟨u, hu⟩ := hts.exists_advance
    exact ⟨u, hu, .nothing u⟩
  split
  · exact .fail hts
  split
  · exact .fail hts
  · have hfirst := ih.statement ts hts
    split
    · next e hread => exact hfirst.of_error hread
    · next first us hread =>
        obtain ⟨u, hu, hlaid⟩ := hfirst.of_ok hread
        split
        · obtain ⟨v, hv⟩ := hu.1.exists_skipSeparators
          refine .after (hu.trans hv)
            ((ih.statements _ hv.1).map (fun _ _ => rfl) fun x ss _ hss => ?_)
          exact (hlaid.before v).append hss
        · exact hu.mem hu.1.here_mem

end

/-- **Statements.** The places of a statement are those of tokens that it takes, and no two
statements among those that are read share any. -/
theorem consumesStatements : ∀ fuel, ConsumesStatements fuel
  | 0 => {
      statement := fun _ hts => .fail hts
      branch := fun _ hts => .fail hts
      alternatives := fun _ hts => .fail hts
      body := fun _ hts => .fail hts
      statements := fun _ hts => .fail hts }
  | fuel + 1 =>
      have ih := consumesStatements fuel
      { statement := fun _ hts => consumes_statement ih hts
        branch := fun _ hts => consumes_branch ih hts
        alternatives := fun _ hts => consumes_alternatives ih hts
        body := fun _ hts => consumes_body ih hts
        statements := fun _ hts => consumes_statements ih hts }

/-! ## Scripts -/

/-- The statements in a statement or a handler. -/
def itemWithin : Item → List Statement
  | .inl s => s.within
  | .inr h => statementsWithin h.body

theorem consumes_handler (fuel : Nat) (hts : Input ts) :
    Consumes (fun u h => Laid u [] (statementsWithin h.body)) ts (handler fuel ts) := by
  obtain ⟨u, hu⟩ := hts.exists_advance
  rw [handler]
  dsimp only
  split
  · obtain ⟨v, hv⟩ := hu.1.exists_advance
    have hname := hu.trans hv
    obtain ⟨x, hx⟩ : ∃ x, Past ts x (if atWord "isolated" (advance (advance ts)) = true then
        advance (advance (advance ts)) else advance (advance ts)) := by
      split
      · obtain ⟨x, hx⟩ := hname.1.exists_advance
        exact ⟨_, hname.trans hx⟩
      · exact ⟨_, hname⟩
    refine .after hx (((consumesStatements fuel).body _ hx.1).map (fun _ _ => rfl) ?_)
    exact fun y inner _ hinner => hinner.behind x
  · exact hts.here_mem

theorem consumes_block (fuel : Nat) (hts : Input ts) :
    Consumes (fun u item => Laid u [] (itemWithin item)) ts (block fuel ts) := by
  rw [block]
  split
  · exact (consumes_handler fuel hts).map (fun _ _ => rfl) fun _ _ _ h => h
  · exact ((consumesStatements fuel).statement ts hts).map (fun _ _ => rfl) fun _ _ _ h => h

theorem laid_topLevel : ∀ fuel {ts : List Token} {items : List Item}, Input ts →
    topLevel fuel ts = .ok items → Laid (ts.map Token.position) [] (items.flatMap itemWithin)
  | 0, _, _, _, h => by cases h
  | fuel + 1, ts, items, hts, h => by
      cases hend : (kind ts).isEnd with
      | true =>
          rw [topLevel, hend] at h
          cases h
          exact .nothing _
      | false =>
          rw [topLevel_eq hend] at h
          split at h
          · cases h
          · next item us hread =>
              obtain ⟨u, hu, hitem⟩ := (consumes_block fuel hts).of_ok hread
              split at h
              · obtain ⟨v, hv⟩ := hu.1.exists_skipSeparators
                obtain ⟨more, hmore, rfl⟩ := exists_of_map_eq_ok h
                rw [(hu.trans hv).2]
                exact (hitem.before v).append (laid_topLevel fuel hv.1 hmore)
              · cases h

theorem mem_of_topLevel : ∀ fuel {ts : List Token} {e : Misread}, Input ts →
    topLevel fuel ts = .error e → e.position ∈ ts.map Token.position
  | 0, _, _, hts, h => by
      cases h
      exact hts.here_mem
  | fuel + 1, ts, e, hts, h => by
      cases hend : (kind ts).isEnd with
      | true =>
          rw [topLevel, hend] at h
          cases h
      | false =>
          rw [topLevel_eq hend] at h
          have hblock := consumes_block fuel hts
          split at h
          · next hread =>
              cases h
              rw [hread] at hblock
              exact hblock
          · next item us hread =>
              obtain ⟨u, hu, -⟩ := hblock.of_ok hread
              split at h
              · obtain ⟨v, hv⟩ := hu.1.exists_skipSeparators
                cases hmore : topLevel fuel (skipSeparators us) with
                | error e' =>
                    rw [hmore] at h
                    cases h
                    exact (hu.trans hv).mem (mem_of_topLevel fuel hv.1 hmore)
                | ok more =>
                    rw [hmore] at h
                    cases h
              · cases h
                exact hu.mem hu.1.here_mem

end Grammar

/-- The tokens of a text end with the end of input. -/
theorem Token.Covers.input {cs : List Char} {previous : Option TokenKind} {e : Nat}
    {ts : List Token} (h : Token.Covers cs previous e ts) : Grammar.Input ts := by
  induction h with
  | last _ _ => exact ⟨_, rfl, rfl⟩
  | next _ _ _ _ _ _ _ _ ih =>
      obtain ⟨last, hlast, hkind⟩ := ih
      refine ⟨last, ?_, hkind⟩
      rw [List.getLast?_cons, hlast]
      rfl

theorem Token.Covers.nodup {cs : List Char} {previous : Option TokenKind} {e : Nat}
    {ts : List Token} (h : Token.Covers cs previous e ts) : (ts.map Token.position).Nodup :=
  List.pairwise_map.mpr (h.pairwise_before.imp fun hbefore => hbefore.ne)

namespace Script

open Grammar

/-- A text that is no script is wrong at one of its characters or at its end. -/
theorem exists_offset_of_parse {source : String} {fault : Fault}
    (h : parse source = .error fault) :
    fault.kind = .reading ∧
      ∃ k ≤ source.toList.length, fault.position = some (positionAt source.toList k) := by
  have hplaced {m : Misread} : (m.fault.withSource source none).position = some m.position := rfl
  unfold parse at h
  split at h
  · cases h
  · next m hread =>
      cases h
      refine ⟨rfl, ?_⟩
      rw [hplaced]
      unfold read at hread
      split at hread
      · next m' hscan =>
          cases hread
          obtain ⟨k, hk, hposition⟩ := Token.exists_offset_of_scan hscan
          exact ⟨k, hk, congrArg some hposition⟩
      · next ts hscan =>
          -- The grammar can only point at a token, and tokens lie in the source.
          have hcovers := Token.covers_of_scan hscan
          obtain ⟨u, hu⟩ := hcovers.input.exists_skipSeparators
          have hmem : m.position ∈ ts.map Token.position := by
            unfold ofTokens at hread
            cases hitems : topLevel (budget ts.length) (skipSeparators ts) with
            | error e =>
                rw [hitems] at hread
                cases hread
                exact hu.mem (mem_of_topLevel _ hu.1 hitems)
            | ok items =>
                rw [hitems] at hread
                cases hread
          obtain ⟨t, ht, hposition⟩ := List.mem_map.mp hmem
          obtain ⟨k, -, hk, hk'⟩ := hcovers.exists_offset t ht
          exact ⟨k, hk, congrArg some (hposition.symm.trans hk')⟩

/-- The statements of items are those of the statements and of the handlers among them. -/
theorem perm_flatMap_itemWithin (items : List Item) :
    (items.flatMap itemWithin).Perm
      (statementsWithin (items.filterMap Sum.getLeft?) ++
        (items.filterMap Sum.getRight?).flatMap fun h => statementsWithin h.body) := by
  induction items with
  | nil => exact .nil
  | cons item rest ih =>
      cases item with
      | inl s =>
          show (s.within ++ rest.flatMap itemWithin).Perm (s.within ++ _ ++ _)
          rw [List.append_assoc]
          exact ih.append_left s.within
      | inr h =>
          show (statementsWithin h.body ++ rest.flatMap itemWithin).Perm (_ ++ (_ ++ _))
          refine (ih.append_left _).trans ?_
          rw [← List.append_assoc, ← List.append_assoc]
          exact List.perm_append_comm.append_right _

/-- **Places.** No two statements of a script share a place. -/
theorem apart_of_parse {source : String} {script : Script} (h : parse source = .ok script) :
    script.everyStatement.Pairwise Statement.Apart := by
  unfold parse at h
  split at h
  · next script' hread =>
      cases h
      unfold read at hread
      split at hread
      · cases hread
      · next ts hscan =>
          have hcovers := Token.covers_of_scan hscan
          obtain ⟨u, hu⟩ := hcovers.input.exists_skipSeparators
          obtain ⟨⟨statements, handlers⟩, hblocks, heq⟩ := exists_of_map_eq_ok hread
          obtain ⟨items, hitems, heq'⟩ := exists_of_map_eq_ok hblocks
          have hnodup := hcovers.nodup
          rw [hu.2] at hnodup
          have hapart := (laid_topLevel _ hu.1 hitems (List.nodup_append'.mp hnodup).2.1).apart
          cases heq
          cases heq'
          exact ((perm_flatMap_itemWithin items).pairwise_iff fun {s t} hst => hst.symm).mp hapart
  · cases h

/-- A place of a statement belongs to no other one. -/
theorem filter_eq_singleton {statements : List Statement}
    (hapart : statements.Pairwise Statement.Apart) {st : Statement} {p : Position}
    (hst : st ∈ statements) (hp : p ∈ st.marks) :
    statements.filter (fun s => decide (p ∈ s.marks)) = [st] := by
  induction statements with
  | nil => cases hst
  | cons first rest ih =>
      obtain ⟨hfirst, hrest⟩ := List.pairwise_cons.mp hapart
      rcases List.mem_cons.mp hst with rfl | hst
      · have hnone : rest.filter (fun s => decide (p ∈ s.marks)) = [] :=
          List.filter_eq_nil_iff.mpr fun s hs hmem => hfirst s hs hp (of_decide_eq_true hmem)
        rw [List.filter_cons, if_pos (decide_eq_true hp), hnone]
      · have hnot : p ∉ first.marks := fun hmem => hfirst st hst hmem hp
        rw [List.filter_cons, if_neg (by simpa using hnot)]
        exact ih hrest hst

end Script

end TabPilot
