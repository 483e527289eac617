import TabPilot.Proofs.Script.Expressions
import TabPilot.Script.Grammar.Statement

set_option autoImplicit false

/-! # Reading assignments, commands and headers back

What a function of the grammar reads may carry positions, so from here on trees are read back up
to positions: `Recovers` says so, and says what has to come next. A command in a header is
followed by braces, which must not look like options.
-/

namespace TabPilot.Grammar

open Piece

/-- A function of the grammar reads something back from pieces, up to what is forgotten, if
certain tokens come next. -/
def Recovers {α β : Type} (forget : α → β) (follow : List Token → Prop)
    (read : List Token → Parsed α) (ps : List Piece) (a : α) : Prop :=
  ∀ place ts, follow ts → ∃ a', read (tokens place ps ++ ts) = .ok (a', ts) ∧ forget a' = forget a

theorem Reads.apply {α : Type} {next : TokenKind → Bool} {read : List Token → Parsed α}
    {ps : List Piece} {a : α} (h : Reads next read ps a) (place : Nat → Position × Bool)
    {ts : List Token} (hne : ts ≠ []) (hts : next (kind ts) = true) :
    read (tokens place ps ++ ts) = .ok (a, ts) := by
  obtain ⟨t, rest, rfl⟩ := List.exists_cons_of_ne_nil hne
  exact h place t rest hts

/-! ## Assignments -/

/-- Whether a token ends a list with commas between its elements. -/
def endsList (k : TokenKind) : Bool := stops k && !k.isSymbol .comma

theorem stops_of_endsList {k : TokenKind} (h : endsList k = true) : stops k = true := by
  simp only [endsList, Bool.and_eq_true] at h
  exact h.1

/-- A loop of the grammar that reads elements for as long as commas follow. -/
structure CommaLoop {α : Type} (loop : Nat → List Token → Parsed (List α))
    (element : Nat → List Token → Parsed α) (skip : List Token → List Token) : Prop where
  zero : ∀ ts r, loop 0 ts ≠ .ok r
  succ : ∀ fuel ts, loop (fuel + 1) ts =
    match element fuel ts with
    | .error e => .error e
    | .ok (a, us) =>
        if at? .comma us then (loop fuel (skip (advance us))).map fun (more, us) => (a :: more, us)
        else .ok ([a], us)

def target (fuel : Nat) (ts : List Token) : Parsed Target :=
  if atWord "_" ts then .ok (.skip, advance ts)
  else (reference fuel ts).map fun (v, ts) => (.variable v, ts)

theorem commaLoop_targets : CommaLoop targets target id where
  zero := fun _ _ h => by cases h
  succ := fun fuel ts => by
    show targets (fuel + 1) ts = _
    rw [targets, ← target]
    rcases target fuel ts with e | ⟨a, us⟩ <;> rfl

theorem commaLoop_sources : CommaLoop sources (expression · 0) skipNewlines where
  zero := fun _ _ h => by cases h
  succ := fun fuel ts => by
    show sources (fuel + 1) ts = _
    rw [sources]
    rcases expression fuel 0 ts with e | ⟨a, us⟩ <;> rfl

theorem commaLoop_references : CommaLoop references reference id where
  zero := fun _ _ h => by cases h
  succ := fun fuel ts => by
    show references (fuel + 1) ts = _
    rw [references]
    rcases reference fuel ts with e | ⟨a, us⟩ <;> rfl

/-- An element that is read back in front of what ends it is read back by the loop. -/
theorem CommaLoop.readsElement {α : Type} {loop : Nat → List Token → Parsed (List α)}
    {element : Nat → List Token → Parsed α} {skip : List Token → List Token} {ps : List Piece}
    {a : α} (hloop : CommaLoop loop element skip)
    (opens : ∀ place ts, (kind (tokens place ps ++ ts)).isNewline = false)
    (hskip : ∀ ts, (kind ts).isNewline = false → skip ts = ts)
    (h : ∀ fuel, 4 * ps.length ≤ fuel → Reads stops (element fuel) ps a) :
    ReadsElement endsList loop ps a where
  opens := opens
  last fuel place t rest hfuel ht := by
    have hcomma : at? .comma (t :: rest) = false := by
      simp only [endsList, Bool.and_eq_true, Bool.not_eq_true'] at ht
      exact ht.2
    rw [hloop.succ, h fuel hfuel place t rest (stops_of_endsList ht)]
    simp only [hcomma, Bool.false_eq_true, if_false]
  more fuel place p spaced ts as us hfuel hne hts hmore := by
    rw [hloop.succ, h fuel hfuel place _ ts rfl]
    simp only [at?_symbol, if_true]
    rw [advance_cons hne, hskip ts hts, hmore]
    rfl

theorem reads_target {t : Target} (wf : t.WellFormed) (plain : t.Plain) :
    ReadsElement endsList targets t.pieces t := by
  refine commaLoop_targets.readsElement ?_ (fun _ _ => rfl) fun fuel hfuel place u rest hu => ?_
  · cases t <;> exact fun _ _ => rfl
  · cases t with
    | skip =>
        have hword : atWord "_" (tokens place Target.skip.pieces ++ u :: rest) = true := by
          show decide (Decimal.asciiLower "_" = "_") = true
          decide +kernel
        rw [target, if_pos hword]
        rfl
    | _ v =>
        have hword : atWord "_" (tokens place (Target.variable v).pieces ++ u :: rest) =
            false := rfl
        have hread : reference fuel (tokens place (Target.variable v).pieces ++ u :: rest) =
            .ok (v, u :: rest) := Variable.reads wf plain fuel hfuel place u rest hu
        rw [target, if_neg (ne_true_of_eq_false hword), hread]
        rfl

theorem reads_source {ps : List Piece} {e : Expr} (h : Readable ps e) :
    ReadsElement endsList sources ps e :=
  commaLoop_sources.readsElement h.not_newline (fun _ => skipNewlines_eq_self) h.reads

theorem reads_reference {v : Variable} (wf : v.WellFormed) (plain : v.Plain) :
    ReadsElement endsList references v.pieces v :=
  commaLoop_references.readsElement (fun _ _ => rfl) (fun _ _ => rfl) (v.reads wf plain)

theorem reads_targets {ts : List Target} (hne : ts ≠ []) (wf : ∀ t ∈ ts, t.WellFormed)
    (plain : ∀ t ∈ ts, t.Plain) (fuel : Nat)
    (hfuel : 4 * (commas (ts.map Target.pieces)).length + 1 ≤ fuel) :
    Reads endsList (targets fuel) (commas (ts.map Target.pieces)) ts :=
  reads_commas (fun t ht => reads_target (wf t ht) (plain t ht)) hne fuel hfuel

theorem reads_sources {es : List Expr} (hne : es ≠ []) (h : ∀ e ∈ es, Readable e.pieces e)
    (fuel : Nat) (hfuel : 4 * (commas (es.map fun e => parens e.pieces)).length + 1 ≤ fuel) :
    Reads endsList (sources fuel) (commas (es.map fun e => parens e.pieces)) es :=
  reads_commas (fun e he => reads_source (readable_parens (h e he))) hne fuel hfuel

/-- Nothing but a target starts an assignment. -/
theorem assignment?_eq_none {fuel : Nat} {ts : List Token} (h : startsTarget ts = false) :
    assignment? fuel ts = .ok none := by
  rw [assignment?, h]
  rfl

theorem assignOp?_token (op : AssignOp) : assignOp? (.symbol op.token) = some op := by
  cases op <;> rfl

/-- Targets start what they are to start. -/
theorem startsTarget_commas {ts : List Target} (hne : ts ≠ []) (place : Nat → Position × Bool)
    (us : List Token) :
    startsTarget (tokens place (commas (ts.map Target.pieces)) ++ us) = true := by
  cases ts with
  | nil => exact absurd rfl hne
  | cons t ts => cases ts <;> cases t <;> rfl

/-- **Assignments are read back.** -/
theorem recovers_assignment {a : Assignment} (wf : a.WellFormed) (plain : a.Plain) (fuel : Nat)
    (hfuel : 4 * a.pieces.length ≤ fuel) (place : Nat → Position × Bool) {ts : List Token}
    (hne : ts ≠ []) (hts : endsList (kind ts) = true) :
    ∃ a', assignment? fuel (tokens place a.pieces ++ ts) = .ok (some (a', ts)) ∧
      a'.unplaced = a.unplaced := by
  obtain ⟨⟨hgoals, hgoalsWf⟩, hvalues, hvaluesWf⟩ := wf
  have hlength : a.pieces.length = (commas (a.targets.map Target.pieces)).length + 1 +
      (commas (a.sources.map fun e => parens e.pieces)).length := by
    simp [Assignment.pieces]
    omega
  have hop : endsList (.symbol a.op.token) = true := by cases a.op <;> rfl
  have htargets := reads_targets hgoals hgoalsWf plain.1 fuel (by omega)
  have hsources := reads_sources hvalues
    (fun e he => e.readable (hvaluesWf e he) (plain.2 e he)) fuel (by omega)
  refine ⟨⟨a.targets, a.op, a.sources, here (tokens place a.pieces ++ ts)⟩, ?_, rfl⟩
  have hstart : startsTarget (tokens place a.pieces ++ ts) = true := by
    rw [Assignment.pieces, tokens_append, List.append_assoc]
    exact startsTarget_commas hgoals place _
  rw [assignment?, hstart]
  -- The position is not forgotten by rewriting, so it is set aside before the text is taken apart.
  generalize here (tokens place a.pieces ++ ts) = start
  rw [Assignment.pieces, tokens_append_token, htargets _ _ _ hop]
  simp only [Bool.not_true, Bool.false_eq_true, if_false, kind, assignOp?_token]
  rw [advance_cons (by simp [hne]), hsources.apply _ hne hts]
  rfl

/-! ## Names of commands -/

/-- The parts of a name, each after a double colon. -/
def tailPieces (parts : List String) : List Piece :=
  parts.flatMap fun part => [symbol .doubleColon, word part]

theorem joined_doubleColon (part : String) (parts : List String) :
    joined (symbol .doubleColon) ((part :: parts).map fun p => [word p]) =
      word part :: tailPieces parts := by
  induction parts generalizing part with
  | nil => rfl
  | cons next parts ih =>
      show [word part] ++ symbol .doubleColon :: joined (symbol .doubleColon)
        ((next :: parts).map fun p => [word p]) = _
      rw [ih next]
      rfl

theorem reads_qualified (parts : List String) : ∀ name fuel, parts.length + 1 ≤ fuel →
    Reads (fun k => !k.isSymbol .doubleColon) (qualified fuel name) (tailPieces parts)
      (parts.foldl (fun name part => name ++ "::" ++ part) name) := by
  induction parts with
  | nil =>
      intro name fuel hfuel place t rest ht
      obtain ⟨fuel, rfl⟩ : ∃ n, fuel = n + 1 := ⟨fuel - 1, by omega⟩
      have hcolon : at? .doubleColon (t :: rest) = false := by
        show t.kind.isSymbol .doubleColon = false
        simpa using ht
      show qualified (fuel + 1) name (t :: rest) = _
      rw [qualified, hcolon]
      rfl
  | cons part parts ih =>
      intro name fuel hfuel place t rest ht
      have hlength : (part :: parts).length = parts.length + 1 := rfl
      obtain ⟨fuel, rfl⟩ : ∃ n, fuel = n + 1 := ⟨fuel - 1, by omega⟩
      show qualified fuel (name ++ "::" ++ part) (advance (_ :: (tokens _ (tailPieces parts) ++
        t :: rest))) = _
      rw [advance_append, ih _ fuel (by omega) _ t rest ht]
      rfl

/-- Joining the parts of a name gives the name. -/
theorem foldl_nameParts (cs : List Char) : ∃ part parts, nameParts cs = part :: parts ∧
    ∀ before : String, (parts.map String.ofList).foldl (fun name part => name ++ "::" ++ part)
      (before ++ String.ofList part) = before ++ String.ofList cs := by
  induction cs using nameParts.induct with
  | case1 => exact ⟨[], [], rfl, fun _ => rfl⟩
  | case2 rest ih =>
      obtain ⟨part, parts, hparts, hjoin⟩ := ih
      refine ⟨[], part :: parts, by rw [nameParts, hparts], fun before => ?_⟩
      have hsplit : String.ofList (':' :: ':' :: rest) = "::" ++ String.ofList rest := by
        rw [← String.ofList_append]
        rfl
      have hempty : before ++ String.ofList [] = before := String.append_empty
      rw [List.map_cons, List.foldl_cons, hempty, hjoin (before ++ "::"), hsplit,
        String.append_assoc]
  -- There is always a first part, so that the parts of what is left are not empty.
  | case3 c rest _ hnil ih =>
      obtain ⟨part, parts, hparts, -⟩ := ih
      rw [hnil] at hparts
      cases hparts
  | case4 c rest hcolon part parts hparts ih =>
      obtain ⟨part', parts', hparts', hjoin⟩ := ih
      rw [hparts] at hparts'
      cases hparts'
      refine ⟨c :: part, parts, ?_, fun before => ?_⟩
      · rw [nameParts, hparts]
        exact hcolon
      · have hjoin := hjoin (before ++ String.singleton c)
        rw [String.append_assoc, String.append_assoc] at hjoin
        rw [String.ofList_cons, String.ofList_cons, hjoin]

/-! ## Commands -/

/-- Whether a token may stand after the name or the argument of a command. -/
def followsArgument : TokenKind → Bool
  | .newline | .symbol .semicolon | .symbol .openBrace | .symbol .arrow => true
  | _ => false

/-- Whether tokens may stand after a command: a line end, a semicolon, or the braces of a body. -/
def EndsCommand (inHeader : Bool) (ts : List Token) : Prop :=
  (kind ts = .newline ∨ kind ts = .symbol .semicolon ∨ kind ts = .symbol .openBrace) ∧
    startsOptions inHeader ts = false

theorem EndsCommand.follows {inHeader : Bool} {ts : List Token} (h : EndsCommand inHeader ts) :
    followsArgument (kind ts) = true := by
  rcases h.1 with h | h | h <;> rw [h] <;> rfl

theorem EndsCommand.not_arrow {inHeader : Bool} {ts : List Token} (h : EndsCommand inHeader ts) :
    at? .arrow ts = false := by
  rw [at?]
  rcases h.1 with h | h | h <;> rw [h] <;> rfl

theorem ne_nil_of_followsArgument {ts : List Token} (h : followsArgument (kind ts) = true) :
    ts ≠ [] := by
  rintro rfl
  cases h

theorem stops_of_followsArgument {k : TokenKind} (h : followsArgument k = true) :
    stops k = true := by
  unfold followsArgument at h
  split at h <;> first | rfl | cases h

theorem not_doubleColon_of_followsArgument {k : TokenKind} (h : followsArgument k = true) :
    (!k.isSymbol .doubleColon) = true := by
  unfold followsArgument at h
  split at h <;> first | rfl | cases h

theorem startsOperand_of_followsArgument {ts : List Token} (h : followsArgument (kind ts) = true) :
    startsOperand ts = false := by
  unfold followsArgument at h
  unfold startsOperand
  split at h
  · next heq => rw [heq]
  · next heq => rw [heq]
  · next heq => rw [heq]
  · next heq => rw [heq]
  · cases h

theorem followsArgument_destination {ts : List Token} (h : followsArgument (kind ts) = true)
    (d : Destination) (place : Nat → Position × Bool) :
    followsArgument (kind (tokens place d.pieces ++ ts)) = true := by
  cases d with
  | default => exact h
  | _ => rfl

theorem followsArgument_options {ts : List Token} (h : followsArgument (kind ts) = true)
    (os : Option (List (String × Expr))) (place : Nat → Position × Bool) :
    followsArgument (kind (tokens place (optionsPieces os) ++ ts)) = true := by
  cases os with
  | none => exact h
  | some os => rfl

theorem reads_argument {id : Option Expr} (h : ∀ e ∈ id, Readable e.pieces e) {fuel : Nat}
    (hfuel : 4 * (argumentPieces id).length ≤ fuel) (place : Nat → Position × Bool)
    {ts : List Token} (hts : followsArgument (kind ts) = true) :
    argument fuel (tokens place (argumentPieces id) ++ ts) = .ok (id, ts) := by
  cases id with
  | none =>
      show argument fuel ts = _
      rw [argument, startsOperand_of_followsArgument hts]
      rfl
  | some e =>
      have hread := (readable_parens (h e rfl)).reads fuel hfuel
      have hstart : startsOperand (tokens place (argumentPieces (some e)) ++ ts) = true := rfl
      rw [argument, if_pos hstart, argumentPieces,
        hread.apply place (ne_nil_of_followsArgument hts) (stops_of_followsArgument hts)]
      rfl

theorem reads_options {os : Option (List (String × Expr))}
    (h : ∀ members ∈ os, ∀ m ∈ members, Readable m.2.pieces m.2) {inHeader : Bool}
    (fits : inHeader = true → os ≠ some []) {fuel : Nat}
    (hfuel : 4 * (optionsPieces os).length ≤ fuel) (place : Nat → Position × Bool)
    {ts : List Token} (hne : ts ≠ []) (hts : startsOptions inHeader ts = false) :
    options fuel inHeader (tokens place (optionsPieces os) ++ ts) = .ok (os, ts) := by
  cases os with
  | none =>
      show options fuel inHeader ts = _
      rw [options, hts]
      rfl
  | some members =>
      have hread : Reads (·.isSymbol .closeBrace) (entries fuel)
          (commas (members.map (memberPieces fun e => parens e.pieces))) members := by
        have hlength : (optionsPieces (some members)).length =
            (commas (members.map (memberPieces fun e => parens e.pieces))).length + 2 := by
          simp [optionsPieces]
          rfl
        exact reads_entries (fun m hm => readable_parens (h members rfl m hm)) (by omega)
      have hstart : startsOptions inHeader (tokens place (optionsPieces (some members)) ++ ts) =
          true := by
        -- In a header an opening brace is that of options only if a member follows it.
        cases inHeader with
        | false => rfl
        | true =>
            cases members with
            | nil => exact absurd rfl (fits rfl)
            | cons m members => cases members <;> rfl
      have hadvance : advance (tokens place (optionsPieces (some members)) ++ ts) =
          tokens (fun n => place (n + 1)) (commas (members.map (memberPieces fun e =>
            parens e.pieces)) ++ [symbol .closeBrace]) ++ ts :=
        advance_cons (by simp [tokens_append, tokens])
      rw [options, if_pos hstart, hadvance, tokens_append_token, skipNewlines_members,
        hread _ _ _ rfl]
      show (expect .closeBrace (_ :: ts)).map _ = _
      rw [expect_cons rfl hne]
      rfl

theorem reads_destination {d : Destination} (wf : d.WellFormed) (plain : d.Plain) {fuel : Nat}
    (hfuel : 4 * d.pieces.length ≤ fuel) (place : Nat → Position × Bool) {ts : List Token}
    (hne : ts ≠ []) (hstop : stops (kind ts) = true) (hts : at? .arrow ts = false) :
    destination fuel (tokens place d.pieces ++ ts) = .ok (d, ts) := by
  cases d with
  | default =>
      show destination fuel ts = _
      rw [destination, hts]
      rfl
  | key name =>
      have harrow : at? .arrow (tokens place (Destination.key name).pieces ++ ts) = true := rfl
      have hkey : advance (tokens place (Destination.key name).pieces ++ ts) =
          ⟨.text name false, (place 1).1, (place 1).2⟩ :: ts := rfl
      rw [destination, harrow, hkey]
      show Except.ok (_, advance (_ :: ts)) = _
      rw [advance_cons hne]
  -- `null` is told from a key by its word, whatever its case.
  | discard =>
      have harrow : at? .arrow (tokens place Destination.discard.pieces ++ ts) = true := rfl
      have hnull : advance (tokens place Destination.discard.pieces ++ ts) =
          ⟨.word "null", (place 1).1, (place 1).2⟩ :: ts := rfl
      have hword : Decimal.asciiLower "null" = "null" := by decide +kernel
      rw [destination, harrow, hnull]
      show (if Decimal.asciiLower "null" = "null" then Except.ok (_, advance (_ :: ts)) else _) = _
      rw [if_pos hword, advance_cons hne]
  | _ v =>
      have hlength : (Destination.variable v).pieces.length = v.pieces.length + 1 := rfl
      have harrow : at? .arrow (tokens place (Destination.variable v).pieces ++ ts) = true := rfl
      have hvariable : advance (tokens place (Destination.variable v).pieces ++ ts) =
          tokens (fun n => place (n + 1)) v.pieces ++ ts := rfl
      have hread := (Variable.reads wf plain fuel (by omega)).apply
        (fun n => place (n + 1)) hne hstop
      rw [destination, harrow, hvariable]
      show (reference fuel (tokens (fun n => place (n + 1)) v.pieces ++ ts)).map _ = _
      rw [hread]
      rfl

/-- The first part of a command's name starts a command. -/
theorem startsCommand_name {name : String} (h : IsCommandName name) {p : Position} {spaced : Bool}
    {ts : List Token} : startsCommand (⟨.word (firstPart name), p, spaced⟩ :: ts) = true := by
  obtain ⟨-, hreserved, hskip⟩ := h
  simp [startsCommand, kind, hreserved, hskip]

/-- How a command starts. -/
theorem commandPieces_eq_cons (c : Command) : ∃ parts,
    c.pieces = word (firstPart c.name) :: (tailPieces parts ++
      (argumentPieces c.id ++ (optionsPieces c.options ++ c.destination.pieces))) ∧
    parts.foldl (fun name part => name ++ "::" ++ part) (firstPart c.name) = c.name := by
  -- The parts are joined by what `qualified` adds to a name, so that reading them gives the name.
  obtain ⟨part, parts, hparts, hjoin⟩ := foldl_nameParts c.name.toList
  have hfirst : firstPart c.name = String.ofList part := by rw [firstPart, hparts]; rfl
  refine ⟨parts.map String.ofList, ?_, ?_⟩
  · have hnames : namePieces c.name =
        word (firstPart c.name) :: tailPieces (parts.map String.ofList) := by
      rw [namePieces, hparts, hfirst, ← joined_doubleColon, List.map_cons, List.map_cons,
        List.map_map]
      rfl
    rw [Command.pieces, hnames, List.cons_append]
  · have hjoin := hjoin ""
    rw [String.empty_append, String.empty_append, String.ofList_toList] at hjoin
    rw [hfirst, hjoin]

theorem length_tailPieces (parts : List String) :
    (tailPieces parts).length = 2 * parts.length := by
  induction parts with
  | nil => rfl
  | cons part parts ih =>
      show (tailPieces parts).length + 2 = 2 * (parts.length + 1)
      omega

/-- **Commands are read back.** -/
theorem recovers_command {c : Command} (wf : c.WellFormed) (plain : c.Plain) (inHeader : Bool)
    (fits : inHeader = true → c.FitsHeader) (fuel : Nat) (hfuel : 4 * c.pieces.length ≤ fuel) :
    Recovers Command.unplaced (EndsCommand inHeader) (command fuel inHeader) c.pieces c := by
  intro place ts hts
  obtain ⟨-, hid, hoptions, hdestination⟩ := wf
  obtain ⟨-, hidPlain, hoptionsPlain, hdestinationPlain⟩ := plain
  obtain ⟨parts, hpieces, hname⟩ := commandPieces_eq_cons c
  have hlength : c.pieces.length = 1 + (2 * parts.length + ((argumentPieces c.id).length +
      ((optionsPieces c.options).length + c.destination.pieces.length))) := by
    rw [hpieces, List.length_cons, List.length_append, List.length_append, List.length_append,
      length_tailPieces]
    omega
  have hfollow := hts.follows
  have hne := ne_nil_of_followsArgument hfollow
  -- The four parts of a command are read one after another, each with places of its own.
  obtain ⟨p, p₁, p₂, p₃, p₄, htokens⟩ : ∃ p p₁ p₂ p₃ p₄, tokens place c.pieces ++ ts =
      ⟨.word (firstPart c.name), p, (place 0).2⟩ :: (tokens p₁ (tailPieces parts) ++
        (tokens p₂ (argumentPieces c.id) ++ (tokens p₃ (optionsPieces c.options) ++
          (tokens p₄ c.destination.pieces ++ ts)))) := by
    rw [hpieces]
    simp only [tokens, tokens_append, List.append_assoc, List.cons_append]
    exact ⟨_, _, _, _, _, rfl⟩
  have hdest := followsArgument_destination hfollow c.destination p₄
  have hopts := followsArgument_options hdest c.options p₃
  -- What follows a name is the argument or what may follow one, never another double colon.
  have harg : (!(kind (tokens p₂ (argumentPieces c.id) ++ (tokens p₃ (optionsPieces c.options) ++
      (tokens p₄ c.destination.pieces ++ ts)))).isSymbol .doubleColon) = true := by
    cases h : c.id with
    | none => exact not_doubleColon_of_followsArgument hopts
    | some e => rfl
  have hstart : startsOptions inHeader (tokens p₄ c.destination.pieces ++ ts) = false := by
    cases c.destination with
    | default => exact hts.2
    | _ => rfl
  refine ⟨⟨c.name, c.id, c.options, c.destination, p⟩, ?_, rfl⟩
  rw [htokens]
  simp only [command, kind, here]
  rw [advance_cons (by simp [hne]),
    (reads_qualified parts _ fuel (by omega)).apply _ (by simp [hne]) harg, hname]
  simp only []
  rw [reads_argument (fun e he => e.readable (hid e he) (hidPlain e he)) (by omega) _ hopts]
  simp only []
  rw [reads_options (fun os hos m hm => m.2.readable (hoptions os hos m hm)
    (hoptionsPlain os hos m hm)) fits (by omega) _ (by simp [hne]) hstart]
  simp only []
  rw [reads_destination hdestination hdestinationPlain (by omega) _ hne
    (stops_of_followsArgument hfollow) hts.not_arrow]
  rfl

theorem startsCommand_pieces {c : Command} (h : IsCommandName c.name)
    (place : Nat → Position × Bool) (more : List Piece) (ts : List Token) :
    startsCommand (tokens place (c.pieces ++ more) ++ ts) = true := by
  obtain ⟨parts, hpieces, -⟩ := commandPieces_eq_cons c
  rw [hpieces]
  exact startsCommand_name h

theorem startsCommand_command {c : Command} (wf : c.WellFormed) (place : Nat → Position × Bool)
    (ts : List Token) : startsCommand (tokens place c.pieces ++ ts) = true := by
  simpa using startsCommand_pieces wf.1 place [] ts

theorem startsCommand_commands {c : Command} (h : IsCommandName c.name) (cs : List Command)
    (place : Nat → Position × Bool) (more : List Piece) (ts : List Token) :
    startsCommand (tokens place
      (joined (symbol .semicolon) ((c :: cs).map Command.pieces) ++ more) ++ ts) = true := by
  cases cs with
  | nil => exact startsCommand_pieces h place more ts
  | cons d cs =>
      show startsCommand (tokens place ((c.pieces ++ _) ++ more) ++ ts) = true
      rw [List.append_assoc]
      exact startsCommand_pieces h place _ ts

theorem endsCommand_of_newline {ts : List Token} (h : kind ts = .newline) :
    EndsCommand false ts := by
  refine ⟨.inl h, ?_⟩
  rw [startsOptions, at?, h]
  rfl

theorem endsCommand_semicolon {inHeader : Bool} {p : Position} {spaced : Bool} {ts : List Token} :
    EndsCommand inHeader (⟨.symbol .semicolon, p, spaced⟩ :: ts) := ⟨.inr (.inl rfl), rfl⟩

/-- Commands with semicolons between them are read back. -/
theorem recovers_commandSequence {cs : List Command} (hne : cs ≠ []) (wf : ∀ c ∈ cs, c.WellFormed)
    (plain : ∀ c ∈ cs, c.Plain) :
    ∀ fuel, 4 * (joined (symbol .semicolon) (cs.map Command.pieces)).length + 1 ≤ fuel →
      Recovers (List.map Command.unplaced) (kind · = .newline) (commandSequence fuel)
        (joined (symbol .semicolon) (cs.map Command.pieces)) cs := by
  induction cs with
  | nil => exact absurd rfl hne
  | cons c cs ih =>
      intro fuel hfuel place ts hts
      obtain ⟨fuel, rfl⟩ : ∃ n, fuel = n + 1 := ⟨fuel - 1, by omega⟩
      have hc := recovers_command (wf c List.mem_cons_self) (plain c List.mem_cons_self) false
        nofun fuel
      -- A semicolon ends the last command only if no command comes after it.
      cases cs with
      | nil =>
          have hlength : (joined (symbol .semicolon) ([c].map Command.pieces)).length =
              c.pieces.length := rfl
          obtain ⟨c', hread, hsame⟩ := hc (by omega) place ts (endsCommand_of_newline hts)
          have hsemicolon : at? .semicolon ts = false := by
            rw [at?, hts]
            rfl
          refine ⟨[c'], ?_, by rw [List.map_cons, hsame]; rfl⟩
          show commandSequence (fuel + 1) (tokens place c.pieces ++ ts) = _
          rw [commandSequence, hread]
          simp only [hsemicolon, Bool.false_and, Bool.false_eq_true, if_false]
      | cons d cs =>
          have hlength : (joined (symbol .semicolon) ((c :: d :: cs).map Command.pieces)).length =
              c.pieces.length + 1 +
                (joined (symbol .semicolon) ((d :: cs).map Command.pieces)).length := by
            simp [joined]
            omega
          have hd : IsCommandName d.name := (wf d (by simp)).1
          have hnil : ts ≠ [] := by
            rintro rfl
            cases hts
          obtain ⟨c', hread, hsame⟩ := hc (by omega) place _ endsCommand_semicolon
          obtain ⟨cs', hrest, hsames⟩ := ih (by simp) (fun x hx => wf x (List.mem_cons_of_mem _ hx))
            (fun x hx => plain x (List.mem_cons_of_mem _ hx)) fuel (by omega)
            (fun n => place (n + (c.pieces.length + 1))) ts hts
          have hstart : startsCommand (tokens (fun n => place (n + (c.pieces.length + 1)))
              (joined (symbol .semicolon) ((d :: cs).map Command.pieces)) ++ ts) = true := by
            simpa using startsCommand_commands hd cs _ [] ts
          refine ⟨c' :: cs', ?_, by rw [List.map_cons, hsame, hsames]; rfl⟩
          show commandSequence (fuel + 1) (tokens place (c.pieces ++ symbol .semicolon ::
            joined (symbol .semicolon) ((d :: cs).map Command.pieces)) ++ ts) = _
          rw [tokens_append_token, commandSequence, hread]
          simp only [at?_symbol, Bool.true_and]
          rw [advance_cons (by simp [hnil]), if_pos hstart, hrest]
          rfl

/-! ## Conditions -/

theorem comparator?_token (op : Comparator) {p : Position} {spaced : Bool} {ts : List Token}
    (hne : ts ≠ []) : comparator? (⟨op.token, p, spaced⟩ :: ts) = some (op, ts) := by
  -- Both kinds of tokens, symbols and words, are taken in the same way.
  have hadvance : ∀ k, advance (⟨k, p, spaced⟩ :: ts) = ts := fun _ => advance_cons hne
  cases op <;> exact congrArg (fun us => some (_, us)) (hadvance _)

theorem readable_rhs {op : Comparator} {rhs : Expr} (wf : rhs.WellFormed)
    (plain : op.PlainRhs rhs) : Readable (rhsPieces rhs) rhs := by
  cases rhs with
  | pattern p =>
      refine readable_token rfl rfl ?_
      rintro fuel ⟨k, q, spaced⟩ u rest rfl
      rfl
  | _ => exact readable_parens (Expr.readable _ wf plain)

/-- What may come after a test: a body, or a semicolon when the test ends in a comparison. -/
def EndsCondition (c : Condition) (ts : List Token) : Prop :=
  (kind ts = .symbol .openBrace ∧ startsOptions true ts = false) ∨
    (kind ts = .symbol .semicolon ∧ c.EndsInComparison)

theorem EndsCondition.ne_nil {c : Condition} {ts : List Token} (h : EndsCondition c ts) :
    ts ≠ [] := by
  rintro rfl
  rcases h with ⟨h, -⟩ | ⟨h, -⟩ <;> cases h

theorem EndsCondition.stops {c : Condition} {ts : List Token} (h : EndsCondition c ts) :
    stops (kind ts) = true := by
  rcases h with ⟨h, -⟩ | ⟨h, -⟩ <;> rw [h] <;> rfl

theorem EndsCondition.no_comparator {c : Condition} {ts : List Token} (h : EndsCondition c ts) :
    comparator? ts = none := by
  rw [comparator?]
  rcases h with ⟨h, -⟩ | ⟨h, -⟩ <;> rw [h]

theorem reads_comparison {lhs : Expr} {compared : Option (Comparator × Expr)} {negated : Bool}
    {p start : Position} (wf : (Condition.comparison negated p lhs compared).WellFormed)
    (plain : (Condition.comparison negated p lhs compared).Plain) {fuel : Nat}
    {ps : List Piece} (hps : (Condition.comparison negated p lhs compared).pieces =
      negationPieces negated ++ ps)
    (hfuel : 4 * ps.length ≤ fuel) (place : Nat → Position × Bool) {ts : List Token}
    (hts : EndsCondition (.comparison negated p lhs compared) ts) :
    comparison fuel negated start (tokens place ps ++ ts) =
      .ok (.comparison negated start lhs compared, ts) := by
  cases compared with
  | none =>
      obtain rfl : parens lhs.pieces = ps := List.append_cancel_left hps
      have hlhs := readable_parens (lhs.readable wf plain)
      rw [comparison, (hlhs.reads fuel hfuel).apply place hts.ne_nil hts.stops]
      simp only [hts.no_comparator]
  | some compared =>
      obtain ⟨op, rhs⟩ := compared
      obtain rfl : parens lhs.pieces ++ .token op.token :: rhsPieces rhs = ps :=
        List.append_cancel_left hps
      have hlength : (parens lhs.pieces ++ .token op.token :: rhsPieces rhs).length =
          (parens lhs.pieces).length + 1 + (rhsPieces rhs).length := by
        simp
        omega
      have hlhs := readable_parens (lhs.readable wf.1 plain.1)
      have hrhs := readable_rhs wf.2 plain.2
      have hop : stops op.token = true := by cases op <;> rfl
      rw [tokens_append_token, comparison, hlhs.reads fuel (by omega) _ _ _ hop]
      simp only [comparator?_token op (by simp [hts.ne_nil] :
        tokens _ (rhsPieces rhs) ++ ts ≠ [])]
      rw [(hrhs.reads fuel (by omega)).apply _ hts.ne_nil hts.stops]
      rfl

/-- A word that starts a command is not reserved. -/
theorem not_atWord_of_startsCommand {w : String} (hw : w ∈ reserved) {ts : List Token}
    (h : startsCommand ts = true) : atWord w ts = false := by
  unfold startsCommand at h
  unfold atWord
  split at h
  · next v hv =>
      simp only [Bool.and_eq_true, Bool.not_eq_true'] at h
      refine decide_eq_false ?_
      rintro rfl
      have hreserved : isReserved v = true := List.contains_iff_mem.mpr hw
      rw [hreserved] at h
      exact absurd h.1 (by decide)
  · cases h

theorem not_startsTarget_of_startsCommand {ts : List Token} (h : startsCommand ts = true) :
    startsTarget ts = false := by
  unfold startsCommand at h
  unfold startsTarget
  split at h
  · next v hv =>
      rw [hv]
      simpa using (Bool.and_eq_true_iff.mp h).2
  · cases h

theorem not_atWord_of_startsTarget {w : String} (hw : w ≠ "_") {ts : List Token}
    (h : startsTarget ts = true) : atWord w ts = false := by
  unfold startsTarget at h
  unfold atWord
  split at h
  · next v hv => rw [hv]
  · next v hv =>
      obtain rfl : v = "_" := of_decide_eq_true h
      have hskip : Decimal.asciiLower "_" = "_" := by decide +kernel
      rw [hv]
      simp only [hskip]
      exact decide_eq_false hw.symm
  · cases h

/-- What a condition does after the word in front of it. -/
theorem condition_negation (fuel : Nat) (negated : Bool) (place : Nat → Position × Bool)
    (ps : List Piece) {ts : List Token} (hne : ts ≠ [])
    (h : ∀ place, atWord "not" (tokens place ps ++ ts) = false) :
    ∃ place' start, condition (fuel + 1) (tokens place (negationPieces negated ++ ps) ++ ts) =
      match assignment? fuel (tokens place' ps ++ ts) with
      | .error e => .error e
      | .ok (some (first, ts)) =>
          match expect .semicolon ts with
          | .error e => .error e
          | .ok ts =>
              (condition fuel ts).map fun (rest, ts) => (.assigning negated start first rest, ts)
      | .ok none =>
          if startsCommand (tokens place' ps ++ ts) then
            match command fuel true (tokens place' ps ++ ts) with
            | .error e => .error e
            | .ok (first, ts) =>
                if at? .semicolon ts then
                  (condition fuel (advance ts)).map fun (rest, ts) =>
                    (.commanding negated start first rest, ts)
                else .ok (.command negated start first, ts)
          else comparison fuel negated start (tokens place' ps ++ ts) := by
  -- Both cases are the equation of `condition`, with the word in front seen or not.
  cases negated with
  | false =>
      have hstep := condition.eq_2 (tokens place ps ++ ts) fuel
      simp only [h, Bool.false_eq_true, if_false] at hstep
      exact ⟨place, here (tokens place ps ++ ts), hstep⟩
  | true =>
      have hnot : Decimal.asciiLower "not" = "not" := by decide +kernel
      have hat : atWord "not" (tokens place (word "not" :: ps) ++ ts) = true :=
        decide_eq_true hnot
      have hadvance : advance (tokens place (word "not" :: ps) ++ ts) =
          tokens (fun n => place (n + 1)) ps ++ ts := advance_cons (by simp [hne])
      have hstep := condition.eq_2 (tokens place (word "not" :: ps) ++ ts) fuel
      simp only [hat, if_true, hadvance] at hstep
      exact ⟨fun n => place (n + 1), _, hstep⟩

/-- An assignment in front of a condition is read back. -/
theorem recovers_assigning {negated : Bool} {p : Position} {first : Assignment} {rest : Condition}
    {fuel : Nat} (wf : first.WellFormed) (plain : first.Plain)
    (hfuel : 4 * first.pieces.length ≤ fuel)
    (h : Recovers Condition.unplaced (EndsCondition rest) (condition fuel) rest.pieces rest) :
    Recovers Condition.unplaced (EndsCondition (.assigning negated p first rest))
      (condition (fuel + 1)) (Condition.assigning negated p first rest).pieces
      (.assigning negated p first rest) := by
  intro place ts hts
  -- No target is called `not`, so the only `not` that is seen is the one in front.
  have hnot : ∀ place, atWord "not" (tokens place (first.pieces ++ symbol .semicolon ::
      rest.pieces) ++ ts) = false := by
    intro place
    rw [Assignment.pieces, List.append_assoc, tokens_append, List.append_assoc]
    exact not_atWord_of_startsTarget (by decide) (startsTarget_commas wf.1.1 _ _)
  obtain ⟨place', start, heq⟩ := condition_negation fuel negated place _ hts.ne_nil hnot
  obtain ⟨first', hfirst, hsame⟩ := recovers_assignment wf plain fuel hfuel place'
    (List.cons_ne_nil _ _ : ⟨.symbol .semicolon, _, _⟩ :: (tokens _ rest.pieces ++ ts) ≠ []) rfl
  obtain ⟨rest', hrest, hsames⟩ := h _ ts hts
  refine ⟨.assigning negated start first' rest', ?_, ?_⟩
  · rw [Condition.pieces, heq, tokens_append_token, hfirst]
    simp only []
    rw [expect_cons rfl (by simp [hts.ne_nil])]
    simp only []
    rw [hrest]
    rfl
  · rw [Condition.unplaced, Condition.unplaced, hsame, hsames]

/-- A command in front of a condition is read back. -/
theorem recovers_commanding {negated : Bool} {p : Position} {first : Command} {rest : Condition}
    {fuel : Nat} (wf : first.WellFormed) (fits : first.FitsHeader) (plain : first.Plain)
    (hfuel : 4 * first.pieces.length ≤ fuel)
    (h : Recovers Condition.unplaced (EndsCondition rest) (condition fuel) rest.pieces rest) :
    Recovers Condition.unplaced (EndsCondition (.commanding negated p first rest))
      (condition (fuel + 1)) (Condition.commanding negated p first rest).pieces
      (.commanding negated p first rest) := by
  intro place ts hts
  have hstart : ∀ place, startsCommand (tokens place (first.pieces ++ symbol .semicolon ::
      rest.pieces) ++ ts) = true := fun place => startsCommand_pieces wf.1 place _ ts
  obtain ⟨place', start, heq⟩ := condition_negation fuel negated place _ hts.ne_nil
    fun place => not_atWord_of_startsCommand (by decide) (hstart place)
  obtain ⟨first', hfirst, hsame⟩ := recovers_command wf plain true (fun _ => fits) fuel hfuel place'
    _ endsCommand_semicolon
  obtain ⟨rest', hrest, hsames⟩ := h _ ts hts
  refine ⟨.commanding negated start first' rest', ?_, ?_⟩
  · rw [Condition.pieces, heq,
      assignment?_eq_none (not_startsTarget_of_startsCommand (hstart place'))]
    simp only [hstart, if_true]
    rw [tokens_append_token, hfirst]
    simp only [at?_symbol, if_true]
    rw [advance_cons (by simp [hts.ne_nil]), hrest]
    rfl
  · rw [Condition.unplaced, Condition.unplaced, hsame, hsames]

/-- A command that is a condition by itself is read back. -/
theorem recovers_tested_command {negated : Bool} {p : Position} {c : Command} {fuel : Nat}
    (wf : c.WellFormed) (fits : c.FitsHeader) (plain : c.Plain)
    (hfuel : 4 * c.pieces.length ≤ fuel) :
    Recovers Condition.unplaced (EndsCondition (.command negated p c)) (condition (fuel + 1))
      (Condition.command negated p c).pieces (.command negated p c) := by
  intro place ts hts
  have hstart : ∀ place, startsCommand (tokens place c.pieces ++ ts) = true :=
    fun place => startsCommand_command wf place ts
  -- A semicolon would make it a command in front of a condition.
  obtain ⟨hbrace, hbody⟩ := hts.resolve_right fun h => h.2
  have hsemicolon : at? .semicolon ts = false := by
    rw [at?, hbrace]
    rfl
  obtain ⟨place', start, heq⟩ := condition_negation fuel negated place _ hts.ne_nil
    fun place => not_atWord_of_startsCommand (by decide) (hstart place)
  obtain ⟨c', hread, hsame⟩ := recovers_command wf plain true (fun _ => fits) fuel hfuel place' ts
    ⟨.inr (.inr hbrace), hbody⟩
  refine ⟨.command negated start c', ?_, ?_⟩
  · rw [Condition.pieces, heq,
      assignment?_eq_none (not_startsTarget_of_startsCommand (hstart place'))]
    simp only [hstart, if_true, hread, hsemicolon, Bool.false_eq_true, if_false]
  · rw [Condition.unplaced, Condition.unplaced, hsame]

/-- A comparison that is a condition is read back. -/
theorem recovers_comparison {negated : Bool} {p : Position} {lhs : Expr}
    {compared : Option (Comparator × Expr)} {fuel : Nat}
    (wf : (Condition.comparison negated p lhs compared).WellFormed)
    (plain : (Condition.comparison negated p lhs compared).Plain)
    (hfuel : 4 * (Condition.comparison negated p lhs compared).pieces.length ≤ fuel) :
    Recovers Condition.unplaced (EndsCondition (.comparison negated p lhs compared))
      (condition (fuel + 1)) (Condition.comparison negated p lhs compared).pieces
      (.comparison negated p lhs compared) := by
  intro place ts hts
  -- Behind the word in front it starts with a parenthesis, like nothing else in a condition.
  obtain ⟨ps, hps, hopen⟩ : ∃ ps,
      (Condition.comparison negated p lhs compared).pieces = negationPieces negated ++ ps ∧
        ∃ qs, ps = symbol .openParen :: qs := by
    cases compared with
    | none => exact ⟨_, rfl, _, rfl⟩
    | some compared => exact ⟨_, rfl, _, rfl⟩
  have hlength : (Condition.comparison negated p lhs compared).pieces.length =
      (negationPieces negated).length + ps.length := by rw [hps, List.length_append]
  obtain ⟨place', start, heq⟩ := condition_negation fuel negated place ps hts.ne_nil
    (by obtain ⟨qs, rfl⟩ := hopen; exact fun _ => rfl)
  have htarget : startsTarget (tokens place' ps ++ ts) = false := by
    obtain ⟨qs, rfl⟩ := hopen
    rfl
  have hstart : startsCommand (tokens place' ps ++ ts) = false := by
    obtain ⟨qs, rfl⟩ := hopen
    rfl
  refine ⟨.comparison negated start lhs compared, ?_, rfl⟩
  rw [hps, heq, assignment?_eq_none htarget]
  simp only [hstart, Bool.false_eq_true, if_false]
  exact reads_comparison wf plain hps (by omega) place' hts

/-- **Conditions are read back.** -/
theorem recovers_condition {c : Condition} (wf : c.WellFormed) (plain : c.Plain) :
    ∀ fuel, 4 * c.pieces.length + 1 ≤ fuel →
      Recovers Condition.unplaced (EndsCondition c) (condition fuel) c.pieces c := by
  -- `hlength` says how much fuel the parts of the condition have.
  induction c with
  | assigning negated p first rest ih =>
      intro fuel hfuel
      have hlength : (Condition.assigning negated p first rest).pieces.length =
          (negationPieces negated).length + (first.pieces.length + 1 + rest.pieces.length) := by
        simp [Condition.pieces]
        omega
      obtain ⟨fuel, rfl⟩ : ∃ n, fuel = n + 1 := ⟨fuel - 1, by omega⟩
      exact recovers_assigning wf.1 plain.1 (by omega) (ih wf.2 plain.2 fuel (by omega))
  | commanding negated p first rest ih =>
      intro fuel hfuel
      have hlength : (Condition.commanding negated p first rest).pieces.length =
          (negationPieces negated).length + (first.pieces.length + 1 + rest.pieces.length) := by
        simp [Condition.pieces]
        omega
      obtain ⟨fuel, rfl⟩ : ∃ n, fuel = n + 1 := ⟨fuel - 1, by omega⟩
      exact recovers_commanding wf.1 wf.2.1 plain.1 (by omega)
        (ih wf.2.2 plain.2 fuel (by omega))
  | command negated p c =>
      intro fuel hfuel
      have hlength : (Condition.command negated p c).pieces.length =
          (negationPieces negated).length + c.pieces.length := by
        simp [Condition.pieces]
      obtain ⟨fuel, rfl⟩ : ∃ n, fuel = n + 1 := ⟨fuel - 1, by omega⟩
      exact recovers_tested_command wf.1 wf.2 plain (by omega)
  | comparison negated p lhs compared =>
      intro fuel hfuel
      obtain ⟨fuel, rfl⟩ : ∃ n, fuel = n + 1 := ⟨fuel - 1, by omega⟩
      exact recovers_comparison wf plain (by omega)

/-! ## Headers of loops -/

/-- What a loop header is followed by: a body that does not look like options. -/
def AtBody (ts : List Token) : Prop := kind ts = .symbol .openBrace ∧ startsOptions true ts = false

theorem AtBody.ne_nil {ts : List Token} (h : AtBody ts) : ts ≠ [] := by
  rintro rfl
  cases h.1

theorem AtBody.endsCommand {ts : List Token} (h : AtBody ts) : EndsCommand true ts :=
  ⟨.inr (.inr h.1), h.2⟩

theorem AtBody.stops {ts : List Token} (h : AtBody ts) : stops (kind ts) = true := by
  rw [h.1]
  rfl

theorem AtBody.endsList {ts : List Token} (h : AtBody ts) : endsList (kind ts) = true := by
  rw [h.1]
  rfl

/-- Behind a target without accessors the header of a loop goes on with a comma or `in`. -/
theorem isItemsHeader_bare {t : Target} (h : t.IsBare) (place : Nat → Position × Bool) (u : Token)
    (us : List Token) : isItemsHeader (tokens place t.pieces ++ u :: us) =
      match u.kind with
      | .symbol .comma => isItemsHeader us
      | .word w => w = "in"
      | _ => false := by
  cases t with
  | skip => rfl
  | _ v =>
      obtain ⟨name, steps⟩ := v
      obtain rfl : steps = [] := h
      rfl

theorem isItemsHeader_not_bare {t : Target} (h : ¬ t.IsBare) (place : Nat → Position × Bool)
    (us : List Token) : isItemsHeader (tokens place t.pieces ++ us) = false := by
  cases t with
  | skip => exact absurd trivial h
  | _ v =>
      obtain ⟨name, steps⟩ := v
      cases steps with
      | nil => exact absurd rfl h
      | cons step steps => cases step <;> rfl

/-- Targets in front of an assignment do not look like what a loop goes through. -/
theorem isItemsHeader_assignment {ts : List Target} (hne : ts ≠ []) (op : AssignOp) :
    ∀ place p spaced us, isItemsHeader (tokens place (commas (ts.map Target.pieces)) ++
      ⟨.symbol op.token, p, spaced⟩ :: us) = false := by
  induction ts with
  | nil => exact absurd rfl hne
  | cons t ts ih =>
      intro place p spaced us
      -- With an accessor the header is given up at once; without one it ends at the symbol.
      by_cases hbare : t.IsBare
      · cases ts with
        | nil =>
            show isItemsHeader (tokens place t.pieces ++ _ :: us) = false
            rw [isItemsHeader_bare hbare]
            cases op <;> rfl
        | cons u ts =>
            show isItemsHeader (tokens place (t.pieces ++ symbol .comma ::
              commas ((u :: ts).map Target.pieces)) ++ _ :: us) = false
            rw [tokens_append_token, isItemsHeader_bare hbare]
            exact ih (by simp) _ p spaced us
      · cases ts with
        | nil => exact isItemsHeader_not_bare hbare place _
        | cons u ts =>
            show isItemsHeader (tokens place (t.pieces ++ symbol .comma :: _) ++ _ :: us) = false
            rw [tokens_append, List.append_assoc]
            exact isItemsHeader_not_bare hbare place _

/-- Targets without accessors and the word `in` look like what a loop goes through. -/
theorem isItemsHeader_items {ts : List Target} (hne : ts ≠ []) (bare : ∀ t ∈ ts, t.IsBare) :
    ∀ place p spaced us, isItemsHeader (tokens place (commas (ts.map Target.pieces)) ++
      ⟨.word "in", p, spaced⟩ :: us) = true := by
  induction ts with
  | nil => exact absurd rfl hne
  | cons t ts ih =>
      intro place p spaced us
      have hbare := bare t List.mem_cons_self
      cases ts with
      | nil =>
          show isItemsHeader (tokens place t.pieces ++ _ :: us) = true
          rw [isItemsHeader_bare hbare]
          rfl
      | cons u ts =>
          show isItemsHeader (tokens place (t.pieces ++ symbol .comma ::
            commas ((u :: ts).map Target.pieces)) ++ _ :: us) = true
          rw [tokens_append_token, isItemsHeader_bare hbare]
          exact ih (by simp) (fun x hx => bare x (List.mem_cons_of_mem _ hx)) _ p spaced us

theorem not_isItemsHeader_of_startsCommand {ts : List Token} (h : startsCommand ts = true) :
    isItemsHeader ts = false := by
  cases ts with
  | nil => rfl
  | cons t ts =>
      obtain ⟨k, p, spaced⟩ := t
      have htarget := not_startsTarget_of_startsCommand h
      -- Only a word starts a command, and of the words only `_` starts a target.
      cases k with
      | word w =>
          have hskip : decide (w = "_") = false := htarget
          cases ts <;> simp [isItemsHeader, hskip]
      | _ => cases h

theorem isItemsHeader_symbol {s : Symbol} {p : Position} {spaced : Bool} (ts : List Token) :
    isItemsHeader (⟨.symbol s, p, spaced⟩ :: ts) = false := by
  cases ts <;> rfl

/-- What a loop header looks at before it reads a condition. -/
structure LooksLikeCondition (ts : List Token) : Prop where
  not_brace : at? .openBrace ts = false
  not_count : atWord "count" ts = false
  not_items : isItemsHeader ts = false

theorem looksLikeCondition_not {p : Position} {spaced : Bool} (ts : List Token) :
    LooksLikeCondition (⟨.word "not", p, spaced⟩ :: ts) where
  not_brace := rfl
  not_count := by
    show decide (Decimal.asciiLower "not" = "count") = false
    decide +kernel
  not_items := by cases ts <;> rfl

theorem not_at?_of_startsCommand {s : Symbol} {ts : List Token} (h : startsCommand ts = true) :
    at? s ts = false := by
  unfold startsCommand at h
  rw [at?]
  split at h
  · next hk => rw [hk]; rfl
  · cases h

theorem not_at?_of_startsTarget {s : Symbol} {ts : List Token} (h : startsTarget ts = true) :
    at? s ts = false := by
  unfold startsTarget at h
  rw [at?]
  split at h
  · next hk => rw [hk]; rfl
  · next hk => rw [hk]; rfl
  · cases h

theorem looksLikeCondition_command {c : Command} (wf : IsCommandName c.name) (h : c.OpensLoop)
    (place : Nat → Position × Bool) (more : List Piece) (ts : List Token) :
    LooksLikeCondition (tokens place (c.pieces ++ more) ++ ts) := by
  have hstart := startsCommand_pieces wf place more ts
  refine ⟨not_at?_of_startsCommand hstart, ?_, not_isItemsHeader_of_startsCommand hstart⟩
  obtain ⟨parts, hpieces, -⟩ := commandPieces_eq_cons c
  rw [hpieces]
  exact decide_eq_false h

theorem looksLikeCondition_assignment {a : Assignment} (wf : a.WellFormed)
    (place : Nat → Position × Bool) (more : List Piece) (ts : List Token) :
    LooksLikeCondition (tokens place (a.pieces ++ more) ++ ts) := by
  -- All three are seen before the symbol of the assignment is passed.
  obtain ⟨p, spaced, us, htokens⟩ : ∃ p spaced us, tokens place (a.pieces ++ more) ++ ts =
      tokens place (commas (a.targets.map Target.pieces)) ++
        ⟨.symbol a.op.token, p, spaced⟩ :: us := by
    rw [Assignment.pieces, List.append_assoc, List.cons_append, tokens_append_token]
    exact ⟨_, _, _, rfl⟩
  have hstart := startsTarget_commas wf.1.1 place (⟨.symbol a.op.token, p, spaced⟩ :: us)
  rw [htokens]
  exact ⟨not_at?_of_startsTarget hstart, not_atWord_of_startsTarget (by decide) hstart,
    isItemsHeader_assignment wf.1.1 a.op _ _ _ _⟩

/-- A condition that may stand in a loop header looks like one. -/
theorem looksLikeCondition_pieces {c : Condition} (wf : c.WellFormed) (h : c.OpensLoop)
    (place : Nat → Position × Bool) (ts : List Token) :
    LooksLikeCondition (tokens place c.pieces ++ ts) := by
  cases c with
  | assigning negated p first rest =>
      cases negated with
      | true => exact looksLikeCondition_not _
      | false => exact looksLikeCondition_assignment wf.1 place _ ts
  | commanding negated p first rest =>
      cases negated with
      | true => exact looksLikeCondition_not _
      | false => exact looksLikeCondition_command wf.1.1 h place _ ts
  | command negated p c =>
      cases negated with
      | true => exact looksLikeCondition_not _
      | false =>
          show LooksLikeCondition (tokens place c.pieces ++ ts)
          simpa using looksLikeCondition_command wf.1.1 h place [] ts
  | comparison negated p lhs compared =>
      cases negated with
      | true => cases compared <;> exact looksLikeCondition_not _
      | false => cases compared <;> exact ⟨rfl, rfl, isItemsHeader_symbol _⟩

theorem recovers_loopSource {s : LoopSource} (wf : s.WellFormed) (plain : s.Plain) (fuel : Nat)
    (hfuel : 4 * s.pieces.length ≤ fuel) :
    Recovers LoopSource.unplaced AtBody (loopSource fuel) s.pieces s := by
  intro place ts hts
  cases s with
  | command c =>
      obtain ⟨c', hread, hsame⟩ := recovers_command wf.1 plain true (fun _ => wf.2) fuel hfuel place
        ts hts.endsCommand
      have hstart := startsCommand_command wf.1 place ts
      refine ⟨.command c', ?_, by rw [LoopSource.unplaced, hsame]; rfl⟩
      show loopSource fuel (tokens place c.pieces ++ ts) = _
      obtain ⟨parts, hpieces, -⟩ := commandPieces_eq_cons c
      rw [loopSource]
      have hkind : kind (tokens place c.pieces ++ ts) = .word (firstPart c.name) := by
        rw [hpieces]
        rfl
      simp only [hkind, hstart, if_true, hread]
      rfl
  | _ v =>
      have hread := (Variable.reads wf plain fuel hfuel).apply place hts.ne_nil hts.stops
      refine ⟨.variable v, ?_, rfl⟩
      show (reference fuel (tokens place v.pieces ++ ts)).map _ = _
      rw [hread]
      rfl

theorem recovers_clause {c : Clause} (wf : c.WellFormed) (plain : c.Plain) (fuel : Nat)
    (hfuel : 4 * c.pieces.length ≤ fuel) :
    Recovers Clause.unplaced AtBody (nextClause fuel) c.pieces c := by
  intro place ts hts
  cases c with
  | assignment a =>
      obtain ⟨a', hread, hsame⟩ := recovers_assignment wf plain fuel hfuel place hts.ne_nil
        hts.endsList
      refine ⟨.assignment a', ?_, by rw [Clause.unplaced, hsame]; rfl⟩
      show nextClause fuel (tokens place a.pieces ++ ts) = _
      rw [nextClause, hread]
  | command c p =>
      obtain ⟨c', hread, hsame⟩ := recovers_command wf.1 plain true (fun _ => wf.2) fuel hfuel place
        ts hts.endsCommand
      have hstart := startsCommand_command wf.1 place ts
      refine ⟨.command c' (here (tokens place c.pieces ++ ts)), ?_, ?_⟩
      · show nextClause fuel (tokens place c.pieces ++ ts) = _
        rw [nextClause, assignment?_eq_none (not_startsTarget_of_startsCommand hstart)]
        simp only [hstart, if_true, hread]
        rfl
      · rw [Clause.unplaced, Clause.unplaced, hsame]

/-- The header of a loop is read as a condition if it looks like one. -/
theorem loopMode_condition {fuel : Nat} {ts : List Token} (h : LooksLikeCondition ts) :
    loopMode fuel ts =
      match condition fuel ts with
      | .error e => .error e
      | .ok (head, ts) =>
          if at? .semicolon ts then
            match splitInit head with
            | .error e => .error e
            | .ok (init, test) =>
                (nextClause fuel (advance ts)).map fun (next, ts) => (.bounded init test next, ts)
          else .ok (.whilst head, ts) := by
  rw [loopMode, if_neg (ne_true_of_eq_false h.not_brace), if_neg (ne_true_of_eq_false h.not_count)]
  exact if_neg (ne_true_of_eq_false h.not_items)

/-- A condition that is a clause and a test up to positions is split into them. -/
theorem splitInit_of_unplaced {init : Clause} {test c : Condition}
    (h : c.unplaced = (init.before test).unplaced) :
    ∃ init' test', splitInit c = .ok (init', test') ∧ init'.unplaced = init.unplaced ∧
      test'.unplaced = test.unplaced := by
  cases init with
  | assignment a =>
      cases c with
      | assigning negated p first rest =>
          obtain ⟨rfl, -, hfirst, hrest⟩ := Condition.assigning.inj h
          exact ⟨.assignment first, rest, rfl, congrArg Clause.assignment hfirst, hrest⟩
      | commanding | command | comparison => cases h
  | command a p =>
      cases c with
      | commanding negated q first rest =>
          obtain ⟨rfl, -, hfirst, hrest⟩ := Condition.commanding.inj h
          exact ⟨.command first q, rest, rfl, congrArg (Clause.command · .nowhere) hfirst, hrest⟩
      | assigning | command | comparison => cases h

/-- The header of a counting loop is read back. -/
theorem recovers_count {times : Expr} (wf : times.WellFormed) (plain : times.Plain) {fuel : Nat}
    (hfuel : 4 * (parens times.pieces).length ≤ fuel) :
    Recovers LoopMode.unplaced AtBody (loopMode fuel) (LoopMode.count times).pieces
      (.count times) := by
  intro place ts hts
  have hread := (readable_parens (times.readable wf plain)).reads fuel hfuel
  have hword : Decimal.asciiLower "count" = "count" := by decide +kernel
  have hcount : atWord "count" (tokens place (LoopMode.count times).pieces ++ ts) = true :=
    decide_eq_true hword
  have hbrace : at? .openBrace (tokens place (LoopMode.count times).pieces ++ ts) = false := rfl
  have hadvance : advance (tokens place (LoopMode.count times).pieces ++ ts) =
      tokens (fun n => place (n + 1)) (parens times.pieces) ++ ts :=
    advance_cons (by simp [hts.ne_nil])
  refine ⟨.count times, ?_, rfl⟩
  rw [loopMode]
  simp only [hbrace, hcount, Bool.false_eq_true, if_false, if_true, hadvance]
  rw [hread.apply _ hts.ne_nil hts.stops]
  rfl

/-- The header of a loop through the elements of something is read back. -/
theorem recovers_items {goals : List Target} {source : LoopSource} (hne : goals ≠ [])
    (wf : ∀ t ∈ goals, t.WellFormed ∧ t.IsBare) (plain : ∀ t ∈ goals, t.Plain) {fuel : Nat}
    (hfuel : 4 * (commas (goals.map Target.pieces)).length + 1 ≤ fuel)
    (h : Recovers LoopSource.unplaced AtBody (loopSource fuel) source.pieces source) :
    Recovers LoopMode.unplaced AtBody (loopMode fuel) (LoopMode.items goals source).pieces
      (.items goals source) := by
  intro place ts hts
  have htargets := reads_targets hne (fun t ht => (wf t ht).1) plain fuel hfuel
  have hstart := startsTarget_commas hne place
  have hitems := isItemsHeader_items hne (fun t ht => (wf t ht).2) place
  obtain ⟨source', hread, hsame⟩ :=
    h (fun n => place (n + ((commas (goals.map Target.pieces)).length + 1))) ts hts
  refine ⟨.items goals source', ?_, by rw [LoopMode.unplaced, hsame]; rfl⟩
  rw [LoopMode.pieces, tokens_append_token, loopMode]
  simp only [not_at?_of_startsTarget (hstart _),
    not_atWord_of_startsTarget (by decide : "count" ≠ "_") (hstart _), hitems,
    Bool.false_eq_true, if_false, if_true]
  rw [htargets _ _ _ rfl]
  simp only []
  rw [advance_cons (by simp [hts.ne_nil]), hread]
  rfl

/-- The header of a loop with three clauses is read back: the first clause and the test are read
as one condition, which is split. -/
theorem recovers_bounded {init next : Clause} {test : Condition}
    (wf : (init.before test).WellFormed) (plain : (init.before test).Plain)
    (opens : (init.before test).OpensLoop)
    (ends : (init.before test).EndsInComparison) {fuel : Nat}
    (hfuel : 4 * (init.before test).pieces.length + 1 ≤ fuel)
    (h : Recovers Clause.unplaced AtBody (nextClause fuel) next.pieces next) :
    Recovers LoopMode.unplaced AtBody (loopMode fuel)
      ((init.before test).pieces ++ symbol .semicolon :: next.pieces)
      (.bounded init test next) := by
  intro place ts hts
  rw [tokens_append_token]
  obtain ⟨head, hread, hsame⟩ := recovers_condition wf plain fuel hfuel place
    (⟨.symbol .semicolon, _, _⟩ :: (tokens _ next.pieces ++ ts)) (.inr ⟨rfl, ends⟩)
  obtain ⟨init', test', hsplit, hinit, htest⟩ := splitInit_of_unplaced hsame
  obtain ⟨next', hnext, hnextSame⟩ := h _ ts hts
  refine ⟨.bounded init' test' next', ?_, ?_⟩
  · rw [loopMode_condition (looksLikeCondition_pieces wf opens place _), hread]
    simp only [at?_symbol, if_true, hsplit]
    rw [advance_cons (by simp [hts.ne_nil]), hnext]
    rfl
  · rw [LoopMode.unplaced, LoopMode.unplaced, hinit, htest, hnextSame]

/-- **Headers of loops are read back.** -/
theorem recovers_loopMode {m : LoopMode} (wf : m.WellFormed) (plain : m.Plain) (fuel : Nat)
    (hfuel : 4 * m.pieces.length + 1 ≤ fuel) :
    Recovers LoopMode.unplaced AtBody (loopMode fuel) m.pieces m := by
  cases m with
  | infinite =>
      intro place ts hts
      have hbrace : at? .openBrace ts = true := by
        rw [at?, hts.1]
        rfl
      refine ⟨.infinite, ?_, rfl⟩
      show loopMode fuel ts = _
      rw [loopMode, if_pos hbrace]
  | count times =>
      have hlength : (LoopMode.count times).pieces.length = (parens times.pieces).length + 1 := rfl
      exact recovers_count wf plain (by omega)
  | items goals source =>
      obtain ⟨hne, hgoals, hsource⟩ := wf
      have hlength : (LoopMode.items goals source).pieces.length =
          (commas (goals.map Target.pieces)).length + 1 + source.pieces.length := by
        simp [LoopMode.pieces]
        omega
      exact recovers_items hne hgoals plain.1 (by omega)
        (recovers_loopSource hsource plain.2 fuel (by omega))
  | whilst test =>
      intro place ts hts
      obtain ⟨test', hread, hsame⟩ := recovers_condition wf.1 plain fuel hfuel place ts (.inl hts)
      have hsemicolon : at? .semicolon ts = false := by
        rw [at?, hts.1]
        rfl
      refine ⟨.whilst test', ?_, by rw [LoopMode.unplaced, hsame]; rfl⟩
      rw [LoopMode.pieces, loopMode_condition (looksLikeCondition_pieces wf.1 wf.2 place ts), hread]
      simp only [hsemicolon, Bool.false_eq_true, if_false]
  | bounded init test next =>
      obtain ⟨hinit, hopens, htest, hends, hnext⟩ := wf
      obtain ⟨hinitPlain, htestPlain, hnextPlain⟩ := plain
      -- The first clause is read as a part of the test (`Clause.before`).
      have hpieces : (LoopMode.bounded init test next).pieces =
          (init.before test).pieces ++ symbol .semicolon :: next.pieces := by
        cases init <;> simp [LoopMode.pieces, Clause.pieces, Clause.before, Condition.pieces,
          negationPieces]
      have hlength : (LoopMode.bounded init test next).pieces.length =
          (init.before test).pieces.length + 1 + next.pieces.length := by
        rw [hpieces, List.length_append, List.length_cons]
        omega
      have hwf : (init.before test).WellFormed := by
        cases init with
        | assignment a => exact ⟨hinit, htest⟩
        | command c p => exact ⟨hinit.1, hinit.2, htest⟩
      have hplain : (init.before test).Plain := by
        cases init <;> exact ⟨hinitPlain, htestPlain⟩
      have hopens : (init.before test).OpensLoop := by
        cases init with
        | assignment a => trivial
        | command c p => exact hopens
      have hends : (init.before test).EndsInComparison := by cases init <;> exact hends
      rw [hpieces]
      exact recovers_bounded hwf hplain hopens hends (by omega)
        (recovers_clause hnext hnextPlain fuel (by omega))

end TabPilot.Grammar
