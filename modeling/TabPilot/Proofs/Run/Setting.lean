import TabPilot.Proofs.Path.References
import TabPilot.Proofs.Run.Blame
import TabPilot.Proofs.Scope.Templates

set_option autoImplicit false

/-!
# Setting a variable by a command

`$x = "template"` and `vars::set 'x' { value: "template" }` both evaluate the text in double quotes,
which fills it in. The command then takes a string it is given for a template once more, unless it
is told `interpolate: false`. So the two agree exactly as long as the text that comes out the first
time has nothing in it to fill in.
-/

namespace TabPilot

/-! ## Threads by themselves -/

/-- A thread comes to an end when nothing else goes on: it takes its steps, and time passes while
it waits. -/
inductive Thread.Ends (c : Catalogue) : World → Thread → World → Except Fault Unit → Prop
  | ended {w : World} {t : Thread} {r : Except Fault Unit} (h : t.result? = some r) :
      Ends c w t w r
  | onward {w w' : World} {t : Thread} {r : Except Fault Unit} (h : t.result? = none)
      (next : Ends c (w.advanceThread c t).1 (w.advanceThread c t).2 w' r) : Ends c w t w' r

namespace Thread.Ends

variable {c : Catalogue} {w w₁ w₂ : World} {t : Thread} {r r₁ r₂ : Except Fault Unit}

/-- There is one way for a thread to come to an end. -/
theorem unique (h₁ : Ends c w t w₁ r₁) (h₂ : Ends c w t w₂ r₂) : w₁ = w₂ ∧ r₁ = r₂ := by
  induction h₁ with
  | ended h =>
      cases h₂ with
      | ended h' => exact ⟨rfl, Option.some.inj (h.symm.trans h')⟩
      | onward h' _ => rw [h] at h'; cases h'
  | onward h _ ih =>
      cases h₂ with
      | ended h' => rw [h] at h'; cases h'
      | onward _ next => exact ih next

/-- A thread that has something to do takes a step. -/
theorem of_step (h : t.result? = none) (hblocked : t.isBlocked w = false)
    (next : Ends c (t.step c w).1 (t.step c w).2 w₁ r) : Ends c w t w₁ r := by
  refine .onward h ?_
  rw [World.advanceThread, if_neg (by rw [hblocked]; exact Bool.false_ne_true)]
  exact next

end Thread.Ends

namespace Script

/-! ## Two ways of setting a variable -/

/-- A text is scanned into tokens of these kinds, wherever they stand. -/
def Spells (source : String) (kinds : List TokenKind) : Prop :=
  ∃ place, Token.scan source.toList = .ok (Piece.tokens place (kinds.map .token))

/-- The tokens of `$name = "template"`. -/
def assigning (name template : String) : List TokenKind :=
  [.variable name, .symbol .assign, .text template true, .endOfInput]

/-- The tokens of `vars::set 'name' { value: "template" } -> null`. -/
def setting (name template : String) : List TokenKind :=
  [.word "vars", .symbol .doubleColon, .word "set", .text name false, .symbol .openBrace,
    .word "value", .symbol .colon, .text template true, .symbol .closeBrace, .symbol .arrow,
    .word "null", .endOfInput]

/-- The tokens of `vars::set 'name' { value: "template", interpolate: false } -> null`. -/
def settingAsGiven (name template : String) : List TokenKind :=
  [.word "vars", .symbol .doubleColon, .word "set", .text name false, .symbol .openBrace,
    .word "value", .symbol .colon, .text template true, .symbol .comma, .word "interpolate",
    .symbol .colon, .word "false", .symbol .closeBrace, .symbol .arrow, .word "null", .endOfInput]

variable {source name template : String}

theorem parse_assigning (h : Spells source (assigning name template)) :
    ∃ p, parse source =
      .ok ⟨[.assign ⟨[.variable ⟨name, []⟩], .set, [.text template true], p⟩], [], source,
        none⟩ := by
  obtain ⟨place, hscan⟩ := h
  refine ⟨(place 0).1, ?_⟩
  rw [parse, read, hscan]
  rfl

def setCommand (name : String) (options : List (String × Expr)) (p : Position) : Command :=
  ⟨"vars::set", some (.text name false), some options, .discard, p⟩

theorem parse_setting (h : Spells source (setting name template)) :
    ∃ p, parse source =
      .ok ⟨[.commands [setCommand name [("value", .text template true)] p] p], [], source,
        none⟩ := by
  obtain ⟨place, hscan⟩ := h
  refine ⟨(place 0).1, ?_⟩
  rw [parse, read, hscan]
  cbv

theorem parse_settingAsGiven (h : Spells source (settingAsGiven name template)) :
    ∃ p, parse source =
      .ok ⟨[.commands [setCommand name
        [("value", .text template true), ("interpolate", .literal (.bool false))] p] p], [],
        source, none⟩ := by
  obtain ⟨place, hscan⟩ := h
  refine ⟨(place 0).1, ?_⟩
  rw [parse, read, hscan]
  cbv

end Script

/-! ## One statement -/

namespace Thread.Ends

variable {c : Catalogue} {w w' : World} {s : ScopeId} {p q : Position}

/-- A statement that is done at once and whose body has no other. -/
theorem of_flow : Ends c w ⟨.flow .normal, [.statements p [] s]⟩ w (.ok ()) :=
  .of_step rfl rfl (.of_step rfl rfl (.ended rfl))

theorem of_failed {e : Fault} :
    Ends c w ⟨.failed e, [.statements p [] s]⟩ w (.error (e.placed p)) :=
  .of_step rfl rfl (.ended rfl)

/-- A thread of one assignment ends with what the assignment comes to. -/
theorem assign (c : Catalogue) (w : World) (s : ScopeId) (a : Assignment) :
    ∃ r, Ends c w (.start [.assign a] s) (w.assign .owner s a).1 r ∧
      (r = .ok () ↔ (w.assign .owner s a).2 = none) := by
  have hbegin (r : Except Fault Unit)
      (next : Ends c (w.begin s (.assign a)).1
        ⟨(w.begin s (.assign a)).2.1,
          (w.begin s (.assign a)).2.2 ++ [Frame.statements a.position [] s]⟩
        (w.assign .owner s a).1 r) :
      Ends c w (.start [.assign a] s) (w.assign .owner s a).1 r := by
    refine .of_step rfl rfl ?_
    rw [start, step]
    exact next
  cases hassign : w.assign .owner s a with
  | mk w' failure =>
      rw [hassign] at hbegin
      simp only [World.begin, hassign, World.ended] at hbegin
      cases failure with
      | none => exact ⟨_, hbegin _ of_flow, by simp⟩
      | some e => exact ⟨_, hbegin _ of_failed, by simp⟩

/-- A thread of one command calls it first. -/
theorem call (c : Catalogue) (w : World) (s : ScopeId) (cmd : Command) (p : Position)
    {r : Except Fault Unit}
    (next : Ends c (w.callCommand c s cmd).1
      ⟨(w.callCommand c s cmd).2, [.commands [] s, .statements p [] s]⟩ w' r) :
    Ends c w (.start [.commands [cmd] p] s) w' r := by
  refine .of_step rfl rfl ?_
  rw [start, step]
  refine .of_step rfl rfl ?_
  simp only [after, World.begin, List.cons_append, List.nil_append, step]
  exact next

theorem of_value {v : Value} :
    Ends c w ⟨.value v, [.commands [] s, .statements p [] s]⟩ w (.ok ()) :=
  .of_step rfl rfl of_flow

/-- The pause after a command takes time and changes nothing else. -/
theorem of_pause (stop : Instant) (v : Value) :
    ∃ w', Ends c w ⟨.pause stop v, [.commands [] s, .statements p [] s]⟩ w' (.ok ()) ∧
      w'.store = w.store := by
  have hgo (w : World) (h : stop ≤ w.now) :
      Ends c w ⟨.pause stop v, [.commands [] s, .statements p [] s]⟩ w (.ok ()) := by
    refine .of_step rfl (by simp [isBlocked, h]) ?_
    rw [step]
    simp only [if_pos h]
    exact of_value
  by_cases h : stop ≤ w.now
  · exact ⟨w, hgo w h, rfl⟩
  · have hblocked : isBlocked w ⟨.pause stop v, [.commands [] s, .statements p [] s]⟩ = true := by
      simpa [isBlocked] using h
    refine ⟨{ w with now := stop.tick }, .onward rfl ?_, rfl⟩
    rw [World.advanceThread, if_pos hblocked, wake?, Option.getD_some]
    exact hgo _ stop.le_tick

end Thread.Ends

/-! ## What the two ways come to -/

/-- A text is the source of a script without handlers, which by itself in a scope comes to an
end. -/
def Script.RunsTo (c : Catalogue) (source : String) (s : ScopeId) (w w' : World)
    (r : Except Fault Unit) : Prop :=
  ∃ script, parse source = .ok script ∧ script.handlers = [] ∧
    Thread.Ends c w (.start script.statements s) w' r

theorem Script.RunsTo.unique {c : Catalogue} {source : String} {s : ScopeId} {w w₁ w₂ : World}
    {r₁ r₂ : Except Fault Unit} (h₁ : RunsTo c source s w w₁ r₁) (h₂ : RunsTo c source s w w₂ r₂) :
    w₁ = w₂ ∧ r₁ = r₂ := by
  obtain ⟨script, hparse, -, hends⟩ := h₁
  obtain ⟨script', hparse', -, hends'⟩ := h₂
  obtain rfl := Except.ok.inj (hparse.symm.trans hparse')
  exact hends.unique hends'

theorem Path.parse_name {name : String} (h : IsVariableName name) :
    Path.parse name = [.key name] := by
  have hchars : Reference.chars ⟨name, []⟩ = name.toList := List.append_nil _
  have hnone (P : Reference.Step → Prop) : ∀ step ∈ ([] : List Reference.Step), P step :=
    fun _ hstep => absurd hstep List.not_mem_nil
  rw [parse, ← hchars, Reference.ofChars_chars ⟨h, hnone _⟩ (hnone _)]
  rfl

namespace World

variable {w : World} {s : ScopeId} {name text : String} {v : Value} {p : Position}

/-- A variable is set as an assignment sets it, and nothing else is changed. -/
def withVariable (w : World) (s : ScopeId) (name : String) (v : Value) : World :=
  (w.changeStore fun st => st.put .owner s [.key name] v).1

/-- An assignment of a template fills it in. -/
theorem assign_template (template : String) :
    w.assign .owner s ⟨[.variable ⟨name, []⟩], .set, [.text template true], p⟩ =
      match Template.fill (w.read s) template with
      | .ok text => (w.withVariable s name (.string text), none)
      | .error e => (w, some (.template e)) := by
  rw [assign, changeStore]
  simp only [Store.assign, Expr.evalAll, Expr.eval, World.read]
  cases Template.fill (w.store.get s) template <;> rfl

end World

namespace Variables

variable {w : World} {s : ScopeId} {name text : String} {i : Invocation}

theorem newValue_template (hvalue : i.options.get? "value" = some (.string text))
    (hflag : i.flag "interpolate" true = .ok true) :
    newValue w i =
      match Template.fill (w.read i.scope) text with
      | .ok again => .ok (.string again)
      | .error e => .error (faultError (.template e)) := by
  rw [newValue, hvalue]
  simp only [Option.getD_some, hflag]
  rfl

theorem newValue_asGiven (hvalue : i.options.get? "value" = some (.string text))
    (hflag : i.flag "interpolate" true = .ok false) : newValue w i = .ok (.string text) := by
  rw [newValue, hvalue]
  simp only [Option.getD_some, hflag]

theorem set_eq (hname : IsVariableName name) (hkey : i.argument = some (.string name))
    (hparent : i.option? "parent" = none) :
    set w i =
      match newValue w i with
      | .ok v => (w.withVariable i.scope name v, .ok v)
      | .error e => (w, .error e) := by
  have htext : i.requiredText = .ok name := by
    rw [Invocation.requiredText, Invocation.required, hkey]
  have htarget : target w i = .ok i.scope := by
    rw [target, levels, hparent]
    rfl
  rw [set, htext, htarget]
  cases newValue w i with
  | error e => rfl
  | ok v =>
      show write w i.scope (Path.parse name) v v = _
      rw [Path.parse_name hname]
      rfl

end Variables

namespace Script

variable {w : World} {s : ScopeId} {name : String} {p : Position}

/-- How a command of the standard catalogue is found that sets a variable. -/
theorem command_set :
    Catalogue.standard.command "vars::set" =
      .ok (⟨"set", .new .required ["value", "interpolate", "parent"], Variables.set⟩, "set") := by
  cbv

def activeSet (name : String) (entries : List (String × Expr)) (s : ScopeId) (p : Position) :
    ActiveCommand :=
  ⟨setCommand name entries p, "set", s, none⟩

theorem callCommand_set (hname : IsVariableName name) {entries : List (String × Expr)}
    {values : List (String × Value)} (hentries : Expr.evalEntries (w.read s) entries = .ok values)
    (hfits : (Signature.new .required ["value", "interpolate", "parent"]).strangeOption?
      (Record.ofList values) = none)
    (hparent : (Record.ofList values).get? "parent" = none) :
    w.callCommand .standard s (setCommand name entries p) =
      match Variables.newValue w ⟨some (.string name), Record.ofList values, s⟩ with
      | .ok v => (w.withVariable s name v).settle (activeSet name entries s p) (.ok v)
      | .error e => w.settle (activeSet name entries s p) (.error e) := by
  -- The name is given as a text, so only the options are evaluated.
  have hprepare : Catalogue.standard.prepare (w.read s) s (setCommand name entries p) =
      .ok ⟨activeSet name entries s p, Variables.set,
        ⟨some (.string name), Record.ofList values, s⟩⟩ := by
    have hrefusal : (Signature.new .required ["value", "interpolate", "parent"]).refusal?
        "vars::set" true (Record.ofList values) = none := by
      simp only [Signature.refusal?, Signature.new] at hfits ⊢
      rw [hfits]
      rfl
    have hargument : Expr.evalOptional (w.read s) (some (.text name false)) =
        .ok (some (.string name)) := rfl
    have htarget : Destination.discard.path (w.read s) = .ok none := rfl
    simp only [Catalogue.prepare, setCommand, command_set, Option.getD_some, hentries, hargument,
      htarget, bind, Except.bind, Option.isSome_some, hrefusal]
    rfl
  have hoption : Invocation.option? ⟨some (.string name), Record.ofList values, s⟩ "parent" =
      none := by
    rw [Invocation.option?, hparent]
  rw [World.callCommand, hprepare]
  simp only [Variables.set_eq (i := ⟨some (.string name), Record.ofList values, s⟩) hname rfl
    hoption]
  cases Variables.newValue w ⟨some (.string name), Record.ofList values, s⟩ <;> rfl

/-- A command that succeeds, by itself. -/
theorem ends_of_settle_ok {cmd : Command} {entries : List (String × Expr)} {w' : World} {v : Value}
    (h : w.callCommand .standard s cmd = w'.settle (activeSet name entries s p) (.ok v)) :
    ∃ w'', Thread.Ends .standard w (.start [.commands [cmd] p] s) w'' (.ok ()) ∧
      w''.store = w'.store := by
  have hconclude : w'.conclude (activeSet name entries s p) (.ok v) = (w', .ok v.normalize) := rfl
  rw [World.settle, hconclude] at h
  cases hdelay : w'.commandDelay? with
  | none =>
      simp only [hdelay] at h
      refine ⟨w', .call _ _ _ _ _ ?_, rfl⟩
      rw [h]
      exact .of_value
  | some d =>
      simp only [hdelay] at h
      obtain ⟨w'', hends, hstore⟩ := Thread.Ends.of_pause (c := .standard) (w := w') (s := s)
        (p := p) (w'.now + d) v.normalize
      refine ⟨w'', .call _ _ _ _ _ ?_, hstore⟩
      rw [h]
      exact hends

theorem ends_of_settle_error {cmd : Command} {a : ActiveCommand} {e : Error}
    (h : w.callCommand .standard s cmd = w.settle a (.error e)) :
    ∃ w' fault, Thread.Ends .standard w (.start [.commands [cmd] p] s) w' (.error fault) ∧
      fault.message = (a.fault e).message ∧ w'.store = w.store := by
  have hsettle : w.settle a (.error e) = (w.note (a.failureEntry e), .failed (a.fault e)) := rfl
  refine ⟨w.note (a.failureEntry e), (a.fault e).placed p, .call _ _ _ _ _ ?_, rfl, rfl⟩
  rw [h, hsettle]
  exact .of_step rfl rfl .of_failed

/-- The assignment succeeds just if the template can be filled in. -/
theorem runs_assigning_iff {w₁ : World} {source template : String}
    (hsource : Spells source (assigning name template)) :
    RunsTo .standard source s w w₁ (.ok ()) ↔
      ∃ text, Template.fill (w.read s) template = .ok text ∧
        w₁ = w.withVariable s name (.string text) := by
  obtain ⟨p, hparse⟩ := parse_assigning hsource
  obtain ⟨r, hends, hr⟩ := Thread.Ends.assign .standard w s
    ⟨[.variable ⟨name, []⟩], .set, [.text template true], p⟩
  rw [World.assign_template] at hends hr
  constructor
  · rintro ⟨script, hscript, -, hends'⟩
    obtain rfl := Except.ok.inj (hparse.symm.trans hscript)
    obtain ⟨rfl, rfl⟩ := hends'.unique hends
    cases hfill : Template.fill (w.read s) template with
    | error e => simp [hfill] at hr
    | ok text => exact ⟨text, rfl, rfl⟩
  · rintro ⟨text, hfill, rfl⟩
    rw [hfill] at hends hr
    obtain rfl := hr.mpr rfl
    exact ⟨_, hparse, rfl, hends⟩

theorem runs_setting {source template text : String} (hname : IsVariableName name)
    (hsource : Spells source (setting name template))
    (hfill : Template.fill (w.read s) template = .ok text) :
    match Template.fill (w.read s) text with
    | .ok again => ∃ w', RunsTo .standard source s w w' (.ok ()) ∧
        w'.store = (w.store.set s [.key name] (.string again)).1
    | .error e => ∃ w' fault, RunsTo .standard source s w w' (.error fault) ∧
        fault.message = "Error running command 'set': " ++ e.message ∧ w'.store = w.store := by
  obtain ⟨p, hparse⟩ := parse_setting hsource
  have hentries : Expr.evalEntries (w.read s) [("value", .text template true)] =
      .ok [("value", .string text)] := by
    simp only [Expr.evalEntries, Expr.eval, hfill]
    rfl
  have hcall := callCommand_set (p := p) hname hentries rfl rfl
  rw [Variables.newValue_template rfl rfl] at hcall
  show match Template.fill (w.read s) text with | .ok _ => _ | .error _ => _
  cases hagain : Template.fill (w.read s) text with
  | ok again =>
      simp only [hagain] at hcall
      obtain ⟨w', hends, hstore⟩ := ends_of_settle_ok hcall
      exact ⟨w', ⟨_, hparse, rfl, hends⟩, hstore⟩
  | error e =>
      simp only [hagain] at hcall
      obtain ⟨w', fault, hends, hmessage, hstore⟩ := ends_of_settle_error hcall
      exact ⟨w', fault, ⟨_, hparse, rfl, hends⟩, hmessage, hstore⟩

theorem runs_settingAsGiven {source template text : String} (hname : IsVariableName name)
    (hsource : Spells source (settingAsGiven name template))
    (hfill : Template.fill (w.read s) template = .ok text) :
    ∃ w', RunsTo .standard source s w w' (.ok ()) ∧
      w'.store = (w.store.set s [.key name] (.string text)).1 := by
  obtain ⟨p, hparse⟩ := parse_settingAsGiven hsource
  have hentries : Expr.evalEntries (w.read s)
      [("value", .text template true), ("interpolate", .literal (.bool false))] =
      .ok [("value", .string text), ("interpolate", .bool false)] := by
    simp only [Expr.evalEntries, Expr.eval, hfill]
    rfl
  have hcall := callCommand_set (p := p) hname hentries (by cbv) (by cbv)
  rw [Variables.newValue_asGiven (by cbv) (by cbv)] at hcall
  obtain ⟨w', hends, hstore⟩ := ends_of_settle_ok hcall
  exact ⟨w', ⟨_, hparse, rfl, hends⟩, hstore⟩

/-- **Setting a variable by a command** fills in a template twice. Where the assignment succeeds, it
stores the text the template is filled in to; the command fills that text in again, and sets the
variable to what comes of it or fails and changes nothing. A text without braces to fill in is left
as the assignment leaves it, and so is every text under `interpolate: false`. -/
theorem setting_fills_in_again {source bySetting asGiven template : String} {w₁ : World}
    (hname : IsVariableName name) (hassign : Spells source (assigning name template))
    (hset : Spells bySetting (setting name template))
    (hgiven : Spells asGiven (settingAsGiven name template))
    (h : RunsTo .standard source s w w₁ (.ok ())) :
    ∃ text, Template.fill (w.read s) template = .ok text ∧
      w₁.store = (w.store.set s [.key name] (.string text)).1 ∧
      (match Template.fill (w.read s) text with
      | .ok again => ∃ w₂, RunsTo .standard bySetting s w w₂ (.ok ()) ∧
          w₂.store = (w.store.set s [.key name] (.string again)).1
      | .error e => ∃ w₂ fault, RunsTo .standard bySetting s w w₂ (.error fault) ∧
          fault.message = "Error running command 'set': " ++ e.message ∧ w₂.store = w.store) ∧
      (Template.Inert text.toList →
        ∃ w₂, RunsTo .standard bySetting s w w₂ (.ok ()) ∧ w₂.store = w₁.store) ∧
      ∃ w₂, RunsTo .standard asGiven s w w₂ (.ok ()) ∧ w₂.store = w₁.store := by
  obtain ⟨text, hfill, rfl⟩ := (runs_assigning_iff hassign).mp h
  have hagain := runs_setting hname hset hfill
  refine ⟨text, hfill, rfl, hagain, fun hinert => ?_, runs_settingAsGiven hname hgiven hfill⟩
  rw [Template.fill_of_inert hinert] at hagain
  exact hagain

/-! ### A text that looks like a template -/

def bracedWorld : World :=
  { World.empty with
    store := ⟨#[⟨Record.ofList [("n", .int 1), ("t", .string "\x7bn\x7d")], []⟩]⟩ }

theorem fill_bracedWorld :
    Template.fill (bracedWorld.read 0) "\x7bt\x7d" = .ok "\x7bn\x7d" ∧
      Template.fill (bracedWorld.read 0) "\x7bn\x7d" = .ok "1" := by
  constructor <;> cbv

def copying : String := "$x = \"\x7bt\x7d\""

def copyingByCommand : String := "vars::set 'x' \x7b value: \"\x7bt\x7d\" \x7d -> null"

def copyingAsGiven : String :=
  "vars::set 'x' \x7b value: \"\x7bt\x7d\", interpolate: false \x7d -> null"

theorem spells_copying : Spells copying (assigning "x" "\x7bt\x7d") := by
  refine ⟨fun i => (⟨1, [1, 4, 6, 11].getD i 0⟩, true), ?_⟩
  cbv

theorem spells_copyingByCommand : Spells copyingByCommand (setting "x" "\x7bt\x7d") := by
  refine ⟨fun i => (⟨1, [1, 5, 7, 11, 15, 17, 22, 24, 30, 32, 35, 39].getD i 0⟩,
    [true, false, false, true, true, true, false].getD i true), ?_⟩
  cbv

theorem spells_copyingAsGiven : Spells copyingAsGiven (settingAsGiven "x" "\x7bt\x7d") := by
  refine ⟨fun i => (⟨1, [1, 5, 7, 11, 15, 17, 22, 24, 29, 31, 42, 44, 50, 52, 55, 59].getD i 0⟩,
    [true, false, false, true, true, true, false, true, false, true, false].getD i true), ?_⟩
  cbv

theorem runs_copying :
    RunsTo .standard copying 0 bracedWorld
      (bracedWorld.withVariable 0 "x" (.string "\x7bn\x7d")) (.ok ()) :=
  (runs_assigning_iff spells_copying).mpr ⟨_, fill_bracedWorld.1, rfl⟩

theorem setting_fills_in_again_braced :
    IsVariableName "x" ∧ RunsTo .standard copying 0 bracedWorld
      (bracedWorld.withVariable 0 "x" (.string "\x7bn\x7d")) (.ok ()) ∧
    (∃ w₂, RunsTo .standard copyingByCommand 0 bracedWorld w₂ (.ok ()) ∧
      w₂.store = (bracedWorld.store.set 0 [.key "x"] (.string "1")).1) ∧
    ∃ w₂, RunsTo .standard copyingAsGiven 0 bracedWorld w₂ (.ok ()) ∧
      w₂.store = (bracedWorld.store.set 0 [.key "x"] (.string "\x7bn\x7d")).1 := by
  have hname : IsVariableName "x" := by decide
  obtain ⟨text, hfill, -, hagain, -, hgiven⟩ := setting_fills_in_again hname spells_copying
    spells_copyingByCommand spells_copyingAsGiven runs_copying
  obtain rfl := Except.ok.inj (fill_bracedWorld.1.symm.trans hfill)
  rw [fill_bracedWorld.2] at hagain
  exact ⟨hname, runs_copying, hagain, hgiven⟩

/-- The text that was copied is taken for a template: the command sets the variable to the number,
where the assignment sets it to the text. -/
theorem setting_is_not_assigning :
    ¬ ∀ (w w₁ : World) (s : ScopeId) (name template source bySetting : String),
      IsVariableName name → Spells source (assigning name template) →
      Spells bySetting (setting name template) → RunsTo .standard source s w w₁ (.ok ()) →
      ∃ w₂, RunsTo .standard bySetting s w w₂ (.ok ()) ∧ w₂.store = w₁.store := by
  intro h
  obtain ⟨w₂, hruns, hstore⟩ := h _ _ 0 "x" _ _ _ (by decide) spells_copying
    spells_copyingByCommand runs_copying
  have hagain := runs_setting (w := bracedWorld) (s := 0) (by decide) spells_copyingByCommand
    fill_bracedWorld.1
  rw [fill_bracedWorld.2] at hagain
  obtain ⟨w', hruns', hstore'⟩ := hagain
  obtain ⟨rfl, -⟩ := hruns.unique hruns'
  have hsame := congrArg (fun st => st.get 0 [.key "x"]) (hstore'.symm.trans hstore)
  have hnumber : (bracedWorld.store.set 0 [.key "x"] (.string "1")).1.get 0 [.key "x"] =
      some (.string "1") := by cbv
  have htext : (bracedWorld.withVariable 0 "x" (.string "\x7bn\x7d")).store.get 0 [.key "x"] =
      some (.string "\x7bn\x7d") := by cbv
  simp only [hnumber, htext, Option.some.injEq, Value.string.injEq] at hsame
  exact absurd hsame (by decide)

end Script

end TabPilot
