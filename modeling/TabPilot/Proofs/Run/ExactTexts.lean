import TabPilot.Proofs.Command.Scopes
import TabPilot.Proofs.Scope.Templates
import TabPilot.Proofs.Script.Texts
import TabPilot.Run.Script

set_option autoImplicit false

/-! # What texts in single quotes stand for

A text in single quotes is no template: as an operand it is its own value, and as the name of a
member it is the name. Where the name of a result or of events is read, the quotes are forgotten,
and the text is a template either way; there it stands for itself if nothing in it is filled in.
-/

namespace TabPilot

variable {read : Path → Option Value} {f : Template.Failure}

/-! ## Which templates are filled in -/

/-- One of the operands in double quotes cannot be filled in. -/
def FailsIn (read : Path → Option Value) (f : Template.Failure) (ss : List TextSlot) : Prop :=
  ∃ content, .operand content true ∈ ss ∧ Template.fill read content = .error f

theorem FailsIn.mono {ss ss' : List TextSlot} (h : FailsIn read f ss) (hss : ss ⊆ ss') :
    FailsIn read f ss' := by
  obtain ⟨content, hmem, hfill⟩ := h
  exact ⟨content, hss hmem, hfill⟩

theorem FailsIn.left {ss : List TextSlot} (h : FailsIn read f ss) (ss' : List TextSlot) :
    FailsIn read f (ss ++ ss') := h.mono (List.subset_append_left ss ss')

theorem FailsIn.right {ss : List TextSlot} (h : FailsIn read f ss) (ss' : List TextSlot) :
    FailsIn read f (ss' ++ ss) := h.mono (List.subset_append_right ss' ss)

/-- A failure comes through a change of the result as it is. -/
theorem eq_error_of_map {ε α β : Type} {x : Except ε α} {g : α → β} {e : ε}
    (h : x.map g = .error e) : x = .error e := by
  cases x with
  | error e' => cases h; rfl
  | ok a => cases h

theorem eq_error_or_of_bind {ε α β : Type} {x : Except ε α} {g : α → Except ε β} {e : ε}
    (h : x >>= g = .error e) : x = .error e ∨ ∃ a, x = .ok a ∧ g a = .error e := by
  cases x with
  | error e' => cases h; exact .inl rfl
  | ok a => exact .inr ⟨a, rfl, h⟩

theorem Value.negated_ne_template (v : Value) : v.negated ≠ .error (.template f) := by
  unfold Value.negated
  split <;> exact nofun

mutual

/-- An expression fails for a template only if it is one of its operands in double quotes. -/
theorem Expr.failsIn_eval : ∀ e : Expr, e.eval read = .error (.template f) →
    FailsIn read f e.slots
  | .literal v, h => by rw [Expr.eval] at h; cases h
  | .text content true, h => by
      rw [Expr.eval] at h
      split at h
      · cases h
      · next hfill =>
          cases h
          exact ⟨content, List.mem_cons_self, hfill⟩
  | .text content false, h => by rw [Expr.eval] at h; cases h
  | .array items, h => by
      rw [Expr.eval] at h
      exact Expr.failsIn_evalAll items (eq_error_of_map h)
  | .object entries, h => by
      rw [Expr.eval] at h
      exact Expr.failsIn_evalEntries entries (eq_error_of_map h)
  | .variable name steps, h => by
      rw [Expr.eval] at h
      exact Expr.failsIn_evalSteps name steps (eq_error_of_map h)
  | .pattern p, h => by rw [Expr.eval] at h; cases h
  | .negate operand, h => by
      rw [Expr.eval] at h
      split at h
      · exact absurd h (Value.negated_ne_template _)
      · next heval =>
          cases h
          exact Expr.failsIn_eval operand heval
  | .binary op lhs rhs, h => by
      rw [Expr.eval] at h
      split at h
      · next hlhs =>
          cases h
          exact (Expr.failsIn_eval lhs hlhs).left rhs.slots
      · split at h
        · next hrhs =>
            cases h
            exact (Expr.failsIn_eval rhs hrhs).right lhs.slots
        · split at h <;> cases h

theorem Expr.failsIn_evalAll : ∀ es : List Expr, Expr.evalAll read es = .error (.template f) →
    FailsIn read f (itemSlots es)
  | [], h => by rw [Expr.evalAll] at h; cases h
  | e :: rest, h => by
      rw [Expr.evalAll] at h
      split at h
      · next heval =>
          cases h
          exact (Expr.failsIn_eval e heval).left (itemSlots rest)
      · exact (Expr.failsIn_evalAll rest (eq_error_of_map h)).right e.slots

theorem Expr.failsIn_evalEntries : ∀ entries : List (String × Expr),
    Expr.evalEntries read entries = .error (.template f) → FailsIn read f (entrySlots entries)
  | [], h => by rw [Expr.evalEntries] at h; cases h
  | (name, e) :: rest, h => by
      have hcons : e.slots ++ entrySlots rest ⊆ entrySlots ((name, e) :: rest) :=
        List.subset_cons_self _ _
      rw [Expr.evalEntries] at h
      split at h
      · next heval =>
          cases h
          exact ((Expr.failsIn_eval e heval).left (entrySlots rest)).mono hcons
      · exact ((Expr.failsIn_evalEntries rest (eq_error_of_map h)).right e.slots).mono hcons

theorem Expr.failsIn_evalSteps (name : String) : ∀ steps : List Accessor,
    Expr.evalSteps read name steps = .error (.template f) → FailsIn read f (accessorSlots steps)
  | [], h => by rw [Expr.evalSteps] at h; cases h
  | .field field :: rest, h => by
      rw [Expr.evalSteps] at h
      exact Expr.failsIn_evalSteps name rest (eq_error_of_map h)
  | .index e :: rest, h => by
      rw [Expr.evalSteps] at h
      split at h
      · next heval =>
          cases h
          exact (Expr.failsIn_eval e heval).left (accessorSlots rest)
      · split at h
        · exact (Expr.failsIn_evalSteps name rest (eq_error_of_map h)).right e.slots
        · cases h

end

/-! ## Names of members -/

/-- A member keeps its name and gets the value of its expression. -/
theorem Expr.exists_of_evalEntries {entries : List (String × Expr)}
    {values : List (String × Value)} {name : String} {e : Expr}
    (h : Expr.evalEntries read entries = .ok values) (hmem : (name, e) ∈ entries) :
    ∃ v, (name, v) ∈ values ∧ e.eval read = .ok v := by
  induction entries generalizing values with
  | nil => cases hmem
  | cons entry rest ih =>
      rw [Expr.evalEntries] at h
      split at h
      · cases h
      · next v hv =>
          obtain ⟨others, hothers, rfl⟩ := exists_of_map_eq_ok h
          rcases List.mem_cons.mp hmem with rfl | hmem
          · exact ⟨v, List.mem_cons_self, hv⟩
          · obtain ⟨x, hx, heval⟩ := ih hothers hmem
            exact ⟨x, List.mem_cons_of_mem _ hx, heval⟩

/-! ## Commands -/

/-- What a command that is ready was made from. -/
theorem Catalogue.exists_of_prepare {c : Catalogue} {s : ScopeId} {cmd : Command}
    {p : PreparedCommand} (h : c.prepare read s cmd = .ok p) :
    Expr.evalOptional read cmd.id = .ok p.invocation.argument ∧
      (∃ values, Expr.evalEntries read (cmd.options.getD []) = .ok values ∧
        p.invocation.options = Record.ofList values) ∧
      cmd.destination.path read = .ok p.active.target := by
  obtain ⟨⟨entry, name⟩, -, h⟩ := exists_of_bind_eq_ok h
  obtain ⟨argument, hargument, h⟩ := exists_of_bind_eq_ok h
  obtain ⟨values, hvalues, h⟩ := exists_of_bind_eq_ok h
  dsimp only at h
  split at h
  · cases h
  · obtain ⟨target, htarget, h⟩ := exists_of_bind_eq_ok h
    cases h
    exact ⟨hargument, ⟨values, hvalues, rfl⟩, htarget⟩

theorem Catalogue.command_ne_template (c : Catalogue) (name : String) :
    c.command name ≠ .error (.template f) := by
  intro h
  unfold Catalogue.command at h
  split at h
  · next e hresolve =>
      cases h
      unfold Catalogue.resolve at hresolve
      split at hresolve
      split at hresolve <;> cases hresolve
  · split at h <;> cases h

theorem Signature.refusal?_ne_template (sig : Signature) (shown : String) (hasArgument : Bool)
    (options : Record Value) : sig.refusal? shown hasArgument options ≠ some (.template f) := by
  unfold Signature.refusal?
  intro heq
  split at heq
  · cases heq
  · cases heq
  · obtain ⟨name, -, heq⟩ := Option.map_eq_some_iff.mp heq
    cases heq

/-- The place of a result fails for a template if it is its name, or in the accessors of a
variable. -/
theorem Destination.failsIn_path {d : Destination} (h : d.path read = .error (.template f)) :
    FailsIn read f d.slots ∨ ∃ name, d = .key name ∧ Template.fill read name = .error f := by
  cases d with
  | default => cases h
  | discard => cases h
  | «variable» v =>
      exact .inl (Expr.failsIn_evalSteps v.name v.accessors (eq_error_of_map (eq_error_of_map h)))
  | key name =>
      rw [Destination.path] at h
      split at h
      · cases h
      · next hfill =>
          cases h
          exact .inr ⟨name, rfl, hfill⟩

/-- A command cannot be made ready because of a template only if it is one of its operands in
double quotes, or the name of its result in whatever quotes. -/
theorem Catalogue.failsIn_prepare {c : Catalogue} {s : ScopeId} {cmd : Command}
    (h : c.prepare read s cmd = .error (.template f)) :
    FailsIn read f cmd.slots ∨
      ∃ name, cmd.destination = .key name ∧ Template.fill read name = .error f := by
  rcases eq_error_or_of_bind h with h | ⟨⟨entry, name⟩, -, h⟩
  · exact absurd h (c.command_ne_template cmd.name)
  rcases eq_error_or_of_bind h with h | ⟨argument, -, h⟩
  · refine .inl (FailsIn.left ?_ _)
    cases hid : cmd.id with
    | none => rw [hid] at h; cases h
    | some e =>
        rw [hid] at h
        exact Expr.failsIn_eval e (eq_error_of_map h)
  rcases eq_error_or_of_bind h with h | ⟨values, -, h⟩
  · refine .inl (FailsIn.right (FailsIn.left ?_ _) _)
    cases hoptions : cmd.options with
    | none => rw [hoptions] at h; cases h
    | some es =>
        rw [hoptions] at h
        exact Expr.failsIn_evalEntries es h
  dsimp only at h
  split at h
  · next e hrefusal =>
      cases h
      exact absurd hrefusal (entry.signature.refusal?_ne_template _ _ _)
  · rcases eq_error_or_of_bind h with h | ⟨target, -, h⟩
    · exact (Destination.failsIn_path h).imp_left fun h => (h.right _).right _
    · cases h

/-! ## Handlers -/

namespace World

/-- Registers a callback in a tab under the text that its pattern stands for. -/
def registerAs (w : World) (tab : TabId) (name : String) (callback : Callback) :
    Except Error (World × HandlerId) :=
  match w.tab? tab with
  | none => .error .connectionClosed
  | some t => (t.on name callback).map fun (t, id) => (w.modifyTab tab fun _ => t, id)

theorem registerHandler_eq (w : World) (tab : TabId) (s : ScopeId) (h : Handler)
    (callback : Callback) :
    w.registerHandler tab s h callback =
      match Template.fill (w.read s) h.pattern with
      | .error e => .error (.script ((RunFailure.template e).fault.placed h.position))
      | .ok name => w.registerAs tab name callback := by
  unfold registerHandler registerAs
  cases Template.fill (w.read s) h.pattern with
  | error e => rfl
  | ok name => cases w.tab? tab <;> rfl

end World

/-! ## Texts in single quotes -/

/-- A text in single quotes is used as it is written, in every scope, where it is an operand or the
name of a member. Nothing there fails for a template but operands in double quotes, nor does a
command but for these and for the name of its result. -/
structure UsedAsWritten (t : String) : Prop where
  operand : ∀ read, (Expr.text t false).eval read = .ok (.string t)
  argument : ∀ (c : Catalogue) read s cmd p, cmd.id = some (.text t false) →
    c.prepare read s cmd = .ok p → p.invocation.argument = some (.string t)
  option : ∀ (c : Catalogue) read s cmd p name, (name, .text t false) ∈ cmd.options.getD [] →
    c.prepare read s cmd = .ok p →
      ∃ values, p.invocation.options = Record.ofList values ∧ (name, .string t) ∈ values
  optionName : ∀ (c : Catalogue) read s cmd p e, (t, e) ∈ cmd.options.getD [] →
    c.prepare read s cmd = .ok p →
      ∃ values v, p.invocation.options = Record.ofList values ∧ (t, v) ∈ values ∧
        e.eval read = .ok v
  member : ∀ read entries v e, (t, e) ∈ entries → (Expr.object entries).eval read = .ok v →
    ∃ values x, v = .ofMembers values ∧ (t, x) ∈ values ∧ e.eval read = .ok x
  failure : ∀ read f (e : Expr), e.eval read = .error (.template f) → FailsIn read f e.slots
  commandFailure : ∀ (c : Catalogue) read s cmd f, c.prepare read s cmd = .error (.template f) →
    FailsIn read f cmd.slots ∨
      ∃ name, cmd.destination = .key name ∧ ¬ Template.Inert name.toList

/-- A text is used as a template, in whatever quotes, where it is the name of a result or of events:
it stands for itself in every scope just if nothing in it is filled in. -/
structure UsedAsTemplate (t : String) : Prop where
  destination : (∀ (st : Store) s, (Destination.key t).path (st.get s) = .ok (some [.key t])) ↔
    Template.Inert t.toList
  target : Template.Inert t.toList → ∀ (c : Catalogue) read s cmd p, cmd.destination = .key t →
    c.prepare read s cmd = .ok p → p.active.target = some [.key t]
  events : Template.Inert t.toList → ∀ (w : World) tab s (h : Handler) callback, h.pattern = t →
    w.registerHandler tab s h callback = w.registerAs tab t callback

theorem usedAsWritten (t : String) : UsedAsWritten t where
  operand _ := rfl
  argument c read s cmd p hid h := by
    obtain ⟨hargument, -, -⟩ := Catalogue.exists_of_prepare h
    rw [hid] at hargument
    exact (Except.ok.inj hargument).symm
  option c read s cmd p name hmem h := by
    obtain ⟨-, ⟨values, hvalues, hoptions⟩, -⟩ := Catalogue.exists_of_prepare h
    obtain ⟨v, hv, heval⟩ := Expr.exists_of_evalEntries hvalues hmem
    obtain rfl : .string t = v := Except.ok.inj heval
    exact ⟨values, hoptions, hv⟩
  optionName c read s cmd p e hmem h := by
    obtain ⟨-, ⟨values, hvalues, hoptions⟩, -⟩ := Catalogue.exists_of_prepare h
    obtain ⟨v, hv, heval⟩ := Expr.exists_of_evalEntries hvalues hmem
    exact ⟨values, v, hoptions, hv, heval⟩
  member read entries v e hmem h := by
    rw [Expr.eval] at h
    obtain ⟨values, hvalues, rfl⟩ := exists_of_map_eq_ok h
    obtain ⟨x, hx, heval⟩ := Expr.exists_of_evalEntries hvalues hmem
    exact ⟨values, x, rfl, hx, heval⟩
  failure _ _ e h := Expr.failsIn_eval e h
  commandFailure c read s cmd f h := by
    refine (Catalogue.failsIn_prepare h).imp_right fun ⟨name, hname, hfill⟩ => ⟨name, hname, ?_⟩
    intro hinert
    rw [Template.fill_of_inert hinert] at hfill
    cases hfill

theorem path_key_eq_iff (read : Path → Option Value) (t : String) :
    (Destination.key t).path read = .ok (some [.key t]) ↔ Template.fill read t = .ok t := by
  rw [Destination.path]
  cases Template.fill read t with
  | error e => exact ⟨nofun, nofun⟩
  | ok name => simp

theorem usedAsTemplate (t : String) : UsedAsTemplate t where
  destination := by
    rw [← Store.fill_eq_self_iff]
    exact forall_congr' fun st => forall_congr' fun s => path_key_eq_iff (st.get s) t
  target hinert c read s cmd p hkey h := by
    obtain ⟨-, -, htarget⟩ := Catalogue.exists_of_prepare h
    have hpath := (path_key_eq_iff read t).mpr (Template.fill_of_inert hinert)
    rw [hkey, hpath] at htarget
    exact (Except.ok.inj htarget).symm
  events hinert w tab s h callback hpattern := by
    rw [w.registerHandler_eq, hpattern, Template.fill_of_inert hinert]

/-- **Texts in single quotes.** Wherever the grammar takes a text in single quotes, it takes it as
this text, as an operand that is no template or as a name. It is then used as it is written, but for
the names of results and of events: these are templates in whatever quotes. -/
theorem Script.text_in_single_quotes {source t : String} {script : Script}
    {before after : List Char}
    (hsource : source.toList = before ++ (Piece.quoted '\'' t.toList ++ after))
    (hstart : Token.StartsAt source.toList before.length)
    (hparse : Script.parse source = .ok script) :
    (script.SlotAt before.length (.operand t false) ∨ script.SlotAt before.length (.name t)) ∧
      UsedAsWritten t ∧ UsedAsTemplate t :=
  ⟨slotAt_of_quoted hsource hstart hparse, usedAsWritten t, usedAsTemplate t⟩

namespace Script

/-- A command with an argument that looks like a template. -/
def bracedSource : String := "put 'a \x7bb\x7d' -> 'c'"

def bracedScript : Script :=
  ⟨[.commands [⟨"put", some (.text "a \x7bb\x7d" false), none, .key "c", ⟨1, 1⟩⟩] ⟨1, 1⟩], [],
    bracedSource, none⟩

theorem text_in_single_quotes_braced :
    Token.StartsAt bracedSource.toList 4 ∧ parse bracedSource = .ok bracedScript ∧
      (bracedScript.SlotAt 4 (.operand "a \x7bb\x7d" false) ∨
        bracedScript.SlotAt 4 (.name "a \x7bb\x7d")) ∧
      UsedAsWritten "a \x7bb\x7d" ∧ UsedAsTemplate "a \x7bb\x7d" := by
  have hscan : Token.scan bracedSource.toList =
      .ok [⟨.word "put", ⟨1, 1⟩, true⟩, ⟨.text "a \x7bb\x7d" false, ⟨1, 5⟩, true⟩,
        ⟨.symbol .arrow, ⟨1, 13⟩, true⟩, ⟨.text "c" false, ⟨1, 16⟩, true⟩,
        ⟨.endOfInput, ⟨1, 19⟩, true⟩] := by cbv
  have hstart : Token.StartsAt bracedSource.toList 4 :=
    ⟨_, hscan, _, .tail _ (.head _), by decide⟩
  have hparse : parse bracedSource = .ok bracedScript := by cbv
  have hsource : bracedSource.toList = ['p', 'u', 't', ' '] ++
      (Piece.quoted '\'' "a \x7bb\x7d".toList ++ [' ', '-', '>', ' ', '\'', 'c', '\'']) := by
    decide
  exact ⟨hstart, hparse, text_in_single_quotes hsource hstart hparse⟩

/-- A command whose result is to be named by a text in single quotes. -/
def keySource : String := "put 1 -> '\x7bx\x7d'"

def keyCommand : Command :=
  ⟨"put", some (.literal (.int 1)), none, .key "\x7bx\x7d", ⟨1, 1⟩⟩

/-- The name of a result in single quotes is filled in, and so it fails in a scope without the
variable; as the name of events, it does so, too. -/
theorem key_in_single_quotes_fails :
    parse keySource = .ok ⟨[.commands [keyCommand] ⟨1, 1⟩], [], keySource, none⟩ ∧
      Catalogue.standard.prepare (Store.empty.get 0) 0 keyCommand =
        .error (.template (.undefined "x")) ∧
      ∀ callback, World.empty.registerHandler 0 0 ⟨"\x7bx\x7d", false, [], ⟨1, 1⟩⟩ callback =
        .error (.script ((RunFailure.template (.undefined "x")).fault.placed ⟨1, 1⟩)) := by
  refine ⟨by cbv, ?_, fun callback => ?_⟩
  · rfl
  · rfl

end Script

end TabPilot
