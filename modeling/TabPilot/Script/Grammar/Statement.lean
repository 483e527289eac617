import TabPilot.Script.Grammar.Expression
import TabPilot.Script.Token.Scan

set_option autoImplicit false

/-! # Reading statements

Statements end with their line, a semicolon, or the closing brace around them. In the header of a
branch or a loop an opening brace starts the options of a command only if a member name and a
colon follow it; otherwise it starts the body.
-/

namespace TabPilot.Grammar

/-! ## Assignments -/

def assignOp? : TokenKind → Option AssignOp
  | .symbol .assign => some .set
  | .symbol .append => some .append
  | .symbol .addAssign => some .add
  | .symbol .subtractAssign => some .subtract
  | .symbol .multiplyAssign => some .multiply
  | .symbol .divideAssign => some .divide
  | .symbol .andAssign => some .bitAnd
  | .symbol .orAssign => some .bitOr
  | _ => none

def startsTarget (ts : List Token) : Bool :=
  match kind ts with
  | .variable _ => true
  | .word w => w = "_"
  | _ => false

def targets (fuel : Nat) (ts : List Token) : Parsed (List Target) :=
  match fuel with
  | 0 => fail .tooDeep ts
  | fuel + 1 =>
      let first : Parsed Target :=
        if atWord "_" ts then .ok (.skip, advance ts)
        else (reference fuel ts).map fun (v, ts) => (.variable v, ts)
      match first with
      | .error e => .error e
      | .ok (target, ts) =>
          if at? .comma ts then
            (targets fuel (advance ts)).map fun (rest, ts) => (target :: rest, ts)
          else .ok ([target], ts)

/-- Reads the sources of an assignment. A line may end after a comma. -/
def sources (fuel : Nat) (ts : List Token) : Parsed (List Expr) :=
  match fuel with
  | 0 => fail .tooDeep ts
  | fuel + 1 =>
      match expression fuel 0 ts with
      | .error e => .error e
      | .ok (first, ts) =>
          if at? .comma ts then
            (sources fuel (skipNewlines (advance ts))).map fun (rest, ts) => (first :: rest, ts)
          else .ok ([first], ts)

/-- Reads an assignment, if targets and an assignment operator stand here. -/
def assignment? (fuel : Nat) (ts : List Token) :
    Except Misread (Option (Assignment × List Token)) :=
  if !startsTarget ts then .ok none
  else
    match targets fuel ts with
    | .error _ => .ok none
    | .ok (goals, after) =>
        match assignOp? (kind after) with
        | none => .ok none
        | some op =>
            (sources fuel (advance after)).map fun (values, rest) =>
              some (⟨goals, op, values, here ts⟩, rest)

/-! ## Commands -/

/-- Reads the rest of a command's name: words joined by `::`. -/
def qualified (fuel : Nat) (name : String) (ts : List Token) : Parsed String :=
  match fuel with
  | 0 => fail .tooDeep ts
  | fuel + 1 =>
      if at? .doubleColon ts then
        let ts := advance ts
        match kind ts with
        | .word w => qualified fuel (name ++ "::" ++ w) (advance ts)
        | _ => fail (.expected .commandName) (advance ts)
      else .ok (name, ts)

/-- Whether the braces that open here hold the options of a command. -/
def startsOptions (inHeader : Bool) (ts : List Token) : Bool :=
  at? .openBrace ts &&
    (!inHeader ||
      let inner := skipNewlines (advance ts)
      (memberName? (kind inner)).isSome && at? .colon (advance inner))

def argument (fuel : Nat) (ts : List Token) : Parsed (Option Expr) :=
  if startsOperand ts then (expression fuel 0 ts).map fun (e, ts) => (some e, ts)
  else .ok (none, ts)

def options (fuel : Nat) (inHeader : Bool) (ts : List Token) :
    Parsed (Option (List (String × Expr))) :=
  if startsOptions inHeader ts then
    match entries fuel (skipNewlines (advance ts)) with
    | .error e => .error e
    | .ok (es, ts) => (expect .closeBrace (skipNewlines ts)).map fun ts => (some es, ts)
  else .ok (none, ts)

/-- Reads where the result of a command goes. -/
def destination (fuel : Nat) (ts : List Token) : Parsed Destination :=
  if !at? .arrow ts then .ok (.default, ts)
  else
    let ts := advance ts
    match kind ts with
    | .variable _ => (reference fuel ts).map fun (v, ts) => (.variable v, ts)
    | .text content _ => .ok (.key content, advance ts)
    | .word w =>
        if Decimal.asciiLower w = "null" then .ok (.discard, advance ts)
        else fail (.expected .resultVariable) ts
    | _ => fail (.expected .resultVariable) ts

def command (fuel : Nat) (inHeader : Bool) (ts : List Token) : Parsed Command :=
  match kind ts with
  | .word w =>
      match qualified fuel w (advance ts) with
      | .error e => .error e
      | .ok (name, afterName) =>
          match argument fuel afterName with
          | .error e => .error e
          | .ok (id, afterId) =>
              match options fuel inHeader afterId with
              | .error e => .error e
              | .ok (opts, afterOptions) =>
                  (destination fuel afterOptions).map fun (goal, rest) =>
                    (⟨name, id, opts, goal, here ts⟩, rest)
  | _ => fail (.expected .commandName) (advance ts)

def commandSequence (fuel : Nat) (ts : List Token) : Parsed (List Command) :=
  match fuel with
  | 0 => fail .tooDeep ts
  | fuel + 1 =>
      match command fuel false ts with
      | .error e => .error e
      | .ok (first, ts) =>
          if at? .semicolon ts && startsCommand (advance ts) then
            (commandSequence fuel (advance ts)).map fun (rest, ts) => (first :: rest, ts)
          else .ok ([first], ts)

/-! ## Conditions -/

/-- The comparison that stands here, and the tokens after it. -/
def comparator? (ts : List Token) : Option (Comparator × List Token) :=
  match kind ts with
  | .symbol .equal => some (.eq, advance ts)
  | .symbol .notEqual => some (.ne, advance ts)
  | .symbol .less => some (.lt, advance ts)
  | .symbol .atMost => some (.le, advance ts)
  | .symbol .greater => some (.gt, advance ts)
  | .symbol .atLeast => some (.ge, advance ts)
  | .symbol .matches => some (.matches, advance ts)
  | .symbol .unmatches => some (.unmatches, advance ts)
  | .word "in" => some (.isIn, advance ts)
  | .word "notin" => some (.notIn, advance ts)
  | .word "not" =>
      match kind (advance ts) with
      | .word "in" => some (.notIn, advance (advance ts))
      | _ => none
  | _ => none

/-- Reads an expression that may be compared with another one. -/
def comparison (fuel : Nat) (negated : Bool) (start : Position) (ts : List Token) :
    Parsed Condition :=
  match expression fuel 0 ts with
  | .error e => .error e
  | .ok (lhs, ts) =>
      match comparator? ts with
      | none => .ok (.comparison negated start lhs none, ts)
      | some (op, ts) =>
          (expression fuel 0 ts).map fun (rhs, ts) =>
            (.comparison negated start lhs (some (op, rhs)), ts)

def condition (fuel : Nat) (ts : List Token) : Parsed Condition :=
  match fuel with
  | 0 => fail .tooDeep ts
  | fuel + 1 =>
      let start := here ts
      let negated := atWord "not" ts
      let ts := if negated then advance ts else ts
      match assignment? fuel ts with
      | .error e => .error e
      | .ok (some (first, ts)) =>
          match expect .semicolon ts with
          | .error e => .error e
          | .ok ts =>
              (condition fuel ts).map fun (rest, ts) => (.assigning negated start first rest, ts)
      | .ok none =>
          if startsCommand ts then
            match command fuel true ts with
            | .error e => .error e
            | .ok (first, ts) =>
                if at? .semicolon ts then
                  (condition fuel (advance ts)).map fun (rest, ts) =>
                    (.commanding negated start first rest, ts)
                else .ok (.command negated start first, ts)
          else comparison fuel negated start ts

/-! ## Loop headers -/

/-- Whether plain targets and the word `in` stand here. -/
def isItemsHeader : List Token → Bool
  | t :: rest =>
      let isTarget :=
        match t.kind with
        | .variable _ => true
        | .word w => w = "_"
        | _ => false
      isTarget &&
        match rest with
        | sep :: more =>
            match sep.kind with
            | .symbol .comma => isItemsHeader more
            | .word w => w = "in"
            | _ => false
        | [] => false
  | [] => false

def loopSource (fuel : Nat) (ts : List Token) : Parsed LoopSource :=
  match kind ts with
  | .variable _ => (reference fuel ts).map fun (v, ts) => (.variable v, ts)
  | _ =>
      if startsCommand ts then (command fuel true ts).map fun (c, ts) => (.command c, ts)
      else fail (.expected .loopSource) ts

/-- The first clause of a loop header, read as a condition, taken apart. -/
def splitInit : Condition → Except Misread (Clause × Condition)
  | .assigning false _ first rest => .ok (.assignment first, rest)
  | .commanding false start first rest => .ok (.command first start, rest)
  | c => .error ⟨.expected .loopInitializer, c.position⟩

def nextClause (fuel : Nat) (ts : List Token) : Parsed Clause :=
  match assignment? fuel ts with
  | .error e => .error e
  | .ok (some (a, rest)) => .ok (.assignment a, rest)
  | .ok none =>
      if startsCommand ts then
        (command fuel true ts).map fun (c, rest) => (.command c (here ts), rest)
      else fail (.expected .loopIncrement) ts

def loopMode (fuel : Nat) (ts : List Token) : Parsed LoopMode :=
  if at? .openBrace ts then .ok (.infinite, ts)
  else if atWord "count" ts then
    (expression fuel 0 (advance ts)).map fun (times, ts) => (.count times, ts)
  else if isItemsHeader ts then
    match targets fuel ts with
    | .error e => .error e
    | .ok (goals, ts) =>
        (loopSource fuel (advance ts)).map fun (source, ts) => (.items goals source, ts)
  else
    match condition fuel ts with
    | .error e => .error e
    | .ok (head, ts) =>
        if at? .semicolon ts then
          match splitInit head with
          | .error e => .error e
          | .ok (init, test) =>
              (nextClause fuel (advance ts)).map fun (next, ts) => (.bounded init test next, ts)
        else .ok (.whilst head, ts)

/-! ## Statements -/

def references (fuel : Nat) (ts : List Token) : Parsed (List Variable) :=
  match fuel with
  | 0 => fail .tooDeep ts
  | fuel + 1 =>
      match reference fuel ts with
      | .error e => .error e
      | .ok (first, ts) =>
          if at? .comma ts then
            (references fuel (advance ts)).map fun (rest, ts) => (first :: rest, ts)
          else .ok ([first], ts)

/-- Reads how many loops a jump leaves. -/
def levels (ts : List Token) : Parsed Nat :=
  match kind ts with
  | .int n => if n < 1 then fail (.expected .loopLevel) ts else .ok (n.toNat, advance ts)
  | _ => .ok (1, ts)

def endsStatement (ts : List Token) : Bool :=
  match kind ts with
  | .newline | .symbol .semicolon | .symbol .closeBrace | .endOfInput => true
  | _ => false

def simpleStatement (fuel : Nat) (ts : List Token) : Parsed Statement :=
  match assignment? fuel ts with
  | .error e => .error e
  | .ok (some (a, rest)) => .ok (.assign a, rest)
  | .ok none => (expression fuel 0 ts).map fun (e, rest) => (.expression e (here ts), rest)

mutual

def statement (fuel : Nat) (ts : List Token) : Parsed Statement :=
  match fuel with
  | 0 => fail .tooDeep ts
  | fuel + 1 =>
      match kind ts with
      | .word w =>
          match Decimal.asciiLower w with
          | "if" =>
              match branch fuel (advance ts) with
              | .error e => .error e
              | .ok (first, rest) =>
                  (alternatives fuel rest).map fun ((others, otherwise), rest) =>
                    (.choice first others otherwise (here ts), rest)
          | "loop" =>
              match loopMode fuel (advance ts) with
              | .error e => .error e
              | .ok (mode, rest) =>
                  (body fuel rest).map fun (inner, rest) => (.loop mode inner (here ts), rest)
          | "unset" =>
              (references fuel (advance ts)).map fun (vs, rest) => (.unset vs (here ts), rest)
          | "break" => (levels (advance ts)).map fun (n, rest) => (.jump .break n (here ts), rest)
          | "continue" =>
              (levels (advance ts)).map fun (n, rest) => (.jump .continue n (here ts), rest)
          | _ =>
              if startsCommand ts then
                (commandSequence fuel ts).map fun (cs, rest) => (.commands cs (here ts), rest)
              else simpleStatement fuel ts
      | _ => simpleStatement fuel ts

def branch (fuel : Nat) (ts : List Token) : Parsed Branch :=
  match fuel with
  | 0 => fail .tooDeep ts
  | fuel + 1 =>
      match condition fuel ts with
      | .error e => .error e
      | .ok (test, ts) => (body fuel ts).map fun (inner, ts) => (.mk test inner, ts)

/-- Reads the branches that follow the first one. The word `else` may stand on a later line. -/
def alternatives (fuel : Nat) (ts : List Token) :
    Parsed (List Branch × Option (List Statement)) :=
  match fuel with
  | 0 => fail .tooDeep ts
  | fuel + 1 =>
      let after := skipNewlines ts
      if !atWord "else" after then .ok (([], none), ts)
      else
        let after := advance after
        if atWord "if" after then
          match branch fuel (advance after) with
          | .error e => .error e
          | .ok (first, ts) =>
              (alternatives fuel ts).map fun ((others, otherwise), ts) =>
                ((first :: others, otherwise), ts)
        else (body fuel after).map fun (inner, ts) => (([], some inner), ts)

def body (fuel : Nat) (ts : List Token) : Parsed (List Statement) :=
  match fuel with
  | 0 => fail .tooDeep ts
  | fuel + 1 =>
      match expect .openBrace (skipNewlines ts) with
      | .error e => .error e
      | .ok ts => statements fuel (skipSeparators ts)

/-- Reads the statements up to the closing brace, and the brace. -/
def statements (fuel : Nat) (ts : List Token) : Parsed (List Statement) :=
  match fuel with
  | 0 => fail .tooDeep ts
  | fuel + 1 =>
      if at? .closeBrace ts then .ok ([], advance ts)
      else if (kind ts).isEnd then fail (.expected (.symbol .closeBrace)) ts
      else if atWord "on" ts then fail .handlerInside ts
      else
        match statement fuel ts with
        | .error e => .error e
        | .ok (first, ts) =>
            if endsStatement ts then
              (statements fuel (skipSeparators ts)).map fun (rest, ts) => (first :: rest, ts)
            else fail (.expected .statementEnd) ts

end

/-! ## Scripts -/

def handler (fuel : Nat) (ts : List Token) : Parsed Handler :=
  let start := here ts
  let ts := advance ts
  match kind ts with
  | .text pattern _ =>
      let ts := advance ts
      let isolated := atWord "isolated" ts
      let ts := if isolated then advance ts else ts
      (body fuel ts).map fun (inner, ts) => (⟨pattern, isolated, inner, start⟩, ts)
  | _ => .error ⟨.expected .eventName, start⟩

abbrev Item : Type := Statement ⊕ Handler

/-- Reads the statements and handlers up to the end of the input. -/
def topLevel (fuel : Nat) (ts : List Token) : Except Misread (List Item) :=
  match fuel with
  | 0 => fail .tooDeep ts
  | fuel + 1 =>
      if (kind ts).isEnd then .ok []
      else
        let first : Parsed Item :=
          if atWord "on" ts then (handler fuel ts).map fun (h, ts) => (.inr h, ts)
          else (statement fuel ts).map fun (s, ts) => (.inl s, ts)
        match first with
        | .error e => .error e
        | .ok (item, ts) =>
            if endsStatement ts then (topLevel fuel (skipSeparators ts)).map (item :: ·)
            else fail (.expected .statementEnd) ts

/-- More than the grammar needs for this many tokens: no function calls itself, directly or
through others, more than a dozen times without taking a token. -/
def budget (tokens : Nat) : Nat := 16 * tokens + 16

end TabPilot.Grammar

namespace TabPilot.Script

/-- The statements and handlers that a list of tokens stands for. -/
def ofTokens (ts : List Token) : Except Misread (List Statement × List Handler) :=
  (Grammar.topLevel (Grammar.budget ts.length) (Grammar.skipSeparators ts)).map fun items =>
    (items.filterMap Sum.getLeft?, items.filterMap Sum.getRight?)

def read (source : String) : Except Misread Script :=
  match Token.scan source.toList with
  | .error e => .error e
  | .ok ts =>
      (ofTokens ts).map fun (statements, handlers) => ⟨statements, handlers, source, none⟩

/-- Reads a script; a fault shows the source. -/
def parse (source : String) : Except Fault Script :=
  match read source with
  | .ok script => .ok script
  | .error e => .error (e.fault.withSource source none)

def withFilename (s : Script) (name : String) : Script := { s with filename := some name }

end TabPilot.Script
