import TabPilot.Run.Dispatch

set_option autoImplicit false

/-! # The machine that runs statements

A thread is what it does now, its focus, and what is to be done after that, its frames, innermost
first. `Thread.step` takes a thread one step on, unless it is blocked: while a command waits for
something that has not come, and after the end. Every branch of an `if` and every loop has a
scope of its own inside the scope around it.

Threads are cooperative tasks, which give way to each other where a command waits; here they may
do so between any two steps. A step is one turn: what it reads and writes, the search for the owner
of a variable and the write that follows included, it does with nobody else in between.
-/

namespace TabPilot

/-- How a body has ended. -/
inductive Flow
  | normal
  | jump (kind : JumpKind) (levels : Nat) (position : Position)

inductive LoopState
  | forever
  | counted (left : Nat)
  | over (targets : List Target) (items : List Value)
  | whilst (test : Condition)
  | bounded (test : Condition) (next : Clause)

/-- A loop that is running; `index` is the number of the run of its body. -/
structure LoopRun where
  state : LoopState
  body : List Statement
  scope : ScopeId
  index : Nat

/-- What a thread does now. -/
inductive Focus
  /-- Runs statements. -/
  | run (body : List Statement) (s : ScopeId)
  /-- A statement or a body has ended. -/
  | flow (f : Flow)
  /-- Tests a condition. -/
  | test (c : Condition) (s : ScopeId)
  /-- A condition was tested. -/
  | truth (b : Bool)
  /-- Calls a command. -/
  | call (c : Command) (s : ScopeId)
  /-- A command waits. -/
  | await (a : ActiveCommand) (op : Operation)
  /-- The pause after a command with a value. -/
  | pause (stop : Instant) (v : Value)
  /-- A command has ended with a value. -/
  | value (v : Value)
  /-- A loop begins a run of its body, or ends. -/
  | loop (l : LoopRun)
  /-- Something has failed. -/
  | failed (e : Fault)

/-- What is to be done after the focus has ended. -/
inductive Frame
  /-- The other statements of a body. -/
  | statements (position : Position) (rest : List Statement) (s : ScopeId)
  /-- The other commands of a pipeline. -/
  | commands (rest : List Command) (s : ScopeId)
  /-- The body of a tested branch, or the other branches. -/
  | branch (body : List Statement) (inner : ScopeId) (others : List Branch)
      (otherwise : Option (List Statement)) (outer : ScopeId)
  /-- A condition is negated. -/
  | negation
  /-- A value is taken as a condition. -/
  | truthiness
  /-- A condition that is tested after a command. -/
  | thenTest (c : Condition) (s : ScopeId)
  /-- The loop whose body runs. -/
  | body (l : LoopRun)
  /-- The loop whose condition is tested. -/
  | loopTest (l : LoopRun)
  /-- The loop that goes on after a clause of its header. -/
  | clause (l : LoopRun)
  /-- The loop that goes through the result of a command. -/
  | source (targets : List Target) (body : List Statement) (s : ScopeId)

/-- A run of statements. -/
structure Thread where
  focus : Focus
  frames : List Frame

namespace World

def child (w : World) (s : ScopeId) : World × ScopeId :=
  w.changeStore fun st => st.addChild s Record.empty

def read (w : World) (s : ScopeId) : Path → Option Value := w.store.get s

def assign (w : World) (reach : Store.Reach) (s : ScopeId) (a : Assignment) :
    World × Option RunFailure :=
  w.changeStore fun st => st.assign reach s a

/-! ## Loops -/

def enterBody (w : World) (l : LoopRun) : World × Focus × List Frame :=
  let (w, _) := w.changeStore fun st => (st.setIndex l.scope l.index, ())
  (w, .run l.body l.scope, [.body l])

def enterTest (w : World) (l : LoopRun) (test : Condition) : World × Focus × List Frame :=
  let (w, _) := w.changeStore fun st => (st.setIndex l.scope l.index, ())
  (w, .test test l.scope, [.loopTest l])

/-- Begins a run of the body of a loop, or ends the loop. -/
def iterate (w : World) (l : LoopRun) : World × Focus × List Frame :=
  match l.state with
  | .forever => w.enterBody l
  | .counted 0 => (w, .flow .normal, [])
  | .counted (left + 1) => w.enterBody { l with state := .counted left }
  | .over _ [] => (w, .flow .normal, [])
  | .over targets (item :: rest) =>
      match w.changeStore fun st => st.bindItem l.scope targets item with
      | (w, some e) => (w, .failed e.fault, [])
      | (w, none) => w.enterBody { l with state := .over targets rest }
  | .whilst test => w.enterTest l test
  | .bounded test _ => w.enterTest l test

def runClause (w : World) (l : LoopRun) : Clause → World × Focus × List Frame
  | .command c _ => (w, .call c l.scope, [.clause l])
  | .assignment a =>
      match w.assign .owner l.scope a with
      | (w, some e) => (w, .failed e.fault, [])
      | (w, none) => (w, .loop l, [])

def afterBody (w : World) (l : LoopRun) : World × Focus × List Frame :=
  let next := { l with index := l.index + 1 }
  match l.state with
  | .bounded _ clause => w.runClause next clause
  | _ => (w, .loop next, [])

def overItems (w : World) (targets : List Target) (body : List Statement) (s : ScopeId)
    (v : Value) : World × Focus × List Frame :=
  match v.items with
  | .ok items => (w, .loop ⟨.over targets items, body, s, 0⟩, [])
  | .error e => (w, .failed e.fault, [])

/-- Begins a loop in a scope of its own. -/
def beginLoop (w : World) (s : ScopeId) (mode : LoopMode) (body : List Statement) :
    World × Focus × List Frame :=
  let start (state : LoopState) : LoopRun := ⟨state, body, s, 0⟩
  match mode with
  | .infinite => (w, .loop (start .forever), [])
  | .count times =>
      match (times.eval (w.read s)).bind Value.loopCount with
      | .ok n => (w, .loop (start (.counted n)), [])
      | .error e => (w, .failed e.fault, [])
  | .whilst test => (w, .loop (start (.whilst test)), [])
  | .bounded init test next => w.runClause (start (.bounded test next)) init
  | .items targets (.command c) => (w, .call c s, [.source targets body s])
  | .items targets (.variable v) =>
      match v.path (w.read s) with
      | .ok p => w.overItems targets body s ((w.read s p).getD .null)
      | .error e => (w, .failed e.fault, [])

/-! ## Statements -/

/-- Tests a branch, or runs what is to be done when no branch holds. -/
def choose (w : World) (branches : List Branch) (otherwise : Option (List Statement))
    (s : ScopeId) : World × Focus × List Frame :=
  match branches, otherwise with
  | .mk test body :: others, _ =>
      let (w, inner) := w.child s
      (w, .test test inner, [.branch body inner others otherwise s])
  | [], some body =>
      let (w, inner) := w.child s
      (w, .run body inner, [])
  | [], none => (w, .flow .normal, [])

def ended (r : World × Option RunFailure) : World × Focus × List Frame :=
  match r with
  | (w, none) => (w, .flow .normal, [])
  | (w, some e) => (w, .failed e.fault, [])

def begin (w : World) (s : ScopeId) : Statement → World × Focus × List Frame
  | .assign a => ended (w.assign .owner s a)
  | .unset vs _ => ended (w.changeStore fun st => st.unsetAll s vs)
  | .expression e _ =>
      match e.eval (w.read s) with
      | .ok _ => (w, .flow .normal, [])
      | .error e => (w, .failed e.fault, [])
  | .choice first others otherwise _ => w.choose (first :: others) otherwise s
  | .loop mode body _ =>
      let (w, inner) := w.child s
      w.beginLoop inner mode body
  | .commands [] _ => (w, .flow .normal, [])
  | .commands (c :: rest) _ => (w, .call c s, [.commands rest s])
  | .jump kind levels p => (w, .flow (.jump kind levels p), [])

/-! ## Conditions -/

def negating (negated : Bool) : List Frame := if negated then [.negation] else []

def test (w : World) (s : ScopeId) : Condition → World × Focus × List Frame
  | .assigning negated _ a rest =>
      match w.assign .itself s a with
      | (w, some e) => (w, .failed e.fault, [])
      | (w, none) => (w, .test rest s, negating negated)
  | .commanding negated _ c rest => (w, .call c s, .thenTest rest s :: negating negated)
  | .command negated _ c => (w, .call c s, .truthiness :: negating negated)
  | .comparison negated p lhs comparison =>
      let result : Except RunFailure Bool := do
        let v ← lhs.eval (w.read s)
        match comparison with
        | none => return v.truthy
        | some (op, rhs) => v.compareWith (w.read s) op rhs
      match result with
      | .ok b => (w, .truth (b != negated), [])
      | .error e => (w, .failed (e.fault.placed p), [])

/-! ## Commands -/

/-- Ends a command; the pause after it comes before anything else. -/
def settle (w : World) (a : ActiveCommand) (r : Except Error Value) : World × Focus :=
  match w.conclude a r with
  | (w, .error fault) => (w, .failed fault)
  | (w, .ok v) =>
      match w.commandDelay? with
      | some d => (w, .pause (w.now + d) v)
      | none => (w, .value v)

/-- How a thread goes on with a command that has come so far. -/
def proceed (w : World) (a : ActiveCommand) : Progress → World × Focus
  | .finished r => w.settle a r
  | .waiting op => (w, .await a op)

def callCommand (w : World) (c : Catalogue) (s : ScopeId) (cmd : Command) : World × Focus :=
  match c.prepare (w.read s) s cmd with
  | .error e => (w, .failed (e.fault.placed cmd.position))
  | .ok p =>
      let (w, progress) := p.body w p.invocation
      w.proceed p.active progress

/-! ## What comes after -/

def afterFlow (w : World) (f : Flow) : Frame → World × Focus × List Frame
  | .statements _ rest s =>
      match f with
      | .normal => (w, .run rest s, [])
      | .jump .. => (w, .flow f, [])
  | .body l =>
      match f with
      | .normal => w.afterBody l
      | .jump kind levels p =>
          if 1 < levels then (w, .flow (.jump kind (levels - 1) p), [])
          else
            match kind with
            | .break => (w, .flow .normal, [])
            | .continue => w.afterBody l
  | _ => (w, .flow f, [])

def afterTruth (w : World) (b : Bool) : Frame → World × Focus × List Frame
  | .negation => (w, .truth !b, [])
  | .branch body inner others otherwise outer =>
      if b then (w, .run body inner, []) else w.choose others otherwise outer
  | .loopTest l => if b then w.enterBody l else (w, .flow .normal, [])
  | _ => (w, .truth b, [])

def afterValue (w : World) (v : Value) : Frame → World × Focus × List Frame
  | .commands [] _ => (w, .flow .normal, [])
  | .commands (c :: rest) s => (w, .call c s, [.commands rest s])
  | .thenTest c s => (w, .test c s, [])
  | .truthiness => (w, .truth v.truthy, [])
  | .clause l => (w, .loop l, [])
  | .source targets body s => w.overItems targets body s v
  | _ => (w, .value v, [])

/-- Goes on after a failure: the statement that contains it lends it its position. -/
def afterFailure (e : Fault) : Frame → Fault
  | .statements p _ _ => e.placed p
  | _ => e

end World

/-! ## Threads -/

namespace Thread

def start (body : List Statement) (s : ScopeId) : Thread := ⟨.run body s, []⟩

def result? (t : Thread) : Option (Except Fault Unit) :=
  match t.focus, t.frames with
  | .flow .normal, [] => some (.ok ())
  | .failed e, [] => some (.error e)
  | _, _ => none

/-- A thread after a step that left new frames above those given. -/
def after (frames : List Frame) (r : World × Focus × List Frame) : World × Thread :=
  (r.1, ⟨r.2.1, r.2.2 ++ frames⟩)

/-- The fault of a jump that no loop takes up. -/
def strayJump (kind : JumpKind) (p : Position) : Fault :=
  (RunFailure.jumpOutside kind).fault.placed p

/-- Whether a thread has nothing to do: it has ended, or it waits for something that has not
come. -/
def isBlocked (w : World) (t : Thread) : Bool :=
  match t.focus with
  | .await _ op => (op.resume? w).isNone
  | .pause stop _ => w.now < stop
  | _ => t.result?.isSome

/-- Takes a thread one step on, in one turn. One that has nothing to do stays as it is. -/
def step (c : Catalogue) (w : World) (t : Thread) : World × Thread :=
  match t.focus, t.frames with
  | .run [] _, frames => (w, ⟨.flow .normal, frames⟩)
  | .run (st :: rest) s, frames =>
      after (.statements st.position rest s :: frames) (w.begin s st)
  | .test cond s, frames => after frames (w.test s cond)
  | .loop l, frames => after frames (w.iterate l)
  | .call cmd s, frames =>
      let (w, focus) := w.callCommand c s cmd
      (w, ⟨focus, frames⟩)
  | .await a op, frames =>
      match op.resume? w with
      | some (w, progress) =>
          let (w, focus) := w.proceed a progress
          (w, ⟨focus, frames⟩)
      | none => (w, t)
  | .pause stop v, frames => (w, if stop ≤ w.now then ⟨.value v, frames⟩ else t)
  | .flow f, frame :: frames => after frames (w.afterFlow f frame)
  | .truth b, frame :: frames => after frames (w.afterTruth b frame)
  | .value v, frame :: frames => after frames (w.afterValue v frame)
  | .failed e, frame :: frames => (w, ⟨.failed (World.afterFailure e frame), frames⟩)
  | .flow (.jump kind _ p), [] => (w, ⟨.failed (strayJump kind p), []⟩)
  | .flow .normal, [] | .truth _, [] | .value _, [] | .failed _, [] => (w, t)

/-- When a thread that waits is to be looked at again if nothing else happens. -/
def wake? (t : Thread) : Option Instant :=
  match t.focus with
  | .await _ op => some op.wake
  | .pause stop _ => some stop.tick
  | _ => none

end Thread

end TabPilot
