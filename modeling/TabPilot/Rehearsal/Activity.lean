import TabPilot.Run.Script

set_option autoImplicit false

/-! # Activities

An activity is something that is carried out to its end while a session goes on: a script, some
operations at the same time, or the stopping of tabs.
-/

namespace TabPilot

inductive StopPhase
  /-- The connection is to be asked to stop. -/
  | asking
  /-- Receiving is to end. -/
  | closing
  /-- Dispatching is to end. -/
  | draining
  deriving Repr, DecidableEq

inductive Outcome
  /-- A script could not be read. -/
  | misread (fault : Fault)
  | script (r : Except Error Unit)
  | values (rs : List (Except Error Value))
  | stopped

instance : Inhabited Outcome := ⟨.stopped⟩

inductive Activity
  | script (r : ScriptRun)
  | operations (ps : List Progress)
  | stopping (tabs : List TabId) (phase : StopPhase)
  | finished (o : Outcome)

namespace Progress

def result? : Progress → Option (Except Error Value)
  | .finished r => some r
  | .waiting _ => none

def isReady (w : World) : Progress → Bool
  | .finished _ => false
  | .waiting op => (op.resume? w).isSome

def wake? : Progress → Option Instant
  | .finished _ => none
  | .waiting op => some op.wake

def resumeFirst (w : World) : List Progress → World × List Progress
  | [] => (w, [])
  | .finished r :: rest =>
      let (w, rest) := resumeFirst w rest
      (w, .finished r :: rest)
  | .waiting op :: rest =>
      match op.resume? w with
      | some (w, p) => (w, p :: rest)
      | none =>
          let (w, rest) := resumeFirst w rest
          (w, .waiting op :: rest)

end Progress

namespace Activity

def one (r : World × Progress) : World × Activity := (r.1, .operations [r.2])

def connection? (w : World) (t : TabId) : Option Connection := (w.tab? t).map Tab.connection

def isBlocked (w : World) : Activity → Bool
  | .script r => r.thread.result?.isNone && r.thread.isBlocked w
  | .operations ps => ps.any (fun p => p.result?.isNone) && !ps.any (Progress.isReady w)
  | .stopping [] _ => false
  | .stopping (t :: _) phase =>
      match connection? w t, phase with
      | some c, .closing => c.receiving
      | some c, .draining => c.dispatching
      | _, _ => false
  | .finished _ => true

/-- Goes on with the stopping of tabs. Whoever asks a connection to stop first waits until
receiving has ended, closes the way to the debugger, and waits until dispatching has ended. -/
def stopStep (w : World) (t : TabId) (rest : List TabId) (phase : StopPhase) : World × Activity :=
  let others := Activity.stopping rest .asking
  match connection? w t, phase with
  | none, _ => (w, others)
  | some c, .asking =>
      match c.askToStop with
      | (c, true) => (w.modifyConnection t fun _ => c, .stopping (t :: rest) .closing)
      | (_, false) => (w, others)
  | some c, .closing =>
      if c.receiving then (w, .stopping (t :: rest) .closing)
      else (w.modifyConnection t fun c => c.shut, .stopping (t :: rest) .draining)
  | some c, .draining => (w, if c.dispatching then .stopping (t :: rest) .draining else others)

def step (c : Catalogue) (w : World) : Activity → World × Activity
  | .script r =>
      match r.thread.result? with
      | some result =>
          let (w, result) := w.endScript r result
          (w, .finished (.script result))
      | none =>
          let (w, thread) := r.thread.step c w
          (w, .script { r with thread })
  | .operations ps =>
      match ps.mapM Progress.result? with
      | some rs => (w, .finished (.values rs))
      | none =>
          let (w, ps) := Progress.resumeFirst w ps
          (w, .operations ps)
  | .stopping [] _ => (w, .finished .stopped)
  | .stopping (t :: rest) phase => stopStep w t rest phase
  | .finished o => (w, .finished o)

/-- When an activity that is blocked is to be looked at if nothing else happens. -/
def wakes : Activity → List Instant
  | .script r => r.thread.wake?.toList
  | .operations ps => ps.filterMap Progress.wake?
  | .stopping _ _ | .finished _ => []

end Activity

end TabPilot
