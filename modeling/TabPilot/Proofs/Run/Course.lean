import TabPilot.Run.Script

set_option autoImplicit false

/-! # The course of a thread and of a script

A thread takes its steps one by one, each in one turn. Between two steps others may change the
world: the handlers of events, the connections, the debuggers, the clock. `Thread.Reaches` leaves
open what they do. `Script.Reaches` is the course of a script together with its handlers, each of
which runs as a thread of its own for every event that it is begun for. What becomes of the scopes
when threads run at the same time, so that others come between the parts of a step too, is a matter
of `Store.Change.Runs`.
-/

namespace TabPilot

namespace Thread

/-- How a thread goes on from `t` in the world `w`. It may take a step whenever it is `going`, and
at any time the world may change in one of the ways of `others`. -/
inductive Reaches (c : Catalogue) (others : World → World → Prop) (going : Thread → Prop)
    (w : World) (t : Thread) : World → Thread → Prop
  | here : Reaches c others going w t w t
  | step {w' : World} {t' : Thread} (h : Reaches c others going w t w' t') (on : going t') :
      Reaches c others going w t (t'.step c w').1 (t'.step c w').2
  | meanwhile {w' w'' : World} {t' : Thread} (h : Reaches c others going w t w' t')
      (change : others w' w'') : Reaches c others going w t w'' t'

variable {c : Catalogue} {others : World → World → Prop} {going : Thread → Prop}
variable {w w' : World} {t t' : Thread}

/-- What holds at first, and after every step and every change if it did before, holds in the
whole course. -/
theorem Reaches.keeps {I : World → Thread → Prop} (h : Reaches c others going w t w' t')
    (start : I w t)
    (step : ∀ w t, going t → I w t → I (t.step c w).1 (t.step c w).2)
    (meanwhile : ∀ w w' t, others w w' → I w t → I w' t) : I w' t' := by
  induction h with
  | here => exact start
  | step _ on ih => exact step _ _ on ih
  | meanwhile _ change ih => exact meanwhile _ _ _ change ih

end Thread

/-! ## A script with its handlers -/

/-- What a handler of a script is registered as when the script runs in the scope `home`. -/
def Script.reaction (script : Script) (home : ScopeId) (filename : Option String) (h : Handler) :
    Reaction :=
  ⟨h.isolated, h.body, home, script.source, filename⟩

theorem Script.reactionOf_eq (script : Script) (home : ScopeId) (filename : Option String)
    (h : Handler) :
    World.reactionOf h home script.source filename = .reaction (script.reaction home filename h) :=
  rfl

/-- How the run of a script may go on that is begun in the scope `home` of the world `w`: the
events for which handlers were begun so far, the world, and the threads, of which the first runs
the statements of the script and each other one a handler. In every order, any thread takes a
step, any handler is begun for any event, and anything happens to the world but to its scopes:
replies and events come, requests are written, time passes. -/
inductive Script.Reaches (c : Catalogue) (script : Script) (home : ScopeId) (w : World) :
    List Event → World → List Thread → Prop
  | start : Reaches c script home w [] w [.start script.statements home]
  | step {events : List Event} {w' : World} {before after : List Thread} {t : Thread}
      (h : Reaches c script home w events w' (before ++ t :: after)) :
      Reaches c script home w events (t.step c w').1 (before ++ (t.step c w').2 :: after)
  | react {events : List Event} {w' : World} {threads : List Thread} {handler : Handler}
      (h : Reaches c script home w events w' threads) (mem : handler ∈ script.handlers)
      (filename : Option String) (e : Event) :
      Reaches c script home w (events ++ [e]) (w'.react (script.reaction home filename handler) e).1
        (threads ++ [(w'.react (script.reaction home filename handler) e).2.thread])
  | meanwhile {events : List Event} {w' w'' : World} {threads : List Thread}
      (h : Reaches c script home w events w' threads) (same : w''.store = w'.store) :
      Reaches c script home w events w'' threads

end TabPilot
