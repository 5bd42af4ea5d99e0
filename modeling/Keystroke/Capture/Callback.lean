import Keystroke.Event
import Keystroke.Host.Journal

/-!
# Callbacks

A callback is called with every captured event, on the capture thread. It may use the listener that
calls it, and it may break its thread.
-/

namespace Keystroke

/-- What a callback does when it is called, in the order of the fields. It takes note of the event
after it has used the listener and before it breaks the thread. -/
structure Reaction where
  starts : Bool := false
  causes : List Entry := []
  stops : Bool := false
  panics : Bool := false
  deriving DecidableEq, Repr

/-- A callback: what it does at each of its calls, by the number of calls before. -/
structure Callback where
  /-- By which what it noted is told from what others did. -/
  label : Nat := 0
  react : Nat → KeyEvent → Reaction := fun _ _ => {}

structure Heard where
  /-- The number of the capture thread. -/
  thread : Nat
  label : Nat
  event : KeyEvent
  started : Option Bool := none
  /-- Whether the listener was listening after it stopped it, if it did. -/
  listening : Option Bool := none
  deriving DecidableEq, Repr

inductive Act where
  | start
  | cause (entry : Entry)
  | stop
  | look
  | note
  | panic
  deriving DecidableEq, Repr

/-- The acts of a reaction in order. -/
def Reaction.acts (r : Reaction) : List Act :=
  (if r.starts then [.start] else []) ++ r.causes.map .cause ++
    (if r.stops then [.stop, .look] else []) ++ [.note] ++ (if r.panics then [.panic] else [])

end Keystroke
