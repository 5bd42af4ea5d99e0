import Keystroke.Listener.Basic

/-!
# The queue

A capture mechanism that is fed from outside: what is put into the inbox of its latest session is
delivered in order. It can be told to refuse sessions.
-/

namespace Keystroke

structure QueueMechanism where
  failing : Bool := false
  sessions : Nat := 0
  /-- The thread of the latest session. -/
  latest : Option Nat := none
  deriving DecidableEq, Repr

namespace QueueMechanism

/-- The program of every session. -/
def program : Capture Unit := .report (.ok none) (.serve (.done ()))

instance : CaptureMechanism QueueMechanism where
  kind _ := .mock
  openSession q :=
    (if q.failing then .error (.hookInstallFailed "mock failure") else .ok program, q)
  install n q := { q with sessions := q.sessions + 1, latest := some n }
  inlet := latest
  setFailing failing q := { q with failing }

end QueueMechanism

end Keystroke
