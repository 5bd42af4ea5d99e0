import Keystroke.Listener.Basic

/-!
# The scripted capture

A capture mechanism whose sessions go as planned, well or badly. It serves to observe what a
listener makes of a session, whatever the session does.
-/

namespace Keystroke

namespace ScriptedMechanism

/-- How a session goes on after its events. -/
inductive Ending where
  | returns
  | panics
  /-- It waits until it should not keep running, and returns. -/
  | waits
  deriving DecidableEq, Repr

inductive Plan where
  /-- There is no thread. -/
  | refused (error : CaptureError)
  | failed (error : CaptureError)
  | silent
  | startupPanic
  /-- It is ready, delivers events while it should keep running, and ends. -/
  | ready (wakeable : Bool) (events : List KeyEvent) (ending : Ending)
  deriving DecidableEq, Repr

/-- The program of a session, unless it is refused. -/
def Plan.program : Plan → Except CaptureError (Capture Unit)
  | refused e => .error e
  | failed e => .ok (.report (.error e) (.done ()))
  | silent => .ok (.done ())
  | startupPanic => .ok .crash
  | ready wakeable events ending => .ok do
    Capture.report (.ok (if wakeable then some .woken else none)) (pure ())
    if ← Capture.sendWhileRunning events then
      match ending with
      | .returns => pure ()
      | .panics => .crash
      | .waits => .idle (.done ())

end ScriptedMechanism

/-- A mechanism with plans for its sessions; further ones are ready and return. -/
structure ScriptedMechanism where
  plans : List ScriptedMechanism.Plan := []
  deriving DecidableEq, Repr

instance : CaptureMechanism ScriptedMechanism where
  kind _ := .mock
  openSession s := ((s.plans.headD (.ready false [] .returns)).program, { plans := s.plans.tail })

end Keystroke
