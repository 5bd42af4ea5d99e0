import Keystroke.Key.VirtualKey
import Keystroke.Listener.Basic
import Keystroke.Modifier.Tracker

/-!
# Capture on Windows

The capture thread installs a low-level keyboard hook and runs a message loop, during which the
system brings the hook its notifications. The hook observes only: it passes every notification on.
The thread leaves its loop when it was asked to quit, by the one who stops it or by the hook
itself when it sees that the thread should not keep running.
-/

namespace Keystroke

namespace KeyboardHook

structure Notification where
  /-- The window message, of which only the low 32 bits count. -/
  message : Nat
  /-- The virtual key, of which only the low 16 bits count. -/
  virtualKey : Nat
  flags : Nat
  /-- Whether there is something to process; only zero says so. -/
  code : Int := 0
  deriving DecidableEq, Repr

def pressed? (message : Nat) : Option Bool :=
  if message = 0x100 ∨ message = 0x104 then some true
  else if message = 0x101 ∨ message = 0x105 then some false
  else none

/-- The flag of the keys that have been added to the first keyboard layout. -/
def extendedFlag : Nat := 1

/-- The key transition that a notification tells of, if any. -/
def Notification.transition? (n : Notification) : Option (Key × Bool) :=
  if n.code ≠ 0 then none
  else
    (pressed? (n.message % UInt32.size)).map fun pressed =>
      (.ofVirtualKey n.virtualKey.toUInt16 (n.flags &&& extendedFlag != 0), pressed)

def passOn : Entry := .hooked .callNext

/-- What comes of notifications that reach the hook while the callback is running: they are passed
on and nothing else. -/
def whileBusy (ns : List Notification) : List Entry := ns.map fun _ => passOn

def quit : Capture Unit := do
  Capture.leave (.hooked .postQuit)
  Capture.postQuit (pure ())

/-- Delivers a key transition, unless the thread should not keep running, and asks the thread to
quit if it should not, be it before or after. -/
def observe (key : Key) (pressed : Bool) (t : ModifierTracker) : Capture ModifierTracker := do
  if ← Capture.isRunning then
    let (mask, t) := t.onKey key pressed
    Capture.send (.of key mask pressed)
    -- the callback may have stopped the listener
    if ← Capture.isRunning then return t
    quit
    return t
  else
    quit
    return t

def notify (n : Notification) (t : ModifierTracker) : Capture ModifierTracker := do
  let t ← match n.transition? with
    | some (key, pressed) => observe key pressed t
    | none => pure t
  Capture.leave passOn
  return t

/-- What the hook does with several notifications, one after the other. -/
def notifyAll : List Notification → ModifierTracker → Capture ModifierTracker
  | [], t => return t
  | n :: rest, t => do notifyAll rest (← notify n t)

/-- What happens while the thread waits for a message. -/
structure Wait where
  notifications : List Notification := []
  /-- What the wait then ends with, if it does: a positive number with a message, any other
  without. -/
  returns : Option Int := none
  deriving DecidableEq, Repr

/-- Waits for messages: the script says how, and from its end on the thread waits until it is
asked to quit. -/
def loop : List Wait → ModifierTracker → Capture Unit
  | [], _ => .awaitQuit (.done ())
  | wait :: script, t => do
    if ← Capture.isQuitting then return
    let t ← notifyAll wait.notifications t
    match wait.returns with
    -- without a result the wait goes on
    | none => loop script t
    | some result =>
      if 0 < result then
        Capture.leave (.hooked .translate)
        Capture.leave (.hooked .dispatch)
        if ← Capture.isRunning then loop script t

end KeyboardHook

/-- The capture mechanism of Windows, on a machine on which the hook is told what a script says. -/
structure HookMechanism where
  refusal : Option String := none
  /-- The state of the CapsLock key; an odd one is on. -/
  capsLock : Int := 0
  /-- The state of the NumLock key; an odd one is on. -/
  numLock : Int := 0
  /-- What reaches the hook before it is reported as installed. -/
  early : List KeyboardHook.Notification := []
  script : List KeyboardHook.Wait := []
  deriving DecidableEq, Repr

namespace HookMechanism

def locks (c : HookMechanism) : Modifier :=
  (if c.capsLock % 2 = 1 then .capsLock else ∅) ∪ (if c.numLock % 2 = 1 then .numLock else ∅)

def program (c : HookMechanism) : Capture Unit :=
  match c.refusal with
  | some reason => .report (.error (.hookInstallFailed reason)) (.done ())
  | none => do
    -- the hook works from the moment on at which it is installed
    let t ← KeyboardHook.notifyAll c.early (.ofLocks c.locks)
    Capture.report (.ok (some (.hooked .postThread))) (pure ())
    if ← Capture.isRunning then KeyboardHook.loop c.script t
    Capture.leave (.hooked .unhook)

instance : CaptureMechanism HookMechanism where
  kind _ := .windows
  openSession c := (.ok c.program, c)

end HookMechanism

end Keystroke
