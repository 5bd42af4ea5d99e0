import Keystroke.Capture.InputLayer
import Keystroke.Config.Settings
import Keystroke.Key.Evdev
import Keystroke.Listener.Basic
import Keystroke.Modifier.Tracker

/-!
# Capture on Linux

The capture thread opens the node of every keyboard, and polls all of them. A poll waits for a
bounded time, so that the thread notices soon that it should not keep running. From time to time
it looks for the nodes of further keyboards; a keyboard that cannot be read any more is dropped.
Without any keyboard the thread goes on and waits for one.

The events carry no modifiers, so these are tracked; the locks that are on at the start are read
from the LEDs.
-/

namespace Keystroke

structure Keyboard where
  node : String
  device : InputDevice

namespace Evdev

/-! ## Opening keyboards -/

def keyboard? (k : InputLayer) (node : String) : Except OsError (Option Keyboard) :=
  let device := k.device node
  match device.refusal with
  | some e => .error e
  | none => .ok (if device.isKeyboard && device.pollable then some ⟨node, device⟩ else none)

def keyboardsOf (k : InputLayer) (nodes : List String) : List Keyboard :=
  nodes.filterMap fun node => (keyboard? k node).toOption.join

/-- How many of the nodes may not be opened. -/
def deniedCount (k : InputLayer) (nodes : List String) : Nat :=
  nodes.countP fun node =>
    match keyboard? k node with
    | .error e => e.isDenial
    | .ok _ => false

/-- Opens all keyboards in a directory. There has to be one. -/
def openAll (k : InputLayer) (dir : String) : Except CaptureError (List Keyboard) :=
  match k.eventNodes dir with
  | .error e => .error (.noDevices (dir ++ ": " ++ e.message))
  | .ok nodes =>
    -- nodes that may not be opened matter only if there is no keyboard among the others
    match keyboardsOf k nodes, deniedCount k nodes with
    | [], 0 => .error (.noDevices ("no keyboard event nodes in " ++ dir))
    | [], denied => .error (.permissionDenied ("cannot open " ++ toString denied ++
        " input node(s) in " ++ dir ++ "; add the user to the `input` group"))
    | keyboards, _ => .ok keyboards

/-- The locks that the first keyboard with readable LEDs shows. -/
def initialLocks (keyboards : List Keyboard) : Modifier :=
  (keyboards.findSome? fun kb => kb.device.locks?).getD ∅

/-- The keyboards together with those that have appeared in a directory. -/
def adopt (k : InputLayer) (dir : String) (kept : List Keyboard) : List Keyboard :=
  match k.eventNodes dir with
  | .error _ => kept
  -- a node that is open already is not opened twice
  | .ok nodes => kept ++ keyboardsOf k (nodes.filter fun node => kept.all (·.node != node))

/-! ## Events -/

def keyType : UInt16 := 1

def isButton (code : UInt16) : Bool := 0x100 ≤ code && code < 0x160

/-- The direction of a key transition, of which a repetition counts as a press. -/
def pressed? (value : Int) : Option Bool :=
  if value = 0 then some false else if value = 1 ∨ value = 2 then some true else none

/-- The key transition that a raw event tells of, if any. -/
def transition? (e : InputEvent) : Option (Key × Bool) :=
  if e.type != keyType then none
  else
    match pressed? e.value with
    | none => none
    | some pressed =>
      let key := Key.ofEvdevCode e.code
      -- an unknown key is reported as such, unless it is a button
      if key = .unknown ∧ isButton e.code then none else some (key, pressed)

/-- The event that a raw event gives, if any, and the tracker that has seen it. -/
def decode (e : InputEvent) (t : ModifierTracker) : Option KeyEvent × ModifierTracker :=
  match transition? e with
  | none => (none, t)
  | some (key, pressed) =>
    let (mask, t) := t.onKey key pressed
    (some (.of key mask pressed), t)

/-- Delivers what a batch of raw events gives. Before each event, and at the end, the thread looks
whether it should keep running; if not, there is no tracker to go on with. -/
def deliverBatch : List InputEvent → ModifierTracker → Capture (Option ModifierTracker)
  | [], t => do return if ← Capture.isRunning then some t else none
  | e :: rest, t => do
    if ← Capture.isRunning then
      match decode e t with
      | (some event, t) =>
        Capture.send event
        deliverBatch rest t
      | (none, t) => deliverBatch rest t
    else return none

/-! ## The loop -/

/-- The time after which the directory is read again, in milliseconds. -/
def rescanMillis : Nat := 2000

/-- The longest time that a poll can wait, in milliseconds. -/
def maxTimeout : Nat := 0xFFFF

structure State where
  keyboards : List Keyboard
  tracker : ModifierTracker
  scanned : Nat

/-- The state after the directory was read again, if it is time for that. -/
def State.rescan (s : State) (k : InputLayer) (dir : String) : State :=
  if rescanMillis ≤ k.clock - s.scanned then
    { s with keyboards := adopt k dir s.keyboards, scanned := k.clock }
  else s

/-- Reads the keyboards that are readable, in order, and says which have to be dropped. -/
def readReady (turn : PollTurn) :
    List Keyboard → ModifierTracker → Capture (Option (List String × ModifierTracker))
  | [], t => return some ([], t)
  | kb :: rest, t => do
    match turn.outcome? kb.node with
    | none => readReady turn rest t
    | some (.ok batch) =>
      match ← deliverBatch batch t with
      | none => return none
      | some t => readReady turn rest t
    | some (.error e) =>
      -- nothing to read after all is no reason to drop the keyboard
      if e = .wouldBlock then readReady turn rest t
      else return (← readReady turn rest t).map fun (lost, t) => (kb.node :: lost, t)

/-- The loop of the capture thread: the polls end as the script says, and from its end on they
wait in vain. -/
def loop (dir : String) (timeout : Nat) : List PollStep → InputLayer → State → Capture Unit
  | [], _, _ => .idle (.done ())
  | step :: script, k, s => do
    if ← Capture.isRunning then
      let s := s.rescan k dir
      Capture.leave (.polled (s.keyboards.map (·.node)) timeout)
      match step with
      -- any other failure of a poll ends the session
      | .failed e wait => if e = .interrupted then loop dir timeout script (wait.apply k) s
      | .passed turn =>
        match ← readReady turn s.keyboards s.tracker with
        | none => return
        | some (lost, tracker) =>
          let keyboards := s.keyboards.filter fun kb => !lost.contains kb.node
          loop dir timeout script (turn.apply k) { s with keyboards, tracker }

end Evdev

/-- The capture mechanism of Linux, on a machine whose input layer goes through a script. -/
structure EvdevMechanism where
  settings : ListenerSettings := {}
  layer : InputLayer := {}
  script : List PollStep := []

namespace EvdevMechanism

open Evdev

def program (c : EvdevMechanism) : Capture Unit :=
  let dir := c.settings.deviceDir
  match openAll c.layer dir with
  | .error e => .report (.error e) (.done ())
  | .ok keyboards =>
    .report (.ok none) (loop dir (min c.settings.effectivePollMillis maxTimeout) c.script c.layer
      { keyboards, tracker := .ofLocks (initialLocks keyboards), scanned := c.layer.clock })

instance : CaptureMechanism EvdevMechanism where
  kind _ := .linuxUinput
  openSession c := (.ok c.program, c)

end EvdevMechanism

end Keystroke
