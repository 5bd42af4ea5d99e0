import Keystroke.Config.Settings
import Keystroke.Key.Modifier
import Keystroke.Key.Quartz
import Keystroke.Listener.Basic
import Keystroke.Modifier.Quartz

/-!
# Capture on macOS

The capture thread makes an event tap and runs its run loop in slices. What the tap sees during a
slice waits in a queue until the slice is over, and is delivered then. The system may disable the
tap, which is enabled again as soon as the queue says so.

An event carries the modifiers that hold after it. A change of the modifier flags does not say in
which direction its key went: the key is taken as pressed if its own modifier is among the flags.
-/

namespace Keystroke

namespace EventTap

inductive Kind where
  | down
  | up
  | flagsChanged
  | disabled
  | other
  deriving DecidableEq, Repr

structure Event where
  kind : Kind
  /-- The number of the key, of which only the low 16 bits count. -/
  code : Int
  flags : Nat
  deriving DecidableEq, Repr

inductive Message where
  | key (code : UInt16) (flags : Nat) (down : Bool)
  | flagsChanged (code : UInt16) (flags : Nat)
  | disabled
  deriving DecidableEq, Repr

def Event.message? (e : Event) : Option Message :=
  let code := (e.code % 0x10000).toNat.toUInt16
  -- what is no key event does not get into the queue
  match e.kind with
  | .down => some (.key code e.flags true)
  | .up => some (.key code e.flags false)
  | .flagsChanged => some (.flagsChanged code e.flags)
  | .disabled => some .disabled
  | .other => none

/-- Whether a change of the modifiers to `mask` means that a key of its own modifier was pressed. -/
def isPress (key : Key) (mask : Modifier) : Bool :=
  let own := key.modifierBit ∪ key.lockBit
  !own.isEmpty && mask.contains own

/-- The event that a message gives, if any. -/
def Message.event? : Message → Option KeyEvent
  | .key code flags down => some (.of (.ofQuartzCode code) (.ofQuartz flags) down)
  | .flagsChanged code flags =>
    let key := Key.ofQuartzCode code
    let mask := Modifier.ofQuartz flags
    some (.of key mask (isPress key mask))
  | .disabled => none

/-- Delivers what is in the queue, and says whether all of it was. A message without an event is
that the tap was disabled. Before each message, and at the end, the thread looks whether it should
keep running. -/
def deliverQueue : List Message → Capture Bool
  | [] => Capture.isRunning
  | message :: rest => do
    if ← Capture.isRunning then
      match message.event? with
      | some event => Capture.send event
      | none => Capture.leave .tapEnabled
      deliverQueue rest
    else return false

/-- Runs the run loop slice by slice: the script says what the tap sees in each, and from its end on
there is nothing to see. -/
def loop (millis : Nat) : List (List Event) → Capture Unit
  | [] => .idle (.done ())
  | slice :: script => do
    if ← Capture.isRunning then
      Capture.leave (.ranSlice millis)
      if ← deliverQueue (slice.filterMap (·.message?)) then loop millis script

end EventTap

/-- The capture mechanism of macOS, on a machine on which the tap sees the events of a script. -/
structure EventTapMechanism where
  settings : ListenerSettings := {}
  /-- Whether no tap can be made, for want of a permission. -/
  tapFails : Bool := false
  loopFails : Bool := false
  script : List (List EventTap.Event) := []

namespace EventTapMechanism

/-- The reason why there is no tap. -/
def noTap : String :=
  "CGEventTapCreate failed (System Settings > Privacy & Security > Input Monitoring)"

/-- The reason why the tap is of no use. -/
def noSource : String := "cannot create run loop source for event tap"

def program (c : EventTapMechanism) : Capture Unit :=
  if c.tapFails then .report (.error (.permissionDenied noTap)) (.done ())
  -- from here on there is a tap to be removed
  else .defer .tapRemoved <|
    if c.loopFails then .report (.error (.hookInstallFailed noSource)) (.done ())
    else .record .tapEnabled <| .report (.ok none) <|
      EventTap.loop c.settings.effectivePollMillis c.script

instance : CaptureMechanism EventTapMechanism where
  kind _ := .macos
  openSession c := (.ok c.program, c)

end EventTapMechanism

end Keystroke
