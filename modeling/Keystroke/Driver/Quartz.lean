import Keystroke.Config.Settings
import Keystroke.Driver.Basic
import Keystroke.Key.Quartz
import Keystroke.Modifier.Quartz
import Keystroke.Modifier.Tracker
import Keystroke.Text.Utf16

/-!
# The macOS driver

The driver posts keyboard events. Each needs an event source of its own. Posting needs the
Accessibility permission, for which the driver can ask. An event of a key carries the flags of the
modifiers that the driver holds down after it; an event that types text carries none.
-/

namespace Keystroke

/-- A driver that posts macOS events. As it stands it is not ready. -/
structure QuartzDriver where
  source : Bool := false
  trusted : Bool := false
  keyDelay : KeyDelay := .zero
  held : ModifierTracker := {}
  diagnostic : Option String := none
  deriving DecidableEq, Repr

namespace QuartzDriver

def isReady (d : QuartzDriver) : Bool := d.source && d.trusted

/-- What keeps the driver from being ready. -/
def obstacle (d : QuartzDriver) : Option String :=
  -- without a source the permission does not matter
  if !d.source then some "cannot create a HIDSystemState CGEventSource"
  else if !d.trusted then
    some ("Accessibility permission not granted " ++
      "(System Settings > Privacy & Security > Accessibility)")
  else none

def diagnose (d : QuartzDriver) (h : Host) : QuartzDriver × Host :=
  ({ d with diagnostic := d.obstacle },
    match d.obstacle with
    | some message => h.report message
    | none => h)

/-- Opens the driver: tries to make an event source and looks at the permission. -/
def connect (s : SenderSettings) (h : Host) : QuartzDriver × Host :=
  let (source, h) := h.newSource
  diagnose { source, trusted := h.quartz.trusted, keyDelay := ⟨s.keyDelay⟩ } h

/-- Asks for the permission and looks at it again. -/
def requestPermissions : StateM (Rig QuartzDriver) Bool := fun r =>
  let (trusted, host) := r.host.promptForTrust
  let (front, host) := diagnose { r.front with trusted } host
  (front.isReady, ⟨front, host⟩)

/-- Makes what an event needs: a source, then the event itself. -/
def makeEvent : StateM (Rig QuartzDriver) DriverResult := do
  if !(← Rig.atHost Host.newSource) then
    return .error (.platform "CGEventSourceCreate failed")
  if !(← Rig.atHost Host.newEvent) then
    return .error (.platform "CGEventCreateKeyboardEvent failed")
  return .ok ()

/-- Sends a transition of a key. Only an event that is posted counts as held. -/
def sendKey (key : Key) (down : Bool) : StateM (Rig QuartzDriver) DriverResult := do
  if !(← get).front.isReady then return .error .notReady
  match key.quartzCode with
  | none => return .error (.unmappedKey key)
  | some code =>
    match ← makeEvent with
    | .error e => return .error e
    | .ok () =>
      let (mask, held) := (← get).front.held.onKey key down
      modify fun r => { r with front := { r.front with held } }
      Rig.record (.posted ⟨code, down, mask.toQuartz, none⟩)
      return .ok ()

def postUnits (units : List UInt16) (down : Bool) : StateM (Rig QuartzDriver) DriverResult := do
  match ← makeEvent with
  | .error e => return .error e
  | .ok () =>
    Rig.record (.posted ⟨0, down, 0, some units⟩)
    return .ok ()

def typeChar (ch : Char) : StateM (Rig QuartzDriver) DriverResult := do
  if !(← get).front.isReady then return .error .notReady
  match ← postUnits (Utf16.units ch) true with
  | .error e => return .error e
  -- both events carry the text
  | .ok () => postUnits (Utf16.units ch) false

/-- Types characters one after another, each followed by a pause, until one fails. -/
def typeChars : List Char → StateM (Rig QuartzDriver) DriverResult
  | [] => return .ok ()
  | ch :: rest => do
    match ← typeChar ch with
    | .error e => return .error e
    | .ok () =>
      Rig.pause (← get).front.keyDelay
      typeChars rest

instance : KeyboardDriver QuartzDriver where
  backend := .macos
  released := {}
  capabilities d := { injectKeys := d.isReady, injectText := d.isReady, needsAccessibility := true }
  isReady := isReady
  keyCode _ key := key.quartzCode.map (·.toUInt32)
  keyDelay := keyDelay
  setKeyDelay delay d := { d with keyDelay := delay }
  diagnostic := diagnostic
  requestPermissions := requestPermissions
  sendKey := sendKey
  typeText s := typeChars s.toList
  typeChar := typeChar
  flush := return .ok ()

end QuartzDriver

end Keystroke
