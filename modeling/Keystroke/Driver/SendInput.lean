import Keystroke.Config.Settings
import Keystroke.Driver.Basic
import Keystroke.Key.VirtualKey
import Keystroke.Text.Utf16

/-!
# The Windows driver

The driver sends keyboard inputs in batches. It needs nothing to be opened and is ready at once; a
batch that the system does not take whole is an error. A character is a batch of a press and a
release for each of its UTF-16 units.
-/

namespace Keystroke

/-- A driver that sends Windows inputs. As it stands it is not ready. -/
structure SendInputDriver where
  ready : Bool := false
  keyDelay : KeyDelay := .zero
  deriving DecidableEq, Repr

namespace SendInputDriver

def extendedFlag : Nat := 1

def keyUpFlag : Nat := 2

/-- The flag of inputs whose scan code is a UTF-16 unit. -/
def unicodeFlag : Nat := 4

def connect (s : SenderSettings) : SendInputDriver := { ready := true, keyDelay := ⟨s.keyDelay⟩ }

def send (inputs : List KeyInput) : StateM (Rig SendInputDriver) DriverResult := do
  match ← Rig.atHost (Host.send inputs) with
  | .error text => return .error (.platform ("SendInput: " ++ text))
  | .ok () => return .ok ()

def keyInput (h : Host) (key : Key) (code : UInt16) (down : Bool) : KeyInput where
  virtualKey := code
  scan := (h.windows.scan code).toUInt16
  flags := (if key.isExtended then extendedFlag else 0) + (if down then 0 else keyUpFlag)

def sendKey (key : Key) (down : Bool) : StateM (Rig SendInputDriver) DriverResult := do
  let r ← get
  if !r.front.ready then return .error .notReady
  match key.virtualKey with
  | none => return .error (.unmappedKey key)
  -- one input is a batch as well
  | some code => send [keyInput r.host key code down]

/-- The press and the release of a UTF-16 unit. -/
def unitInputs (u : UInt16) : List KeyInput :=
  [⟨0, u, unicodeFlag⟩, ⟨0, u, unicodeFlag + keyUpFlag⟩]

def typeChar (ch : Char) : StateM (Rig SendInputDriver) DriverResult := do
  if !(← get).front.ready then return .error .notReady
  send ((Utf16.units ch).flatMap unitInputs)

/-- Types characters one after another, each followed by a pause, until one fails. -/
def typeChars : List Char → StateM (Rig SendInputDriver) DriverResult
  | [] => return .ok ()
  | ch :: rest => do
    match ← typeChar ch with
    | .error e => return .error e
    | .ok () =>
      Rig.pause (← get).front.keyDelay
      typeChars rest

/-- Types a text; a driver that is not ready refuses even the empty one. -/
def typeText (s : String) : StateM (Rig SendInputDriver) DriverResult := do
  if !(← get).front.ready then return .error .notReady
  typeChars s.toList

instance : KeyboardDriver SendInputDriver where
  backend := .windows
  released := {}
  capabilities d := { injectKeys := d.ready, injectText := d.ready }
  isReady := ready
  keyCode _ key := key.virtualKey.map (·.toUInt32)
  keyDelay := keyDelay
  setKeyDelay delay d := { d with keyDelay := delay }
  diagnostic _ := none
  sendKey := sendKey
  typeText := typeText
  typeChar := typeChar
  flush := return .ok ()

end SendInputDriver

end Keystroke
