import Keystroke.Config.Settings
import Keystroke.Driver.Basic
import Keystroke.Key.Evdev

/-!
# The Linux driver

The driver creates a virtual keyboard and writes key events to it; the kernel passes them on like
those of a real keyboard. The device is created when the driver is opened and destroyed when the
driver is closed. A keyboard has keys and nothing else, so texts are refused.
-/

namespace Keystroke

/-- The driver of a virtual keyboard. As it stands it holds no device. -/
structure UinputDriver where
  device : Bool := false
  codes : List (Key × UInt16) := []
  keyDelay : KeyDelay := .zero
  diagnostic : Option String := none
  capabilities : Capabilities := {}
  deriving DecidableEq, Repr

namespace UinputDriver

def keyEventType : UInt16 := 1

/-- The number of the bus to which virtual keyboards are attached. -/
def usbBus : UInt16 := 3

def codeTable : List (Key × UInt16) :=
  Key.all.filterMap fun key => key.evdevCode.map fun code => (key, code)

def keyboard (s : SenderSettings) : VirtualDevice where
  name := s.deviceName
  bus := usbBus
  vendor := s.vendor
  product := s.product
  version := 1
  keys := (codeTable.map (·.2)).mergeSort fun a b => a ≤ b

/-- The pause after the device was created, in which the system publishes it. -/
def settle (s : SenderSettings) (h : Host) : Host :=
  if s.settleMillis = 0 then h else h.record (.slept (s.settleMillis.toNat * 1000))

/-- Opens the driver: creates the device and waits until it is published. Without a device the
reason is kept and reported. -/
def connect (s : SenderSettings) (h : Host) : UinputDriver × Host :=
  -- the codes are known and the delay is kept even if there is no device
  let d : UinputDriver :=
    { codes := codeTable, keyDelay := ⟨s.keyDelay⟩
      capabilities := { simulateHid := true, keyRepeat := true, needsUinput := true } }
  match h.createDevice (keyboard s) with
  | (.ok (), h) =>
    ({ d with device := true, capabilities := { d.capabilities with injectKeys := true } },
      settle s h)
  | (.error e, h) =>
    let message := "cannot create uinput device via /dev/uinput: " ++ e.message
    ({ d with diagnostic := some message }, h.report message)

def emit (batch : List InputEvent) : StateM (Rig UinputDriver) DriverResult := do
  match ← Rig.atHost (Host.write batch) with
  | .error e => return .error (.os e)
  | .ok () => return .ok ()

def keyEvent (code : UInt16) (down : Bool) : InputEvent :=
  ⟨keyEventType, code, if down then 1 else 0⟩

def sendKey (key : Key) (down : Bool) : StateM (Rig UinputDriver) DriverResult := do
  let d := (← get).front
  if !d.device then return .error .notReady
  match d.codes.lookup key with
  | none => return .error (.unmappedKey key)
  | some code => emit [keyEvent code down]

/-- The answer to every text. -/
def refuseText : StateM (Rig UinputDriver) DriverResult :=
  return .error (.unsupported "unicode text injection on uinput")

instance : KeyboardDriver UinputDriver where
  backend := .linuxUinput
  released := {}
  capabilities := capabilities
  isReady := device
  keyCode d key := (d.codes.lookup key).map (·.toUInt32)
  keyDelay := keyDelay
  setKeyDelay delay d := { d with keyDelay := delay }
  diagnostic := diagnostic
  sendKey := sendKey
  typeText _ := refuseText
  typeChar _ := refuseText
  flush := do if (← get).front.device then emit [] else return .ok ()
  close d h := if d.device then h.record .destroyed else h

end UinputDriver

end Keystroke
