import Keystroke.FileSystem.Basic
import Keystroke.Host.Journal
import Keystroke.Modifier.Basic

/-!
# The Linux input layer

Every input device has a node in a directory. Which devices are keyboards shows when their nodes are
opened. Devices come and go, which shows in the directory.
-/

namespace Keystroke

structure InputDevice where
  refusal : Option OsError := none
  /-- The codes of the keys that it has, if it has keys at all. -/
  keys : Option (List UInt16) := some [28, 30]
  leds : Except OsError (List UInt16) := .error .notTypewriter
  /-- Whether reading from it can be made to return at once. -/
  pollable : Bool := true

namespace InputDevice

/-- What a node without a device behind it is. -/
def absent : InputDevice := { refusal := some .notTypewriter }

def letterA : UInt16 := 30

def enter : UInt16 := 28

/-- Whether the device is taken for a keyboard: it has a letter and Enter. -/
def isKeyboard (d : InputDevice) : Bool :=
  d.keys.any fun keys => keys.contains letterA && keys.contains enter

def numLockLed : UInt16 := 0

def capsLockLed : UInt16 := 1

def locks? (d : InputDevice) : Option Modifier :=
  match d.leds with
  | .error _ => none
  | .ok lit =>
    let caps : Modifier := if lit.contains capsLockLed then .capsLock else ∅
    some (if lit.contains numLockLed then caps ∪ .numLock else caps)

end InputDevice

structure InputLayer where
  fs : FileSystem := {}
  nodeDir : String := "input"
  devices : List (String × InputDevice) := []
  /-- The time in milliseconds. -/
  clock : Nat := 0

namespace InputLayer

def device (k : InputLayer) (node : String) : InputDevice :=
  (k.devices.lookup node).getD .absent

/-- The nodes of event devices in a directory, sorted. -/
def eventNodes (k : InputLayer) (dir : String) : Except FileError (List String) :=
  (k.fs.list dir).map fun names =>
    (names.filter ("event".isPrefixOf ·)).mergeSort fun a b => !decide (b < a)

def plug (k : InputLayer) (node : String) : InputLayer :=
  -- where no node can be created there is none
  { k with fs := (k.fs.writeFile (Path.join k.nodeDir node) ByteArray.empty).toOption.getD k.fs }

def unplug (k : InputLayer) (node : String) : InputLayer :=
  { k with fs := k.fs.removeFile (Path.join k.nodeDir node) }

def removeDir (k : InputLayer) : InputLayer := { k with fs := k.fs.removeFile k.nodeDir }

/-- Puts a device behind a node, in the place of the one before. -/
def setDevice (k : InputLayer) (node : String) (d : InputDevice) : InputLayer :=
  { k with devices := (node, d) :: k.devices }

end InputLayer

structure Readiness where
  node : String
  readable : Bool := true
  outcome : Except OsError (List InputEvent) := .ok []

/-- What happens while a poll waits. -/
structure PollWait where
  /-- How much time goes by, in milliseconds. -/
  elapsed : Nat := 0
  plugged : List String := []
  unplugged : List String := []
  dirRemoved : Bool := false
  devices : List (String × InputDevice) := []

/-- A poll that passes: what happens while it waits, and what it then says about the devices. -/
structure PollTurn extends PollWait where
  ready : List Readiness := []

inductive PollStep where
  | failed (error : OsError) (wait : PollWait := {})
  | passed (turn : PollTurn)

/-- The input layer after what happened while a poll waited. -/
def PollWait.apply (wait : PollWait) (k : InputLayer) : InputLayer :=
  -- what is plugged and unplugged in the same poll is not there afterwards
  let k := { k with clock := k.clock + wait.elapsed }
  let k := wait.plugged.foldl .plug k
  let k := wait.unplugged.foldl .unplug k
  let k := if wait.dirRemoved then k.removeDir else k
  wait.devices.foldl (fun k entry => k.setDevice entry.1 entry.2) k

/-- What the poll found out about a device, unless it is not readable. -/
def PollTurn.outcome? (turn : PollTurn) (node : String) :
    Option (Except OsError (List InputEvent)) :=
  (turn.ready.find? (·.node == node)).bind fun r => if r.readable then some r.outcome else none

end Keystroke
