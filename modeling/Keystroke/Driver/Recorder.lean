import Keystroke.Driver.Basic

/-!
# The recording driver

A driver that sends nothing and keeps a record of what it was asked to send. Programs rehearse with
it. It can be made not ready, without support for texts, without some of the keys, or failing.
-/

namespace Keystroke

inductive Recorder.Op where
  | key (key : Key) (down : Bool)
  | text (s : String)
  | flush
  | delay
  deriving DecidableEq, Repr

/-- A driver that records. As it stands it holds nothing and is not ready. -/
structure Recorder where
  ready : Bool := false
  textSupported : Bool := false
  /-- The keys that have no code. -/
  unmapped : List Key := []
  keyDelay : KeyDelay := .zero
  diagnostic : Option String := none
  failing : Bool := false
  /-- What was accepted, oldest first. -/
  record : List Recorder.Op := []
  deriving DecidableEq, Repr

namespace Recorder

def new : Recorder := { ready := true, textSupported := true }

/-- A driver that did not get what it needs. -/
def notReady (diagnostic : String) : Recorder := { diagnostic := some diagnostic }

/-- The stand-in where no backend exists. -/
def placeholder : Recorder := notReady "no keyboard backend exists for this platform"

def add (op : Op) (d : Recorder) : Recorder := { d with record := d.record ++ [op] }

def keyCode (d : Recorder) (key : Key) : Option UInt32 :=
  if key = .unknown ∨ d.unmapped.contains key then none else some key.wire.toUInt32

/-- Why a driver that has been asked to send something fails for good, if so. -/
def failure (d : Recorder) : DriverResult :=
  if d.failing then .error (.platform "mock failure") else .ok ()

def checkKey (d : Recorder) (key : Key) : DriverResult :=
  if !d.ready then .error .notReady
  else if (d.keyCode key).isNone then .error (.unmappedKey key)
  else d.failure

def checkText (d : Recorder) : DriverResult :=
  if !d.ready then .error .notReady
  else if !d.textSupported then .error (.unsupported "unicode text injection")
  else d.failure

def accept (check : Recorder → DriverResult) (op : Op) : StateM (Rig Recorder) DriverResult := do
  let d := (← get).front
  match check d with
  | .error e => return .error e
  | .ok () => do
    modify fun r => { r with front := d.add op }
    return .ok ()

instance : KeyboardDriver Recorder where
  backend := .mock
  released := {}
  capabilities d :=
    { injectKeys := d.ready, injectText := d.ready && d.textSupported, keyRepeat := true }
  isReady := ready
  keyCode := keyCode
  keyDelay := keyDelay
  setKeyDelay delay d := { d with keyDelay := delay }
  diagnostic := diagnostic
  sendKey key down := accept (·.checkKey key) (.key key down)
  typeText s := accept checkText (.text s)
  typeChar ch := accept checkText (.text (String.singleton ch))
  flush := do
    modify fun r => if r.front.ready then { r with front := r.front.add .flush } else r
    return .ok ()
  delay := do
    modify fun r => { r with front := r.front.add .delay }
    Rig.pause (← get).front.keyDelay

end Recorder

end Keystroke
