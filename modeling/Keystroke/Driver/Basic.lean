import Keystroke.Backend
import Keystroke.Delay
import Keystroke.Host.Basic
import Keystroke.Key.Name

/-!
# Keyboard drivers

A driver turns key transitions and texts into what its machine understands. It gets hold of the
machine's interface when it is opened and never fails at that: a driver without an interface is not
ready and refuses what it is asked to send.

A `Rig` is a driver, or a sender, together with the machine. The operations of a driver are steps
of a rig; they may change both parts whether they succeed or not.
-/

namespace Keystroke

/-- Why a driver did not do what it was asked to do. -/
inductive DriverError where
  | notReady
  | unmappedKey (key : Key)
  | unsupported (what : String)
  | invalidCodepoint (value : UInt32)
  | os (error : OsError)
  | platform (text : String)
  deriving DecidableEq, Repr

def DriverError.message : DriverError → String
  | notReady => "backend is not ready"
  | unmappedKey key => "no native key code for " ++ key.name
  | unsupported what => "not supported by this backend: " ++ what
  | invalidCodepoint value => "invalid Unicode codepoint " ++ Text.hexNumber value.toNat
  | os error => "I/O error: " ++ error.message
  | platform text => "platform error: " ++ text

abbrev DriverResult := Except DriverError Unit

/-- Something that works on a machine, and the machine. -/
structure Rig (α : Type) where
  front : α
  host : Host

namespace Rig

variable {α : Type}

def atHost {β : Type} (f : Host → β × Host) : StateM (Rig α) β := fun r =>
  let (b, host) := f r.host
  (b, { r with host })

def record (e : Entry) : StateM (Rig α) Unit := modify fun r => { r with host := r.host.record e }

def report (message : String) : StateM (Rig α) Unit :=
  modify fun r => { r with host := r.host.report message }

def pause (d : KeyDelay) : StateM (Rig α) Unit :=
  modify fun r => { r with host := r.host.recordAll (d.sleeps.map .slept) }

end Rig

/-- What every driver can do. -/
class KeyboardDriver (δ : Type) where
  backend : Backend
  /-- The driver that holds nothing: not ready, without a delay. -/
  released : δ
  capabilities : δ → Capabilities
  isReady : δ → Bool
  keyCode : δ → Key → Option UInt32
  keyDelay : δ → KeyDelay
  setKeyDelay : KeyDelay → δ → δ
  /-- Why the driver is not ready, if that is known. -/
  diagnostic : δ → Option String
  /-- Asks for missing permissions where that is possible, and says whether the driver is ready. -/
  requestPermissions : StateM (Rig δ) Bool := do return isReady (← get).front
  sendKey : Key → Bool → StateM (Rig δ) DriverResult
  typeText : String → StateM (Rig δ) DriverResult
  typeChar : Char → StateM (Rig δ) DriverResult
  /-- Makes the machine take notice of everything sent so far. -/
  flush : StateM (Rig δ) DriverResult
  delay : StateM (Rig δ) Unit := do Rig.pause (keyDelay (← get).front)
  /-- What the machine goes through when the driver is given up. -/
  close : δ → Host → Host := fun _ h => h

end Keystroke
