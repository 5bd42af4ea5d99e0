import Keystroke.OsError

/-!
# The journal of a machine

What programs do to a machine, as entries of a journal: sleeps, the life of a virtual input
device and the events written to it, the events posted to and read from the other systems' event
streams, and the calls that tell how a program waits. The records that the entries carry are
those of the system interfaces.
-/

namespace Keystroke

/-- An event of the Linux input layer, read from a device or written to one. -/
structure InputEvent where
  type : UInt16
  code : UInt16
  value : Int
  deriving DecidableEq, Repr, Inhabited

/-- The description by which a virtual device is created. -/
structure VirtualDevice where
  name : String
  /-- The bus to which the device claims to be attached. -/
  bus : UInt16
  vendor : UInt16
  product : UInt16
  version : UInt16
  keys : List UInt16
  deriving DecidableEq, Repr

structure QuartzEvent where
  code : UInt16
  down : Bool
  /-- The modifier flags; zero sets none. -/
  flags : Nat
  /-- The text that the event types, in place of that of its key. -/
  text : Option (List UInt16)
  deriving DecidableEq, Repr

structure KeyInput where
  virtualKey : UInt16
  scan : UInt16
  flags : Nat
  deriving DecidableEq, Repr

inductive HookCall where
  | callNext | dispatch | postQuit | postThread | translate | unhook
  deriving DecidableEq, Repr

inductive Entry where
  | slept (micros : Nat)
  | created (device : VirtualDevice)
  | wrote (batch : List InputEvent)
  | destroyed
  | posted (event : QuartzEvent)
  /-- The permission prompt was asked for, with the dictionary of its options or without. -/
  | prompted (dictionary : Bool)
  | releasedOptions
  | sent (inputs : List KeyInput) (accepted : Nat)
  | tapEnabled
  | tapRemoved
  /-- The named devices were polled, with a timeout in milliseconds. -/
  | polled (nodes : List String) (timeout : Nat)
  /-- The run loop ran for a slice of so many milliseconds. -/
  | ranSlice (millis : Nat)
  | hooked (call : HookCall)
  | woken
  deriving DecidableEq, Repr

end Keystroke
