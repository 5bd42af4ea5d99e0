/-!
# Settings

The settings of a sender, of a listener and of the log, with the values that hold where nothing else
is said.
-/

namespace Keystroke

structure SenderSettings where
  /-- The pause between two transitions, in microseconds; zero is no pause. -/
  keyDelay : UInt32 := 1000
  deviceName : String := "Virtual Keyboard"
  vendor : UInt16 := 0x1234
  product : UInt16 := 0x5678
  /-- How long the system may take to publish the virtual keyboard, in milliseconds. -/
  settleMillis : UInt64 := 100
  deriving DecidableEq, Repr, Inhabited

structure ListenerSettings where
  /-- How long a capture loop waits before it looks at its stop flag again, in milliseconds. -/
  pollMillis : UInt64 := 100
  deviceDir : String := "/dev/input"
  deriving DecidableEq, Repr, Inhabited

/-- The wait of a capture loop in milliseconds, which is never zero. -/
def ListenerSettings.effectivePollMillis (s : ListenerSettings) : Nat := max s.pollMillis.toNat 1

structure LogSettings where
  level : String := "info"
  deriving DecidableEq, Repr, Inhabited

structure Settings where
  sender : SenderSettings := {}
  listener : ListenerSettings := {}
  logging : LogSettings := {}
  deriving DecidableEq, Repr, Inhabited

end Keystroke
