/-!
# Backends

The mechanisms by which keys are sent and observed, and what a sender can do with one of them.
-/

namespace Keystroke

inductive Backend where
  | linuxUinput | macos | windows | mock
  deriving DecidableEq, Repr, Inhabited

namespace Backend

def all : List Backend := [.linuxUinput, .macos, .windows, .mock]

def wire : Backend → UInt8
  | .linuxUinput => 0
  | .macos => 1
  | .windows => 2
  | .mock => 3

/-- The name by which the backend is shown. -/
def name : Backend → String
  | .linuxUinput => "linux-uinput"
  | .macos => "macos"
  | .windows => "windows"
  | .mock => "mock"

instance : ToString Backend := ⟨name⟩

end Backend

structure Capabilities where
  injectKeys : Bool := false
  /-- Any text can be sent, mapped to keys or not. -/
  injectText : Bool := false
  /-- What is sent comes from a device that the system takes for real hardware. -/
  simulateHid : Bool := false
  keyRepeat : Bool := false
  needsUinput : Bool := false
  needsAccessibility : Bool := false
  needsInputMonitoring : Bool := false
  deriving DecidableEq, Repr, Inhabited

end Keystroke
