/-!
# Capture errors

Why a listener could not be started.
-/

namespace Keystroke

/-- Why no capture session came about. -/
inductive CaptureError where
  | missingCallback
  | hookInstallFailed (reason : String)
  | noDevices (reason : String)
  | permissionDenied (reason : String)
  /-- There is no thread for the session. -/
  | threadSpawn (reason : String)
  | unsupportedPlatform (system : String)
  deriving DecidableEq, Repr

namespace CaptureError

def message : CaptureError → String
  | missingCallback => "a callback is required to start listening"
  | hookInstallFailed reason => "failed to install keyboard hook: " ++ reason
  | noDevices reason => "no keyboard devices found: " ++ reason
  | permissionDenied reason => "permission denied: " ++ reason
  | threadSpawn reason => "failed to spawn capture thread: " ++ reason
  | unsupportedPlatform system => "unsupported platform: " ++ system

/-- The error of a thread that ended before it had reported anything. -/
def silentStartup : CaptureError := hookInstallFailed "capture thread exited during startup"

end CaptureError

end Keystroke
