import Keystroke.Host.Journal

/-!
# The machine

A `Host` is the machine as a program sees it: a journal of what was done to it, the message of the
last error that was reported, and the interfaces by which keys are sent. Which calls of an interface
the machine refuses is given by functions of how many calls of the kind came before; the interface
counts them.
-/

namespace Keystroke

structure UinputPort where
  /-- Why no device can be created, if so. -/
  refusal : Option OsError := none
  fault : Nat → Option OsError := fun _ => none
  writes : Nat := 0

structure QuartzPort where
  trusted : Bool := true
  /-- The permission after the user answers the prompt; without it the prompt changes nothing. -/
  grant : Option Bool := none
  /-- Whether the dictionary of options for the prompt can be made. -/
  dictionary : Bool := true
  sourceFault : Nat → Bool := fun _ => false
  eventFault : Nat → Bool := fun _ => false
  sources : Nat := 0
  events : Nat := 0

structure WindowsPort where
  /-- The scan code of a virtual key; only its low 16 bits count. -/
  scan : UInt16 → Nat := fun code => code.toNat + 256
  /-- How many inputs the call with a given number says that it took, and the error text. -/
  fault : Nat → Option (Nat × String) := fun _ => none
  sends : Nat := 0

/-- The machine on which the program runs. -/
structure Host where
  /-- What was done to the machine, oldest first. -/
  journal : List Entry := []
  /-- The message of the latest reported error. -/
  lastError : Option String := none
  uinput : UinputPort := {}
  quartz : QuartzPort := {}
  windows : WindowsPort := {}
  deriving Inhabited

namespace Host

def record (e : Entry) (h : Host) : Host := { h with journal := h.journal ++ [e] }

def recordAll (es : List Entry) (h : Host) : Host := { h with journal := h.journal ++ es }

/-- The host after an error was reported. -/
def report (message : String) (h : Host) : Host := { h with lastError := some message }

/-- The host after the reported error was taken back. -/
def clearError (h : Host) : Host := { h with lastError := none }

@[simp] theorem journal_record (e : Entry) (h : Host) :
    (h.record e).journal = h.journal ++ [e] := rfl

@[simp] theorem journal_recordAll (es : List Entry) (h : Host) :
    (h.recordAll es).journal = h.journal ++ es := rfl

@[simp] theorem lastError_record (e : Entry) (h : Host) :
    (h.record e).lastError = h.lastError := rfl

@[simp] theorem lastError_report (s : String) (h : Host) :
    (h.report s).lastError = some s := rfl

/-! ## Virtual devices -/

/-- Creates a virtual device, unless the machine refuses. -/
def createDevice (d : VirtualDevice) (h : Host) : Except OsError Unit × Host :=
  match h.uinput.refusal with
  | some e => (.error e, h)
  | none => (.ok (), h.record (.created d))

/-- Writes a batch of events to the virtual device. A refused write leaves no entry. -/
def write (batch : List InputEvent) (h : Host) : Except OsError Unit × Host :=
  let tried := { h with uinput := { h.uinput with writes := h.uinput.writes + 1 } }
  match h.uinput.fault h.uinput.writes with
  | some e => (.error e, tried)
  | none => (.ok (), tried.record (.wrote batch))

/-! ## macOS events -/

def newSource (h : Host) : Bool × Host :=
  (!h.quartz.sourceFault h.quartz.sources,
    { h with quartz := { h.quartz with sources := h.quartz.sources + 1 } })

def newEvent (h : Host) : Bool × Host :=
  (!h.quartz.eventFault h.quartz.events,
    { h with quartz := { h.quartz with events := h.quartz.events + 1 } })

/-- Shows the permission prompt, if the options for it can be made, and says whether the program
has the permission afterwards. -/
def promptForTrust (h : Host) : Bool × Host :=
  if h.quartz.dictionary then
    let trusted := h.quartz.grant.getD h.quartz.trusted
    let h := h.recordAll [.prompted true, .releasedOptions]
    (trusted, { h with quartz := { h.quartz with trusted } })
  else (h.quartz.trusted, h.record (.prompted false))

/-! ## Windows inputs -/

/-- Sends a batch of inputs. Unless the machine says that it took as many, the answer is the error's
text. -/
def send (inputs : List KeyInput) (h : Host) : Except String Unit × Host :=
  let tried := { h with windows := { h.windows with sends := h.windows.sends + 1 } }
  match h.windows.fault h.windows.sends with
  | none => (.ok (), tried.record (.sent inputs inputs.length))
  | some (accepted, text) =>
    (if accepted = inputs.length then .ok () else .error text, tried.record (.sent inputs accepted))

end Host

end Keystroke
