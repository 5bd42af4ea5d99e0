import Keystroke.Capture.Evdev
import Keystroke.CommandLine.Combo
import Keystroke.CommandLine.Options
import Keystroke.Config.File
import Keystroke.Driver.Uinput
import Keystroke.Listener.Run
import Keystroke.Sender
import Keystroke.Text.Quoted
import Keystroke.Version

/-!
# Runs of the command line

A run loads the settings, opens a sender, tells what the sender can do, and then does what the
options ask for, in an order of its own: it asks for permissions, taps keys, presses a
combination, types a text and listens. The first of these that cannot be understood or started
ends the run.
-/

namespace Keystroke.CommandLine

/-- The machine on which the program is run. -/
structure Machine where
  host : Host := {}
  env : Environment := []
  input : InputLayer := {}
  /-- What happens to the input devices while the program listens. -/
  script : List PollStep := []

structure Outcome where
  exit : UInt8 := 0
  stdout : String := ""
  stderr : String := ""
  host : Host := {}

inductive Failure where
  | unknownKeyName (name : String)
  | combo (error : ComboError)
  | listener (cause : CaptureError)
  deriving DecidableEq, Repr

namespace Failure

def message : Failure → String
  | unknownKeyName name => "unknown key name '" ++ name ++ "'"
  | combo error => error.message
  | listener _ => "failed to start listener"

def cause? : Failure → Option String
  | listener cause => some cause.message
  | _ => none

/-- The lines of a text, each behind four blanks. -/
def indented (s : String) : String :=
  "\n".intercalate ((Text.split '\n' s).map fun line => "    " ++ line)

def report (f : Failure) : String :=
  "Error: " ++ f.message ++
    (match f.cause? with
      | some cause => "\n\nCaused by:\n" ++ indented cause
      | none => "") ++ "\n"

end Failure

/-! ## Texts -/

def programName : String := "typr-consumer"

def helpLines : List String :=
  ["Exercise the typr-io Sender and Listener",
   "",
   "Usage: typr-consumer [OPTIONS]",
   "",
   "Options:",
   "      --type <TEXT>          Text to inject through the Sender",
   "      --tap <KEY>            Key to tap; may be repeated",
   "      --combo <MODS+KEY>     Modifier chord plus key, e.g. \"ctrl+shift+a\"",
   "      --listen <SECS>        Listen for global key events for this many seconds",
   "      --request-permissions  Ask the OS for the permissions the Sender needs",
   "      --key-delay <US>       Inter-event delay in microseconds (overrides the config file)",
   "      --config <PATH>        Read configuration from this file instead of the default location",
   "  -h, --help                 Print help",
   "  -V, --version              Print version"]

def unlines (lines : List String) : String := String.join (lines.map (· ++ "\n"))

/-- The text with blanks after it, up to a width. -/
def padded (width : Nat) (s : String) : String :=
  s ++ String.ofList (List.replicate (width - s.length) ' ')

/-- The names of the capabilities with their values, in the order in which they are told. -/
def capabilityTable (c : Capabilities) : List (String × Bool) :=
  [("can_inject_keys", c.injectKeys), ("can_inject_text", c.injectText),
   ("can_simulate_hid", c.simulateHid), ("supports_key_repeat", c.keyRepeat),
   ("needs_accessibility_perm", c.needsAccessibility),
   ("needs_input_monitoring_perm", c.needsInputMonitoring), ("needs_uinput_access", c.needsUinput)]

def senderLines {δ : Type} [KeyboardDriver δ] (s : Sender δ) : List String :=
  ["typr-io " ++ version, "sender backend: " ++ (KeyboardDriver.backend δ).name, "capabilities:"] ++
  ((capabilityTable s.capabilities).map fun (name, value) =>
    "  " ++ padded 28 name ++ " " ++ toString value) ++
  (s.diagnostic.map fun why => "sender diagnostic: " ++ why).toList

def eventLine (e : KeyEvent) : String :=
  padded 5 (if e.pressed then "down" else "up") ++ " " ++ e.key.name ++ " " ++ e.modifiers.toText ++
    " " ++ (e.character.map Char.toString).getD ""

/-! ## Actions -/

structure Stage (δ : Type) where
  rig : Rig (Sender δ)
  lines : List String := []

/-- An action of a run, which may end it. -/
abbrev Action (δ : Type) := ExceptT Failure (StateM (Stage δ))

section

variable {δ : Type} [KeyboardDriver δ]

def say (lines : List String) : Action δ Unit :=
  modify fun s => { s with lines := s.lines ++ lines }

def withSender {α : Type} (act : StateM (Rig (Sender δ)) α) : Action δ α := do
  let (a, rig) := act.run (← get).rig
  modify fun s => { s with rig }
  return a

def requestPermissions : Action δ Unit := do
  let ready ← withSender Sender.requestPermissions
  say ["request permissions -> ready = " ++ toString ready]

def tap (name : String) : Action δ Unit := do
  match Key.parse name with
  | .error _ => throw (.unknownKeyName name)
  | .ok key =>
    let tapped ← withSender (Sender.tap key)
    say ["tap " ++ key.name ++ " -> " ++ toString tapped]

/-- Taps keys in order. -/
def tapAll : List String → Action δ Unit
  | [] => return
  | name :: rest => do
    tap name
    tapAll rest

def press (combo : String) : Action δ Unit := do
  match Combo.parse combo with
  | .error e => throw (.combo e)
  | .ok c =>
    let pressed ← withSender (Sender.combo c.modifiers c.key)
    say ["combo " ++ c.toText ++ " -> " ++ toString pressed]

def typeText (s : String) : Action δ Unit := do
  let typed ← withSender (Sender.typeText s)
  say ["type " ++ Text.quote s ++ " -> " ++ toString typed]

/-- Listens for some seconds, in which everything happens that is going to happen. Without any time
nothing happens. -/
def listen {β : Type} [CaptureMechanism β] (backend : β) (seconds : UInt64) : Action δ Unit := do
  let host := (← get).rig.host
  let idle : Listener β := { backend, shared := { host } }
  let (answer, running) := idle.ask (.start (some {}))
  let stopped := (if seconds = 0 then running else running.settle).close
  -- the machine has gone on even if there was no session
  modify fun s => { s with rig := { s.rig with host := stopped.shared.host } }
  match answer with
  | some (.started (.error e)) => throw (.listener e)
  | _ =>
    say (["listening for " ++ toString seconds.toNat ++ "s (backend: " ++
        (CaptureMechanism.kind backend).name ++ ")"] ++
      stopped.shared.heard.map (fun h => eventLine h.event) ++
      [toString stopped.shared.heard.length ++ " events observed"])

def perform {β : Type} [CaptureMechanism β] (backend : β) (o : Options) : Action δ Unit := do
  -- the order is fixed, whatever that of the options was
  if o.requestPermissions then requestPermissions
  tapAll o.taps
  if let some combo := o.combo then press combo
  if let some s := o.text then typeText s
  if let some seconds := o.listen then listen backend seconds

end

/-! ## Runs -/

/-- The file with the settings, if one was given or the environment names one. -/
def settingsPath? (env : Environment) (o : Options) : Option String :=
  o.config.or (Settings.filePath env).toOption

/-- The settings of a run. Without any that can be used the standard ones hold. -/
def settingsOf (m : Machine) (o : Options) : Settings :=
  match settingsPath? m.env o with
  | some path => (Settings.load m.input.fs path).toOption.getD {}
  | none => {}

def runWith (m : Machine) (o : Options) : Outcome :=
  let settings := settingsOf m o
  let (driver, host) := UinputDriver.connect settings.sender m.host
  let opened : Rig (Sender UinputDriver) := ⟨{ driver }, host⟩
  let rig := match o.keyDelay with
    | some micros => ((Sender.setKeyDelay micros).run opened).2
    | none => opened
  let capture : EvdevMechanism :=
    { settings := settings.listener, layer := m.input, script := m.script }
  let action : Action UinputDriver Unit := do
    say (senderLines rig.front)
    if o.acts then perform capture o else say ("" :: helpLines)
  let (result, s) := action.run.run { rig }
  let ended : Outcome :=
    { stdout := unlines s.lines, host := s.rig.front.close s.rig.host }
  match result with
  | .ok () => ended
  | .error f => { ended with exit := 1, stderr := f.report }

def run (m : Machine) (args : List String) : Outcome :=
  match parse args with
  | .help => { stdout := unlines helpLines, host := m.host }
  | .version => { stdout := programName ++ " " ++ version ++ "\n", host := m.host }
  | .misuse => { exit := 2, host := m.host }
  | .run o => runWith m o

end Keystroke.CommandLine
