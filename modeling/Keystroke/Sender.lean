import Keystroke.Driver.Basic
import Keystroke.Key.Modifier

/-!
# The sender

A sender owns a driver and keeps account of the modifiers that it has pressed through it. Its
operations say whether they succeeded; why one failed is known to the driver alone, except that a
number which is no character is reported.

The account follows what the sender asked for, not what the driver did: a modifier counts as
held from before its press is sent until after its release was sent, whatever came of either.
-/

namespace Keystroke

structure Sender (δ : Type) where
  driver : δ
  active : Modifier := ∅

namespace Sender

variable {δ : Type} [KeyboardDriver δ]

def released : Sender δ := { driver := KeyboardDriver.released }

def drive {β : Type} (act : StateM (Rig δ) β) : StateM (Rig (Sender δ)) β := fun r =>
  let (b, r') := act ⟨r.front.driver, r.host⟩
  (b, ⟨{ r.front with driver := r'.front }, r'.host⟩)

def account (f : Modifier → Modifier) : StateM (Rig (Sender δ)) Unit :=
  modify fun r => { r with front := { r.front with active := f r.front.active } }

def succeeded : DriverResult → Bool
  | .ok () => true
  | .error _ => false

/-! ## Keys -/

def send (key : Key) (down : Bool) : StateM (Rig (Sender δ)) Bool := do
  return succeeded (← drive (KeyboardDriver.sendKey key down))

def keyDown (key : Key) : StateM (Rig (Sender δ)) Bool := do
  -- on the account first: if the press fails the release is still due
  account (· ∪ key.modifierBit)
  send key true

def keyUp (key : Key) : StateM (Rig (Sender δ)) Bool := do
  let sent ← send key false
  account (· \ key.modifierBit)
  return sent

/-- Presses a key, waits and releases it. A press that fails ends it. -/
def tap (key : Key) : StateM (Rig (Sender δ)) Bool := do
  if !(← keyDown key) then return false
  drive KeyboardDriver.delay
  keyUp key

/-! ## Modifiers -/

/-- Does something for each of the given modifiers, and says whether all of it succeeded. None is
left out when another fails. -/
def forEach (act : Key → StateM (Rig (Sender δ)) Bool) :
    List Modifier → StateM (Rig (Sender δ)) Bool
  | [] => return true
  | bit :: rest => do
    let done ← match bit.leftKey? with
      | some key => act key
      | none => pure false
    -- the others have their turn in any case
    let others ← forEach act rest
    return done && others

/-- Presses the left key of every chord modifier in the mask. -/
def hold (mask : Modifier) : StateM (Rig (Sender δ)) Bool := forEach keyDown mask.chordBits

/-- Releases the left key of every chord modifier in the mask. -/
def release (mask : Modifier) : StateM (Rig (Sender δ)) Bool := forEach keyUp mask.chordBits

/-- Releases the left key of every chord modifier. -/
def releaseAll : StateM (Rig (Sender δ)) Bool := release .chord

/-- Taps a key while modifiers are held. The modifiers are released at the end whatever happened; if
one of them could not be pressed the key is not tapped. -/
def combo (mask : Modifier) (key : Key) : StateM (Rig (Sender δ)) Bool := do
  let held ← hold mask
  let tapped ←
    if held then do
      drive KeyboardDriver.delay
      let tapped ← tap key
      drive KeyboardDriver.delay
      pure tapped
    else pure false
  -- whether the releases succeed is not part of the result
  let _ ← release mask
  return tapped

/-! ## Texts -/

def typeText (s : String) : StateM (Rig (Sender δ)) Bool := do
  return succeeded (← drive (KeyboardDriver.typeText s))

def charOf? (value : UInt32) : Option Char :=
  if h : value.isValidChar then some ⟨value, h⟩ else none

def charsOf : List UInt32 → Except UInt32 (List Char)
  | [] => .ok []
  | value :: rest =>
    match charOf? value with
    | none => .error value
    | some ch => (charsOf rest).map (ch :: ·)

/-- Types the text whose characters have the given numbers. A number that is none is reported, and
nothing is typed. -/
def typeUtf32 (values : List UInt32) : StateM (Rig (Sender δ)) Bool := do
  match charsOf values with
  | .ok cs => typeText (String.ofList cs)
  | .error value =>
    Rig.report ("type_text_utf32: " ++ (DriverError.invalidCodepoint value).message)
    return false

def typeChar (value : UInt32) : StateM (Rig (Sender δ)) Bool := do
  match charOf? value with
  | some ch => return succeeded (← drive (KeyboardDriver.typeChar ch))
  | none =>
    Rig.report ("type_character: " ++ (DriverError.invalidCodepoint value).message)
    return false

/-! ## State -/

def isReady (s : Sender δ) : Bool := KeyboardDriver.isReady s.driver

def capabilities (s : Sender δ) : Capabilities := KeyboardDriver.capabilities s.driver

def keyDelay (s : Sender δ) : KeyDelay := KeyboardDriver.keyDelay s.driver

def diagnostic (s : Sender δ) : Option String := KeyboardDriver.diagnostic s.driver

/-- Makes the machine take notice of everything sent, if the driver is ready. -/
def flush : StateM (Rig (Sender δ)) Bool := do
  if !(← get).front.isReady then return false
  return succeeded (← drive KeyboardDriver.flush)

def requestPermissions : StateM (Rig (Sender δ)) Bool := drive KeyboardDriver.requestPermissions

def setKeyDelay (micros : UInt32) : StateM (Rig (Sender δ)) Unit :=
  modify fun r =>
    let driver := KeyboardDriver.setKeyDelay ⟨micros⟩ r.front.driver
    { r with front := { r.front with driver } }

/-! ## Life -/

def close (s : Sender δ) (h : Host) : Host := KeyboardDriver.close s.driver h

def take : StateM (Rig (Sender δ)) (Sender δ) := fun r => (r.front, { r with front := released })

/-- Puts a sender in the place of the present one, which is given up. -/
def restore (s : Sender δ) : StateM (Rig (Sender δ)) Unit := fun r =>
  ((), ⟨s, r.front.close r.host⟩)

end Sender

end Keystroke
