import Keystroke.Key.Basic
import Keystroke.Modifier.Basic

/-!
# Modifier keys

Which modifier a key holds or toggles, and which key stands for a modifier when one is pressed.
-/

namespace Keystroke

namespace Key

/-- The chord modifier that holds while the key is down, empty for most keys. -/
def modifierBit : Key → Modifier
  | .shiftLeft | .shiftRight => .shift
  | .ctrlLeft | .ctrlRight => .ctrl
  | .altLeft | .altRight => .alt
  | .superLeft | .superRight => .super
  | _ => ∅

def lockBit : Key → Modifier
  | .capsLock => .capsLock
  | .numLock => .numLock
  | _ => ∅

def isModifier (key : Key) : Bool := !key.modifierBit.isEmpty

end Key

/-- The left key of a single chord modifier; other masks have none. -/
def Modifier.leftKey? (m : Modifier) : Option Key :=
  if m = .shift then some .shiftLeft
  else if m = .ctrl then some .ctrlLeft
  else if m = .alt then some .altLeft
  else if m = .super then some .superLeft
  else none

end Keystroke
