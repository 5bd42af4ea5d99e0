import Keystroke.Key.Modifier

/-!
# Characters of keys

The character that a key types on a US keyboard under a modifier mask. Shift and CapsLock cancel
each other out on letters; CapsLock does not touch the other keys. The digits and the point of the
numpad type a character only while NumLock is on. Ctrl, Alt and Super make no difference.
-/

namespace Keystroke.Key

def letter? (key : Key) : Option Char :=
  let number := key.wire.toNat
  if Key.a.wire.toNat ≤ number ∧ number ≤ Key.z.wire.toNat then
    some (Char.ofNat ('a'.toNat + (number - Key.a.wire.toNat)))
  else none

def shiftPair? : Key → Option (Char × Char)
  | .num0 => some ('0', ')') | .num1 => some ('1', '!') | .num2 => some ('2', '@')
  | .num3 => some ('3', '#') | .num4 => some ('4', '$') | .num5 => some ('5', '%')
  | .num6 => some ('6', '^') | .num7 => some ('7', '&') | .num8 => some ('8', '*')
  | .num9 => some ('9', '(')
  | .grave => some ('\x60', '~') | .minus => some ('-', '_') | .equal => some ('=', '+')
  | .leftBracket => some ('[', '\x7b') | .rightBracket => some (']', '\x7d')
  | .backslash => some ('\\', '|') | .semicolon => some (';', ':')
  | .apostrophe => some ('\x27', '"') | .comma => some (',', '<') | .period => some ('.', '>')
  | .slash => some ('/', '?')
  | _ => none

/-- The character of a key that types the same one at all times. -/
def plain? : Key → Option Char
  | .space => some ' '
  | .numpadDivide => some '/' | .numpadMultiply => some '*'
  | .numpadMinus => some '-' | .numpadPlus => some '+'
  | _ => none

/-- The character of a numpad key that types only while NumLock is on. -/
def numpad? : Key → Option Char
  | .numpad0 => some '0' | .numpad1 => some '1' | .numpad2 => some '2' | .numpad3 => some '3'
  | .numpad4 => some '4' | .numpad5 => some '5' | .numpad6 => some '6' | .numpad7 => some '7'
  | .numpad8 => some '8' | .numpad9 => some '9' | .numpadDecimal => some '.'
  | _ => none

/-- The character that the key types under a mask, if any. -/
def character? (key : Key) (mask : Modifier) : Option Char :=
  let shift := mask.contains .shift
  match key.letter?, key.shiftPair?, key.plain? with
  | some letter, _, _ =>
    some (if shift != mask.contains .capsLock then letter.toUpper else letter)
  | none, some (base, shifted), _ => some (if shift then shifted else base)
  | none, none, some ch => some ch
  | none, none, none => if mask.contains .numLock then key.numpad? else none

/-- The number of the character that the key types under a mask, 0 if it types none. -/
def codepoint (key : Key) (mask : Modifier) : UInt32 :=
  ((key.character? mask).map Char.val).getD 0

end Keystroke.Key
