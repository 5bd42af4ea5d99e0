import Keystroke.Key.Character

/-!
# Key events

A key event is one transition of a key as an observer sees it: the key, the direction, the modifier
mask that holds after the transition, and the character that the key types under that mask.
-/

namespace Keystroke

structure KeyEvent where
  /-- The number of the key's character, 0 for none; a release has it too. -/
  codepoint : UInt32
  key : Key
  /-- The mask after the transition. -/
  modifiers : Modifier
  /-- Whether the key went down; a repeated press counts as one more. -/
  pressed : Bool
  deriving DecidableEq, Repr, Inhabited

namespace KeyEvent

def of (key : Key) (m : Modifier) (pressed : Bool) : KeyEvent :=
  ⟨key.codepoint m, key, m, pressed⟩

def character (e : KeyEvent) : Option Char :=
  if e.codepoint = 0 then none
  else if h : e.codepoint.isValidChar then some ⟨e.codepoint, h⟩ else none

end KeyEvent

end Keystroke
