import Keystroke.Key.Modifier

/-!
# Modifier tracking

A tracker works out the modifier mask from the key transitions that go by. A chord modifier holds
while its left or its right key is down. A lock is toggled when its key goes from up to down, so
that the repeated presses of a held key do not toggle it again.
-/

namespace Keystroke

/-- The state of the modifier and lock keys, as seen from their transitions. -/
structure ModifierTracker where
  held : List Key := []
  locks : Modifier := ∅
  deriving DecidableEq, Repr, Inhabited

namespace ModifierTracker

/-- The keys of which the tracker keeps a record. -/
def tracked : List Key :=
  [.shiftLeft, .shiftRight, .ctrlLeft, .ctrlRight, .altLeft, .altRight, .superLeft, .superRight,
   .capsLock, .numLock]

/-- A tracker for a keyboard with no key down and the given locks on. -/
def ofLocks (m : Modifier) : ModifierTracker := { locks := m ∩ .locks }

/-- The mask after everything seen so far. -/
def current (t : ModifierTracker) : Modifier :=
  (tracked.filter fun key => t.held.contains key).foldl (fun m key => m ∪ key.modifierBit) ∅ ∪
    t.locks

/-- The tracker after a transition of a key. -/
def step (t : ModifierTracker) (key : Key) (pressed : Bool) : ModifierTracker :=
  if !tracked.contains key then t
  else if !pressed then { t with held := t.held.filter (· ≠ key) }
  else if t.held.contains key then t
  else { held := key :: t.held, locks := t.locks.toggle key.lockBit }

/-- The mask and the tracker after a transition of a key. -/
def onKey (t : ModifierTracker) (key : Key) (pressed : Bool) : Modifier × ModifierTracker :=
  let t := t.step key pressed
  (t.current, t)

end ModifierTracker

end Keystroke
