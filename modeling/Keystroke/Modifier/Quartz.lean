import Keystroke.Modifier.Basic

/-!
# Modifier flags of macOS

The events of macOS carry a flag for each modifier but NumLock, which has none. Other flags say
nothing about modifiers.
-/

namespace Keystroke.Modifier

def quartzFlags : List (Modifier × Nat) :=
  [(shift, 0x20000), (ctrl, 0x40000), (alt, 0x80000), (super, 0x100000), (capsLock, 0x10000)]

def toQuartz (m : Modifier) : Nat :=
  quartzFlags.foldl (fun flags entry => if m.contains entry.1 then flags ||| entry.2 else flags) 0

def ofQuartz (flags : Nat) : Modifier :=
  quartzFlags.foldl (fun m entry => if flags &&& entry.2 = entry.2 then m ∪ entry.1 else m) ∅

end Keystroke.Modifier
