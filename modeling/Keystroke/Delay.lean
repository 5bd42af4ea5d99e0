/-!
# Key delays

The pause between two transitions that a sender makes, in microseconds.
-/

namespace Keystroke

/-- A pause in microseconds; zero is no pause at all. -/
structure KeyDelay where
  micros : UInt32
  deriving DecidableEq, Repr

namespace KeyDelay

def zero : KeyDelay := ⟨0⟩

def standard : KeyDelay := ⟨1000⟩

instance : Inhabited KeyDelay := ⟨standard⟩

def nanos (d : KeyDelay) : Nat := d.micros.toNat * 1000

def isZero (d : KeyDelay) : Bool := d.micros == 0

/-- The sleeps that the pause asks for, in microseconds: none if it is zero. -/
def sleeps (d : KeyDelay) : List Nat := if d.isZero then [] else [d.micros.toNat]

end KeyDelay

end Keystroke
