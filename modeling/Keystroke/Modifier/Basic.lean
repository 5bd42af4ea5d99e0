/-!
# Modifier masks

A modifier mask is a set of modifiers, held in a byte. Six bits are defined: the four *chord*
modifiers Shift, Ctrl, Alt and Super, and the two *locks* CapsLock and NumLock. The left and the
right key of a modifier share its bit. A mask may carry undefined bits, which the set operations
keep; only the complement drops them.
-/

namespace Keystroke

/-- A set of modifiers, one bit for each. -/
structure Modifier where
  bits : UInt8
  deriving DecidableEq, Repr, Inhabited

namespace Modifier

protected def none : Modifier := ⟨0x00⟩
def shift : Modifier := ⟨0x01⟩
def ctrl : Modifier := ⟨0x02⟩
def alt : Modifier := ⟨0x04⟩
def super : Modifier := ⟨0x08⟩
def capsLock : Modifier := ⟨0x10⟩
def numLock : Modifier := ⟨0x20⟩

/-- The modifiers that a sender can hold. -/
def chord : Modifier := ⟨0x0F⟩

/-- The modifiers that stay on after their key is up. -/
def locks : Modifier := ⟨0x30⟩

def defined : Modifier := ⟨0x3F⟩

instance : EmptyCollection Modifier := ⟨Modifier.none⟩
instance : Union Modifier := ⟨fun a b => ⟨a.bits ||| b.bits⟩⟩
instance : Inter Modifier := ⟨fun a b => ⟨a.bits &&& b.bits⟩⟩
instance : SDiff Modifier := ⟨fun a b => ⟨a.bits &&& ~~~b.bits⟩⟩
instance : Complement Modifier := ⟨fun a => ⟨~~~a.bits &&& defined.bits⟩⟩

/-- The mask whose bits are the defined ones among the given. -/
def ofBits (bits : UInt8) : Modifier := ⟨bits &&& defined.bits⟩

/-- Whether no bit is set, defined or not. -/
def isEmpty (m : Modifier) : Bool := m.bits == 0

/-- Whether every bit of `part` is set in `m`. -/
def contains (m part : Modifier) : Bool := m.bits &&& part.bits == part.bits

/-- The bits that are set in exactly one of the masks. -/
def toggle (m part : Modifier) : Modifier := ⟨m.bits ^^^ part.bits⟩

/-- The chord modifiers, in the order in which they are pressed and released. -/
def chordOrder : List Modifier := [shift, ctrl, alt, super]

/-- Each chord modifier of the mask by itself. -/
def chordBits (m : Modifier) : List Modifier := chordOrder.filter m.contains

/-- The modifiers by name, in the order in which a mask is written out. -/
def names : List (Modifier × String) :=
  [(shift, "Shift"), (ctrl, "Ctrl"), (alt, "Alt"), (super, "Super"), (capsLock, "CapsLock"),
   (numLock, "NumLock")]

/-- The names of the modifiers in the mask between plus signs; the empty mask is `None`. -/
def toText (m : Modifier) : String :=
  if m.isEmpty then "None"
  else "+".intercalate ((names.filter fun entry => m.contains entry.1).map (·.2))

instance : ToString Modifier := ⟨toText⟩

/-! ## The operations on bits -/

@[simp] theorem bits_union (a b : Modifier) : (a ∪ b).bits = a.bits ||| b.bits := rfl

@[simp] theorem bits_inter (a b : Modifier) : (a ∩ b).bits = a.bits &&& b.bits := rfl

@[simp] theorem bits_sdiff (a b : Modifier) : (a \ b).bits = a.bits &&& ~~~b.bits := rfl

@[simp] theorem bits_compl (a : Modifier) : (~~~a).bits = ~~~a.bits &&& defined.bits := rfl

@[simp] theorem bits_empty : (∅ : Modifier).bits = 0 := rfl

theorem contains_iff {m part : Modifier} : m.contains part = true ↔ m ∩ part = part := by
  cases m; cases part; simp [contains, Inter.inter]

end Modifier

end Keystroke
