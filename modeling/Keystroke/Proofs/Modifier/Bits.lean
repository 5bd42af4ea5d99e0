import Keystroke.Key.Modifier

/-!
# The bits of a mask

A mask is known by its bits, and the operations on masks by what they do to a single bit.

## Main statements

- `ext_bit`: masks with the same bits are equal.
- `contains_iff_bit`: a mask contains another one if it has all bits of it.
- `bit_modifierBit`: the keys that hold the modifier of a bit.
- `mem_sides_iff`: the keys on both sides are those with the same modifier.
-/

namespace Keystroke

namespace Modifier

/-- Whether the bit with the given number is set. -/
def bit (m : Modifier) (i : Nat) : Bool := m.bits.toBitVec.getLsbD i

variable (a b : Modifier) (i : Nat)

theorem ext_bit {a b : Modifier} (h : ∀ i < 8, a.bit i = b.bit i) : a = b := by
  have hbits : a.bits.toBitVec = b.bits.toBitVec := BitVec.eq_of_getLsbD_eq h
  cases a
  cases b
  exact congrArg Modifier.mk (UInt8.toBitVec_inj.1 hbits)

@[simp] theorem bit_empty : (∅ : Modifier).bit i = false := by
  simp [bit]

@[simp] theorem bit_union : (a ∪ b).bit i = (a.bit i || b.bit i) := by
  simp [bit]

@[simp] theorem bit_inter : (a ∩ b).bit i = (a.bit i && b.bit i) := by
  simp [bit]

theorem bit_of_le (h : 8 ≤ i) : a.bit i = false := BitVec.getLsbD_of_ge _ _ h

@[simp] theorem bit_sdiff : (a \ b).bit i = (a.bit i && !b.bit i) := by
  rcases Nat.lt_or_ge i 8 with hlt | hge
  · simp [bit, hlt]
  · simp [bit_of_le _ _ hge]

@[simp] theorem bit_toggle : (a.toggle b).bit i = (a.bit i ^^ b.bit i) := by
  simp [bit, toggle]

@[simp] theorem bit_chord : chord.bit i = decide (i < 4) := by
  rcases Nat.lt_or_ge i 8 with hlt | hge
  · revert i
    decide
  · rw [bit_of_le _ _ hge]
    simp only [Bool.false_eq, decide_eq_false_iff_not]
    omega

/-- A mask contains another one if it has all bits of it. -/
theorem contains_iff_bit {m part : Modifier} :
    m.contains part = true ↔ ∀ i, part.bit i = true → m.bit i = true := by
  rw [contains_iff]
  constructor
  · intro h i hi
    rw [← h, bit_inter] at hi
    exact (Bool.and_eq_true_iff.1 hi).1
  · intro h
    apply ext_bit
    intro i _
    rw [bit_inter]
    cases hi : part.bit i with
    | false => exact Bool.and_false _
    | true => rw [h i hi, Bool.and_true]

/-- A mask contains a modifier with a single bit if it has that bit. -/
theorem contains_eq_bit (m : Modifier) {part : Modifier} {j : Nat} (hj : j < 8)
    (h : ∀ i < 8, part.bit i = decide (i = j)) : m.contains part = m.bit j := by
  rw [Bool.eq_iff_iff, contains_iff_bit]
  constructor
  · intro hall
    exact hall j (by rw [h j hj, decide_eq_true rfl])
  · intro hbit i hi
    have hlt : i < 8 := by
      refine Nat.lt_of_not_le fun hge => ?_
      rw [bit_of_le _ _ hge] at hi
      cases hi
    rw [h i hlt, decide_eq_true_eq] at hi
    rw [hi, hbit]

theorem isEmpty_iff_bit {m : Modifier} : m.isEmpty = true ↔ ∀ i, m.bit i = false := by
  rw [isEmpty, beq_iff_eq]
  constructor
  · intro h i
    rw [bit, h]
    exact bit_empty i
  · intro h
    exact congrArg bits (ext_bit fun i _ => (h i).trans (bit_empty i).symm)

end Modifier

namespace Key

/-- The keys on both sides that hold the modifier of a bit, the left one first. -/
def sides : Nat → List Key
  | 0 => [.shiftLeft, .shiftRight]
  | 1 => [.ctrlLeft, .ctrlRight]
  | 2 => [.altLeft, .altRight]
  | 3 => [.superLeft, .superRight]
  | _ => []

theorem bit_modifierBit (key : Key) (i : Nat) :
    key.modifierBit.bit i = (sides i).contains key := by
  rcases Nat.lt_or_ge i 8 with hlt | hge
  · revert i
    cases key <;> decide
  · -- beyond the last bit nothing is set, and `sides` has no keys
    obtain ⟨n, rfl⟩ := Nat.exists_eq_add_of_le' hge
    rw [Modifier.bit_of_le _ _ hge]
    rfl

/-- The keys of the chord modifiers. -/
def chordKeys : List Key := (List.range 4).flatMap sides

theorem lt_of_mem_sides {key : Key} {i : Nat} (h : key ∈ sides i) : i < 4 := by
  unfold sides at h
  split at h
  · decide
  · decide
  · decide
  · decide
  · cases h

theorem mem_chordKeys {key : Key} : key ∈ chordKeys ↔ ∃ i, key ∈ sides i := by
  unfold chordKeys
  rw [List.mem_flatMap]
  constructor
  · rintro ⟨i, -, h⟩
    exact ⟨i, h⟩
  · rintro ⟨i, h⟩
    exact ⟨i, List.mem_range.2 (lt_of_mem_sides h), h⟩

/-- A key holds at most one modifier. -/
theorem index_eq_of_mem_sides {key : Key} {i j : Nat} (h : key ∈ sides i) (h' : key ∈ sides j) :
    i = j := by
  have hunique : ∀ i < 4, ∀ j < 4, ∀ key ∈ sides i, key ∈ sides j → i = j := by decide
  exact hunique i (lt_of_mem_sides h) j (lt_of_mem_sides h') key h h'

/-- The keys on both sides are those with the same modifier. -/
theorem mem_sides_iff {key : Key} {i : Nat} (h : key ∈ sides i) (other : Key) :
    other ∈ sides i ↔ other.modifierBit = key.modifierBit := by
  constructor
  · intro hother
    have hsame : ∀ i < 4, ∀ key ∈ sides i, ∀ other ∈ sides i,
        other.modifierBit = key.modifierBit := by
      decide
    exact hsame i (lt_of_mem_sides h) key h other hother
  · intro hbits
    have hkey : key.modifierBit.bit i = true := by
      rw [bit_modifierBit, List.contains_iff_mem]
      exact h
    rw [← hbits, bit_modifierBit, List.contains_iff_mem] at hkey
    exact hkey

end Key

end Keystroke
