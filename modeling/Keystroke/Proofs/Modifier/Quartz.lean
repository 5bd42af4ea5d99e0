import Keystroke.Modifier.Quartz
import Keystroke.Proofs.Modifier.Bits
import Mathlib.Data.Nat.Bitwise

/-!
# The flags of macOS, bit by bit

Each modifier but NumLock has one flag, which the two keys of a chord modifier share. The flags of
several keys are put together as sets of bits.

## Main statements

- `bit_ofQuartz_eq`: a modifier is among the modifiers of the flags if its flag is set.
- `testBit_toQuartz`: a flag is set for a mask if its modifier is in the mask.
- `ofQuartz_toQuartz`: the modifiers of the flags of a mask.
- `testBit_heldFlags`: a flag is set if one of the keys has it.
-/

namespace Keystroke

namespace Modifier

/-- The flag of a modifier, both as numbers of their bits: Shift, Ctrl, Alt, Super and CapsLock have
one, and NumLock has none. -/
def flag? : Nat → Option Nat
  | 0 => some 17
  | 1 => some 18
  | 2 => some 19
  | 3 => some 20
  | 4 => some 16
  | _ => none

/-- The flag of a chord modifier, as the number of its bit. -/
def flagBit (i : Nat) : Nat := 17 + i

theorem flag?_of_lt {i : Nat} (hi : i < 4) : flag? i = some (flagBit i) := by
  revert i
  decide

theorem and_flag_eq_iff (flags n : Nat) : flags &&& 2 ^ n = 2 ^ n ↔ flags.testBit n = true := by
  rw [Nat.and_two_pow]
  cases flags.testBit n with
  | false => simp [(Nat.two_pow_pos n).ne]
  | true => simp

/-- A modifier is in the mask of the flags if it has a flag and that is set. -/
theorem bit_ofQuartz_eq (flags i : Nat) :
    (ofQuartz flags).bit i = (flag? i).any flags.testBit := by
  have hshift : flags &&& 0x20000 = 0x20000 ↔ flags.testBit 17 = true := and_flag_eq_iff flags 17
  have hctrl : flags &&& 0x40000 = 0x40000 ↔ flags.testBit 18 = true := and_flag_eq_iff flags 18
  have halt : flags &&& 0x80000 = 0x80000 ↔ flags.testBit 19 = true := and_flag_eq_iff flags 19
  have hsuper : flags &&& 0x100000 = 0x100000 ↔ flags.testBit 20 = true :=
    and_flag_eq_iff flags 20
  have hcaps : flags &&& 0x10000 = 0x10000 ↔ flags.testBit 16 = true := and_flag_eq_iff flags 16
  -- what the flags say is now five answers, and the mask follows from these
  have hmask : ∀ b₁₆ b₁₇ b₁₈ b₁₉ b₂₀ : Bool, ∀ i < 8,
      (let m : Modifier := if b₁₇ then ∅ ∪ shift else ∅
       let m := if b₁₈ then m ∪ ctrl else m
       let m := if b₁₉ then m ∪ alt else m
       let m := if b₂₀ then m ∪ super else m
       if b₁₆ then m ∪ capsLock else m).bit i =
        (flag? i).any fun n => [b₁₆, b₁₇, b₁₈, b₁₉, b₂₀].getD (n - 16) false := by
    decide
  rcases Nat.lt_or_ge i 8 with hlt | hge
  · simp only [ofQuartz, quartzFlags, List.foldl_cons, List.foldl_nil, hshift, hctrl, halt, hsuper,
      hcaps]
    refine (hmask _ _ _ _ _ i hlt).trans ?_
    unfold flag?
    split <;> rfl
  · obtain ⟨n, rfl⟩ := Nat.exists_eq_add_of_le' hge
    rw [bit_of_le _ _ hge]
    rfl

theorem bit_ofQuartz (flags : Nat) {i : Nat} (hi : i < 4) :
    (ofQuartz flags).bit i = flags.testBit (flagBit i) := by
  rw [bit_ofQuartz_eq, flag?_of_lt hi, Option.any_some]

theorem testBit_foldl (m : Modifier) (n : Nat) (entries : List (Modifier × Nat)) (flags : Nat) :
    (entries.foldl (fun flags entry =>
      if m.contains entry.1 then flags ||| entry.2 else flags) flags).testBit n =
      (flags.testBit n || entries.any fun entry => m.contains entry.1 && entry.2.testBit n) := by
  induction entries generalizing flags with
  | nil => simp
  | cons entry entries ih =>
    rw [List.foldl_cons, ih, List.any_cons, ← Bool.or_assoc]
    cases m.contains entry.1 <;> simp

/-- The flags of a mask are those of its modifiers. -/
theorem testBit_toQuartz (m : Modifier) (n : Nat) :
    m.toQuartz.testBit n = true ↔ ∃ i, flag? i = some n ∧ m.bit i = true := by
  have hcontains : m.contains shift = m.bit 0 ∧ m.contains ctrl = m.bit 1 ∧
      m.contains alt = m.bit 2 ∧ m.contains super = m.bit 3 ∧ m.contains capsLock = m.bit 4 :=
    ⟨m.contains_eq_bit (by decide) (by decide), m.contains_eq_bit (by decide) (by decide),
      m.contains_eq_bit (by decide) (by decide), m.contains_eq_bit (by decide) (by decide),
      m.contains_eq_bit (by decide) (by decide)⟩
  have hpow : ∀ k, (2 ^ k).testBit n = decide (k = n) := fun k => Nat.testBit_two_pow
  have hflag : Nat.testBit 0x20000 n = decide (17 = n) ∧ Nat.testBit 0x40000 n = decide (18 = n) ∧
      Nat.testBit 0x80000 n = decide (19 = n) ∧ Nat.testBit 0x100000 n = decide (20 = n) ∧
      Nat.testBit 0x10000 n = decide (16 = n) :=
    ⟨hpow 17, hpow 18, hpow 19, hpow 20, hpow 16⟩
  unfold toQuartz
  rw [testBit_foldl]
  simp only [quartzFlags, List.any_cons, List.any_nil, hcontains, hflag, Nat.zero_testBit,
    Bool.false_or, Bool.or_false, Bool.or_eq_true, Bool.and_eq_true, decide_eq_true_eq]
  constructor
  · rintro (⟨hm, rfl⟩ | ⟨hm, rfl⟩ | ⟨hm, rfl⟩ | ⟨hm, rfl⟩ | ⟨hm, rfl⟩)
    · exact ⟨0, rfl, hm⟩
    · exact ⟨1, rfl, hm⟩
    · exact ⟨2, rfl, hm⟩
    · exact ⟨3, rfl, hm⟩
    · exact ⟨4, rfl, hm⟩
  · rintro ⟨i, hi, hm⟩
    unfold flag? at hi
    split at hi <;> cases hi
    · exact .inl ⟨hm, rfl⟩
    · exact .inr (.inl ⟨hm, rfl⟩)
    · exact .inr (.inr (.inl ⟨hm, rfl⟩))
    · exact .inr (.inr (.inr (.inl ⟨hm, rfl⟩)))
    · exact .inr (.inr (.inr (.inr ⟨hm, rfl⟩)))

/-- The flags of a mask lead back to its defined modifiers but NumLock, which has no flag. -/
theorem ofQuartz_toQuartz (m : Modifier) : ofQuartz m.toQuartz = (m ∩ .defined) \ .numLock := by
  -- a mask is a byte, so both sides are computed for each of them
  have hall : ∀ n < 256, ofQuartz (toQuartz ⟨UInt8.ofNat n⟩) =
      (⟨UInt8.ofNat n⟩ ∩ .defined) \ .numLock := by
    decide +kernel
  have hm := hall m.bits.toNat m.bits.toNat_lt
  rwa [UInt8.ofNat_toNat] at hm

end Modifier

namespace Key

theorem testBit_toQuartz (key : Key) {i : Nat} (hi : i < 4) :
    key.modifierBit.toQuartz.testBit (Modifier.flagBit i) = (sides i).contains key := by
  revert i
  cases key <;> decide

/-- The flags while keys are held: the union of the flags of all of them. -/
def heldFlags (keys : List Key) : Nat :=
  keys.foldl (fun flags key => flags ||| key.modifierBit.toQuartz) 0

theorem testBit_heldFlags (keys : List Key) {i : Nat} (hi : i < 4) :
    (heldFlags keys).testBit (Modifier.flagBit i) = keys.any ((sides i).contains ·) := by
  have hfold : ∀ flags : Nat,
      (keys.foldl (fun flags key => flags ||| key.modifierBit.toQuartz) flags).testBit
        (Modifier.flagBit i) =
      (flags.testBit (Modifier.flagBit i) || keys.any ((sides i).contains ·)) := by
    induction keys with
    | nil => simp
    | cons key keys ih =>
      intro flags
      rw [List.foldl_cons, ih, Nat.testBit_or, testBit_toQuartz key hi, List.any_cons,
        Bool.or_assoc]
  rw [heldFlags, hfold, Nat.zero_testBit, Bool.false_or]

end Key

end Keystroke
