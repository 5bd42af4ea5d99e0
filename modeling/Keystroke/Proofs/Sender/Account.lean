import Keystroke.Proofs.Modifier.Tracker

/-!
# The account of held modifiers

A sender keeps account of modifiers by their bits, and whoever watches the keys keeps record of the
keys themselves. Both come to the same as long as no key on the right side is used: with both keys
of a modifier down, the account forgets the modifier when the first of them comes up, and the record
does so only when the second one does.

## Main statements

- `current_inter_chord_eq`: the chord modifiers of a tracker are those of the account.
-/

namespace Keystroke

/-- The account of held modifiers after several transitions were asked for. -/
def Modifier.account (m : Modifier) (moves : List (Key × Bool)) : Modifier :=
  moves.foldl (fun m (key, down) => if down then m ∪ key.modifierBit else m \ key.modifierBit) m

theorem Modifier.account_append (m : Modifier) (moves moves' : List (Key × Bool)) :
    m.account (moves ++ moves') = (m.account moves).account moves' :=
  List.foldl_append

theorem Modifier.account_unknown (m : Modifier) (down : Bool) :
    m.account [(.unknown, down)] = m := by
  apply Modifier.ext_bit
  intro i _
  cases down <;> simp [account, Key.modifierBit]

namespace Key

/-- The keys of the chord modifiers on the right side. -/
def rightSide : List Key := [.shiftRight, .ctrlRight, .altRight, .superRight]

theorem eq_of_mem_sides {key key' : Key} {i : Nat} (h : key ∈ sides i) (h' : key' ∈ sides i)
    (hright : key ∉ rightSide) (hright' : key' ∉ rightSide) : key = key' := by
  unfold sides at h h'
  split at h <;> simp only [List.mem_cons, List.not_mem_nil, or_false] at h h'
  all_goals
    rcases h with rfl | rfl <;> rcases h' with rfl | rfl <;>
      first
        | rfl
        | exact absurd (by decide) hright
        | exact absurd (by decide) hright'

theorem mem_tracked_of_mem_rightSide {key : Key} (h : key ∈ rightSide) :
    key ∈ ModifierTracker.tracked := by
  simp only [rightSide, List.mem_cons, List.not_mem_nil, or_false] at h
  rcases h with rfl | rfl | rfl | rfl <;> decide

end Key

namespace ModifierTracker

open Key (sides rightSide)

/-- The account says which modifiers the keys of the tracker hold, none of which is on the right
side. -/
structure Agrees (t : ModifierTracker) (m : Modifier) : Prop where
  left : ∀ key ∈ rightSide, key ∉ t.held
  bits : ∀ i, m.bit i = (sides i).any (t.held.contains ·)

variable {t : ModifierTracker} {m : Modifier}

theorem Agrees.left_step (h : Agrees t m) {key : Key} (hkey : key ∉ rightSide) (down : Bool) :
    ∀ key' ∈ rightSide, key' ∉ (t.step key down).held := by
  intro key' hright
  have hne : key' ≠ key := by
    rintro rfl
    exact hkey hright
  rw [mem_held_step t (Key.mem_tracked_of_mem_rightSide hright), if_neg hne]
  exact h.left key' hright

theorem Agrees.press (h : Agrees t m) {key : Key} (hkey : key ∉ rightSide) :
    Agrees (t.step key true) (m ∪ key.modifierBit) := by
  refine ⟨h.left_step hkey true, fun i => ?_⟩
  rw [Modifier.bit_union, Key.bit_modifierBit, h.bits, Bool.eq_iff_iff]
  simp only [Bool.or_eq_true, List.any_eq_true, List.contains_iff_mem]
  constructor
  · -- whether the key was down before makes no difference
    rintro (⟨key', hside, hheld⟩ | hmem)
    · refine ⟨key', hside, ?_⟩
      rw [mem_held_step t (mem_tracked_of_mem_sides hside)]
      split
      · rfl
      · exact hheld
    · refine ⟨key, hmem, ?_⟩
      rw [mem_held_step t (mem_tracked_of_mem_sides hmem), if_pos rfl]
  · rintro ⟨key', hside, hheld⟩
    rw [mem_held_step t (mem_tracked_of_mem_sides hside)] at hheld
    split at hheld
    next heq => exact .inr (heq ▸ hside)
    next => exact .inl ⟨key', hside, hheld⟩

theorem Agrees.release (h : Agrees t m) {key : Key} (hkey : key ∉ rightSide) :
    Agrees (t.step key false) (m \ key.modifierBit) := by
  refine ⟨h.left_step hkey false, fun i => ?_⟩
  rw [Modifier.bit_sdiff, Key.bit_modifierBit, h.bits, Bool.eq_iff_iff]
  simp only [Bool.and_eq_true, Bool.not_eq_true', Bool.eq_false_iff, List.any_eq_true, ne_eq,
    List.contains_iff_mem]
  constructor
  · rintro ⟨⟨key', hside, hheld⟩, hmem⟩
    have hne : key' ≠ key := by
      rintro rfl
      exact hmem hside
    refine ⟨key', hside, ?_⟩
    rw [mem_held_step t (mem_tracked_of_mem_sides hside), if_neg hne]
    exact hheld
  · rintro ⟨key', hside, hheld⟩
    rw [mem_held_step t (mem_tracked_of_mem_sides hside)] at hheld
    split at hheld
    next => cases hheld
    next hne =>
      -- the released key would be the other key of the modifier, on the left side as well
      refine ⟨⟨key', hside, hheld⟩, fun hmem => hne ?_⟩
      exact Key.eq_of_mem_sides hside hmem (fun hright => h.left key' hright hheld) hkey

theorem Agrees.after (h : Agrees t m) {moves : List (Key × Bool)}
    (hmoves : ∀ move ∈ moves, move.1 ∉ rightSide) : Agrees (t.after moves) (m.account moves) := by
  induction moves generalizing t m with
  | nil => exact h
  | cons move moves ih =>
    obtain ⟨key, down⟩ := move
    have hkey := hmoves (key, down) List.mem_cons_self
    refine ih ?_ fun move hmove => hmoves move (List.mem_cons_of_mem _ hmove)
    cases down with
    | false => exact h.release hkey
    | true => exact h.press hkey

/-- Without keys of the right side, the chord modifiers of a tracker that began with no key down are
those of an account that began empty. -/
theorem current_inter_chord_eq (locks : Modifier) {moves : List (Key × Bool)}
    (hmoves : ∀ move ∈ moves, move.1 ∉ rightSide) :
    ((ofLocks locks).after moves).current ∩ .chord = Modifier.account ∅ moves := by
  have hstart : Agrees (ofLocks locks) ∅ :=
    ⟨fun key _ => List.not_mem_nil, fun i => by simp [ofLocks]⟩
  have hagrees := hstart.after hmoves
  apply Modifier.ext_bit
  intro i _
  rw [Modifier.bit_inter, bit_current, hagrees.bits, Modifier.bit_chord]
  rcases Nat.lt_or_ge i 4 with hlt | hge
  · -- locks have no chord bits, however they are toggled
    rw [bit_locks_after _ _ (bit_locks_of_lt hlt), bit_locks_ofLocks locks hlt]
    simp [hlt]
  · obtain ⟨n, rfl⟩ := Nat.exists_eq_add_of_le' hge
    simp [sides]

end ModifierTracker

end Keystroke
