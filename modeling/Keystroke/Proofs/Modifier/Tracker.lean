import Keystroke.Event
import Keystroke.Modifier.Tracker
import Keystroke.Proofs.Modifier.Bits

/-!
# Events of a tracker

What a modifier tracker makes of several key transitions in a row, and how its mask follows from the
keys that are down.

## Main statements

- `getElem?_events`: each event has the mask that holds after the transitions up to it.
- `mem_held_step`: which keys are down after a transition.
- `bit_current`: a chord modifier holds while one of its two keys is down.
- `bit_current_after`: the chord modifiers of the mask follow from the last transitions of the keys.
- `current_after_inter_defined`: a new tracker sets defined bits only.
-/

namespace Keystroke

/-- Whether a key is down after several transitions, with all keys up before: whether the last of
its own transitions was a press. -/
def Key.isDownAfter (key : Key) (moves : List (Key × Bool)) : Bool :=
  moves.foldl (fun down move => if move.1 = key then move.2 else down) false

theorem Key.isDownAfter_concat (key : Key) (moves : List (Key × Bool)) (move : Key × Bool) :
    key.isDownAfter (moves ++ [move]) = if move.1 = key then move.2 else key.isDownAfter moves := by
  simp [isDownAfter]

/-- The last of the first transitions decides whether its key is down. -/
theorem Key.isDownAfter_take {moves : List (Key × Bool)} {i : Nat} {key : Key} {pressed : Bool}
    (h : moves[i]? = some (key, pressed)) : key.isDownAfter (moves.take (i + 1)) = pressed := by
  rw [List.take_add_one, h]
  simp [isDownAfter_concat]

/-! ## Several transitions -/

namespace ModifierTracker

/-- The tracker after several transitions. -/
def after (t : ModifierTracker) (moves : List (Key × Bool)) : ModifierTracker :=
  moves.foldl (fun t move => t.step move.1 move.2) t

/-- The events of several transitions, each with the mask that holds after it. -/
def events (t : ModifierTracker) : List (Key × Bool) → List KeyEvent
  | [] => []
  | (key, pressed) :: moves =>
    .of key (t.step key pressed).current pressed :: (t.step key pressed).events moves

variable (t : ModifierTracker)

theorem after_cons (key : Key) (pressed : Bool) (moves : List (Key × Bool)) :
    t.after ((key, pressed) :: moves) = (t.step key pressed).after moves := rfl

theorem after_append (moves moves' : List (Key × Bool)) :
    t.after (moves ++ moves') = (t.after moves).after moves' :=
  List.foldl_append

theorem events_append (moves moves' : List (Key × Bool)) :
    t.events (moves ++ moves') = t.events moves ++ (t.after moves).events moves' := by
  induction moves generalizing t with
  | nil => rfl
  | cons move moves ih =>
    obtain ⟨key, pressed⟩ := move
    simp only [List.cons_append, events, ih, after_cons]

theorem map_events (moves : List (Key × Bool)) :
    (t.events moves).map (fun e => (e.key, e.pressed)) = moves := by
  induction moves generalizing t with
  | nil => rfl
  | cons move moves ih =>
    obtain ⟨key, pressed⟩ := move
    simp only [events, List.map_cons, ih, KeyEvent.of]

theorem getElem?_events {moves : List (Key × Bool)} {i : Nat} {e : KeyEvent}
    (h : (t.events moves)[i]? = some e) :
    e.modifiers = (t.after (moves.take (i + 1))).current := by
  induction moves generalizing t i with
  | nil => simp [events] at h
  | cons move moves ih =>
    obtain ⟨key, pressed⟩ := move
    cases i with
    | zero =>
      simp only [events, List.getElem?_cons_zero, Option.some.injEq] at h
      subst h
      rfl
    | succ i =>
      simp only [events, List.getElem?_cons_succ] at h
      exact ih (t.step key pressed) h

/-! ## Keys that are down -/

theorem mem_tracked_of_mem_sides {key : Key} {i : Nat} (h : key ∈ Key.sides i) :
    key ∈ tracked := by
  unfold Key.sides at h
  split at h <;> simp only [List.mem_cons, List.not_mem_nil, or_false] at h
  all_goals rcases h with rfl | rfl <;> decide

/-- Which of the tracked keys are down after a transition. -/
theorem mem_held_step {key : Key} (h : key ∈ tracked) (moved : Key) (pressed : Bool) :
    key ∈ (t.step moved pressed).held ↔ if key = moved then pressed = true else key ∈ t.held := by
  by_cases hkey : key = moved
  · -- a press of a key that is down, or a release of one that is not, changes nothing
    subst hkey
    unfold step
    cases pressed <;> by_cases hheld : key ∈ t.held <;> simp [h, hheld]
  · unfold step
    by_cases htracked : moved ∈ tracked <;> cases pressed <;> by_cases hheld : moved ∈ t.held <;>
      simp [htracked, hheld, hkey]

theorem bit_foldl_union (keys : List Key) (m : Modifier) (i : Nat) :
    (keys.foldl (fun m key => m ∪ key.modifierBit) m).bit i =
      (m.bit i || keys.any ((Key.sides i).contains ·)) := by
  induction keys generalizing m with
  | nil => simp
  | cons key keys ih =>
    simp only [List.foldl_cons, ih, Modifier.bit_union, Key.bit_modifierBit, List.any_cons,
      Bool.or_assoc]

/-- A bit of the mask is set while one of its keys is down, or while it is a lock that is on. -/
theorem bit_current (i : Nat) :
    t.current.bit i = ((Key.sides i).any (t.held.contains ·) || t.locks.bit i) := by
  simp only [current, Modifier.bit_union, bit_foldl_union, Modifier.bit_empty, Bool.false_or]
  congr 1
  rw [Bool.eq_iff_iff]
  simp only [List.any_eq_true, List.mem_filter, List.contains_iff_mem]
  constructor
  · rintro ⟨key, ⟨-, hheld⟩, hside⟩
    exact ⟨key, hside, hheld⟩
  · rintro ⟨key, hside, hheld⟩
    exact ⟨key, ⟨mem_tracked_of_mem_sides hside, hheld⟩, hside⟩

theorem mem_held_after {key : Key} (h : key ∈ tracked) (moves : List (Key × Bool)) :
    key ∈ (t.after moves).held ↔
      moves.foldl (fun down move => if move.1 = key then move.2 else down)
        (decide (key ∈ t.held)) = true := by
  induction moves generalizing t with
  | nil => simp [after]
  | cons move moves ih =>
    obtain ⟨moved, pressed⟩ := move
    have hstep : decide (key ∈ (t.step moved pressed).held) =
        if moved = key then pressed else decide (key ∈ t.held) := by
      rw [Bool.eq_iff_iff, decide_eq_true_eq, mem_held_step t h]
      by_cases hkey : moved = key
      · simp [hkey]
      · have hne : key ≠ moved := fun heq => hkey heq.symm
        simp [hkey, hne]
    rw [after_cons, ih, hstep]
    rfl

/-! ## Locks -/

theorem bit_locks_step (t : ModifierTracker) (key : Key) (down : Bool) {i : Nat}
    (hi : Modifier.locks.bit i = false) :
    (t.step key down).locks.bit i = t.locks.bit i := by
  have hlock : key.lockBit.bit i = false := by
    have hmask : key.lockBit ∩ .locks = key.lockBit := by
      cases key <;> rfl
    rw [← hmask, Modifier.bit_inter, hi, Bool.and_false]
  unfold step
  split
  · rfl
  split
  · rfl
  split
  · rfl
  · simp [hlock]

/-- The tracker sets no bits in its locks other than those of the locks. -/
theorem bit_locks_after (t : ModifierTracker) (moves : List (Key × Bool)) {i : Nat}
    (hi : Modifier.locks.bit i = false) : (t.after moves).locks.bit i = t.locks.bit i := by
  induction moves generalizing t with
  | nil => rfl
  | cons move moves ih =>
    obtain ⟨key, down⟩ := move
    rw [after_cons, ih, bit_locks_step t key down hi]

theorem bit_locks_of_lt {i : Nat} (hi : i < 4) : Modifier.locks.bit i = false := by
  revert i
  decide

theorem bit_locks_ofLocks (locks : Modifier) {i : Nat} (hi : i < 4) :
    (ofLocks locks).locks.bit i = false := by
  simp [ofLocks, bit_locks_of_lt hi]

/-- With all keys up at first, a chord modifier holds while one of its two keys is down. -/
theorem bit_current_after (locks : Modifier) (moves : List (Key × Bool)) {i : Nat} (hi : i < 4) :
    ((ofLocks locks).after moves).current.bit i = (Key.sides i).any (·.isDownAfter moves) := by
  rw [bit_current, bit_locks_after _ _ (bit_locks_of_lt hi), bit_locks_ofLocks _ hi, Bool.or_false,
    Bool.eq_iff_iff]
  simp only [List.any_eq_true, List.contains_iff_mem]
  have hheld : ∀ key ∈ Key.sides i,
      key ∈ ((ofLocks locks).after moves).held ↔ key.isDownAfter moves = true := by
    intro key hside
    exact mem_held_after _ (mem_tracked_of_mem_sides hside) moves
  constructor
  · rintro ⟨key, hside, hmem⟩
    exact ⟨key, hside, (hheld key hside).1 hmem⟩
  · rintro ⟨key, hside, hdown⟩
    exact ⟨key, hside, (hheld key hside).2 hdown⟩

/-- A new tracker sets defined bits only. -/
theorem current_after_inter_defined (moves : List (Key × Bool)) :
    (({} : ModifierTracker).after moves).current ∩ .defined =
      (({} : ModifierTracker).after moves).current := by
  apply Modifier.ext_bit
  intro i hi
  rw [Modifier.bit_inter]
  rcases Nat.lt_or_ge i 6 with hlt | hge
  · have hdefined : Modifier.defined.bit i = true := by
      revert i
      decide
    rw [hdefined, Bool.and_true]
  · -- the bit is neither that of a key on some side nor that of a lock
    have hlocks : Modifier.locks.bit i = false := by
      have hall : ∀ i < 8, 6 ≤ i → Modifier.locks.bit i = false := by decide
      exact hall i hi hge
    obtain ⟨n, rfl⟩ := Nat.exists_eq_add_of_le' hge
    rw [bit_current, bit_locks_after _ _ hlocks]
    simp [Key.sides]

end ModifierTracker

end Keystroke
