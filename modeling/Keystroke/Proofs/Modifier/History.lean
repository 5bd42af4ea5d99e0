import Keystroke.Proofs.Modifier.Tracker
import Mathlib.Data.List.Induction

/-!
# The mask as a function of the past

A tracker keeps little of what it sees: which of ten keys are down, and which locks are on. Its mask
is still what a reader of the whole past would say. A chord modifier holds if the latest transition
of one of its two keys was a press; a lock is on or off by its state at the start and the number of
the presses of its key that did not follow another press.

So the mask depends on each key by itself, and on most keys not at all.

## Main statements

- `freshPresses_concat`: when one more transition counts.
- `bit_locks_of_turns`: the locks by the presses of their keys.
- `Shows.unique`: what the mask depends on.
- `mask_of_history`: the mask that the tracker gives for a transition, and what can be done to the
  past without a change of the mask.
-/

namespace Keystroke

/-! ## The transitions of one key -/

/-- Whether the key went down, for each of its own transitions. -/
def Key.turns (key : Key) (moves : List (Key × Bool)) : List Bool :=
  (moves.filter (·.1 = key)).map (·.2)

theorem Key.turns_append (key : Key) (moves moves' : List (Key × Bool)) :
    key.turns (moves ++ moves') = key.turns moves ++ key.turns moves' := by
  simp [turns]

theorem Key.turns_cons (key : Key) (move : Key × Bool) (moves : List (Key × Bool)) :
    key.turns (move :: moves) =
      if move.1 = key then move.2 :: key.turns moves else key.turns moves := by
  by_cases h : move.1 = key <;> simp [turns, h]

theorem Key.turns_concat (key : Key) (moves : List (Key × Bool)) (move : Key × Bool) :
    key.turns (moves ++ [move]) =
      if move.1 = key then key.turns moves ++ [move.2] else key.turns moves := by
  rw [turns_append, turns_cons]
  split
  · rfl
  · exact List.append_nil _

/-- A key is down if the latest of its own transitions was a press. -/
theorem Key.isDownAfter_eq (key : Key) (moves : List (Key × Bool)) :
    key.isDownAfter moves = (key.turns moves).getLast?.getD false := by
  induction moves using List.reverseRecOn with
  | nil => rfl
  | append_singleton moves move ih =>
    rw [isDownAfter_concat, turns_concat, ih]
    split
    · simp
    · rfl

theorem Key.isDownAfter_iff (key : Key) (moves : List (Key × Bool)) :
    key.isDownAfter moves = true ↔ (key.turns moves).getLast? = some true := by
  rw [isDownAfter_eq]
  cases (key.turns moves).getLast? <;> simp

/-- The number of the presses that do not follow another press. -/
def freshPresses (turns : List Bool) : Nat := ((false :: turns).zip turns).count (false, true)

theorem zip_concat (before : Bool) (turns : List Bool) (pressed : Bool) :
    (before :: (turns ++ [pressed])).zip (turns ++ [pressed]) =
      (before :: turns).zip turns ++ [(turns.getLast?.getD before, pressed)] := by
  induction turns generalizing before with
  | nil => rfl
  | cons turn turns ih =>
    have hlast : (turn :: turns).getLast?.getD before = turns.getLast?.getD turn := by
      rw [List.getLast?_cons, Option.getD_some]
    rw [List.cons_append, List.zip_cons_cons, ih, List.zip_cons_cons, hlast, List.cons_append]

/-- One more transition counts if it is a press and the one before it was not. -/
theorem freshPresses_concat (turns : List Bool) (pressed : Bool) :
    freshPresses (turns ++ [pressed]) =
      freshPresses turns + if pressed && !turns.getLast?.getD false then 1 else 0 := by
  unfold freshPresses
  rw [zip_concat, List.count_append]
  cases pressed <;> cases turns.getLast?.getD false <;> rfl

/-- A transition that is made once more does not count. -/
theorem freshPresses_again (past : List Bool) (pressed : Bool) (future : List Bool) :
    freshPresses (past ++ pressed :: pressed :: future) =
      freshPresses (past ++ pressed :: future) := by
  induction future using List.reverseRecOn with
  | nil =>
    rw [show past ++ [pressed, pressed] = past ++ [pressed] ++ [pressed] by simp,
      freshPresses_concat]
    cases pressed <;> simp
  | append_singleton future last ih =>
    have hlast : (past ++ pressed :: pressed :: future).getLast? =
        (past ++ pressed :: future).getLast? := by
      simp [List.getLast?_append, List.getLast?_cons]
    have hsplit : ∀ turns : List Bool,
        past ++ turns ++ [last] = past ++ (turns ++ [last]) := by simp
    have h := hsplit (pressed :: pressed :: future)
    have h' := hsplit (pressed :: future)
    simp only [List.cons_append] at h h'
    rw [← h, ← h', freshPresses_concat, freshPresses_concat, ih, hlast]

example : freshPresses [true, true, false, true, false, false, true] = 3 := by decide

/-! ## Locks -/

/-- The key of the lock that a bit stands for. -/
def Key.locking : Nat → List Key
  | 4 => [.capsLock]
  | 5 => [.numLock]
  | _ => []

theorem Key.bit_lockBit (key : Key) (i : Nat) : key.lockBit.bit i = (locking i).contains key := by
  rcases Nat.lt_or_ge i 8 with hlt | hge
  · revert i
    cases key <;> decide
  · obtain ⟨n, rfl⟩ := Nat.exists_eq_add_of_le' hge
    rw [Modifier.bit_of_le _ _ hge]
    rfl

/-- There are two locks. -/
theorem Key.cases_of_mem_locking {lock : Key} {i : Nat} (h : lock ∈ locking i) :
    i = 4 ∧ lock = .capsLock ∨ i = 5 ∧ lock = .numLock := by
  unfold locking at h
  split at h
  · exact .inl ⟨rfl, List.mem_singleton.1 h⟩
  · exact .inr ⟨rfl, List.mem_singleton.1 h⟩
  · cases h

theorem Key.eq_of_mem_locking {lock : Key} {i : Nat} (h : lock ∈ locking i) :
    locking i = [lock] := by
  obtain ⟨rfl, rfl⟩ | ⟨rfl, rfl⟩ := cases_of_mem_locking h <;> rfl

theorem Key.sides_of_mem_locking {lock : Key} {i : Nat} (h : lock ∈ locking i) : sides i = [] := by
  obtain ⟨rfl, rfl⟩ | ⟨rfl, rfl⟩ := cases_of_mem_locking h <;> rfl

namespace ModifierTracker

theorem after_concat (t : ModifierTracker) (moves : List (Key × Bool)) (move : Key × Bool) :
    t.after (moves ++ [move]) = (t.after moves).step move.1 move.2 :=
  after_append t moves [move]

theorem mem_tracked_of_mem_locking {lock : Key} {i : Nat} (h : lock ∈ Key.locking i) :
    lock ∈ tracked := by
  obtain ⟨-, rfl⟩ | ⟨-, rfl⟩ := Key.cases_of_mem_locking h <;> decide

/-- A lock is toggled by its own key, when that goes down and is not down already. -/
theorem bit_locks_step_of_lock (t : ModifierTracker) (key : Key) (pressed : Bool) {lock : Key}
    {i : Nat} (hlock : lock ∈ Key.locking i) :
    (t.step key pressed).locks.bit i =
      (t.locks.bit i ^^ (decide (key = lock) && pressed && !decide (lock ∈ t.held))) := by
  have hbit : key.lockBit.bit i = decide (key = lock) := by
    rw [Key.bit_lockBit, Key.eq_of_mem_locking hlock]
    simp
  by_cases hkey : key = lock
  · subst hkey
    have htracked := mem_tracked_of_mem_locking hlock
    cases pressed <;> by_cases hheld : key ∈ t.held <;> simp [step, htracked, hheld, hbit]
  · by_cases htracked : key ∈ tracked <;> cases pressed <;> by_cases hheld : key ∈ t.held <;>
      simp [step, htracked, hheld, hbit, hkey]

theorem bit_current_of_lock (t : ModifierTracker) {lock : Key} {i : Nat}
    (hlock : lock ∈ Key.locking i) : t.current.bit i = t.locks.bit i := by
  rw [bit_current, Key.sides_of_mem_locking hlock, List.any_nil, Bool.false_or]

/-- A lock by its state at the start and the presses of its key. -/
theorem bit_locks_of_turns (start : Modifier) (moves : List (Key × Bool)) {lock : Key} {i : Nat}
    (hlock : lock ∈ Key.locking i) :
    ((ofLocks start).after moves).locks.bit i =
      (start.bit i ^^ decide (freshPresses (lock.turns moves) % 2 = 1)) := by
  induction moves using List.reverseRecOn with
  | nil =>
    have hbit : Modifier.locks.bit i = true := by
      obtain ⟨rfl, -⟩ | ⟨rfl, -⟩ := Key.cases_of_mem_locking hlock <;> rfl
    simp [after, ofLocks, hbit, Key.turns, freshPresses]
  | append_singleton moves move ih =>
    obtain ⟨key, pressed⟩ := move
    have hheld : decide (lock ∈ ((ofLocks start).after moves).held) =
        (lock.turns moves).getLast?.getD false := by
      rw [← Key.isDownAfter_eq, Bool.eq_iff_iff, decide_eq_true_eq,
        mem_held_after _ (mem_tracked_of_mem_locking hlock)]
      rfl
    rw [after_concat, bit_locks_step_of_lock _ _ _ hlock, ih, hheld, Key.turns_concat]
    by_cases hkey : key = lock
    · rw [if_pos hkey, freshPresses_concat]
      rcases Nat.mod_two_eq_zero_or_one (freshPresses (lock.turns moves)) with hn | hn <;>
        cases pressed <;> cases (lock.turns moves).getLast?.getD false <;>
        simp [hkey, Nat.add_mod, hn]
    · simp [hkey]

/-! ## The mask -/

/-- A mask tells of the past since the given locks were on and all keys were up. -/
structure Shows (start : Modifier) (moves : List (Key × Bool)) (mask : Modifier) : Prop where
  chord : ∀ i < 4, mask.bit i = true ↔ ∃ key ∈ Key.sides i, (key.turns moves).getLast? = some true
  locks : ∀ i, ∀ lock ∈ Key.locking i,
    mask.bit i = (start.bit i ^^ decide (freshPresses (lock.turns moves) % 2 = 1))
  defined : mask ∩ .defined = mask

/-- A bit is that of a chord modifier or of a lock, or undefined. -/
theorem lt_or_exists_locking (i : Nat) :
    i < 4 ∨ (∃ lock, lock ∈ Key.locking i) ∨ Modifier.defined.bit i = false := by
  rcases Nat.lt_or_ge i 8 with hlt | hge
  · have hall : ∀ i < 8, i < 4 ∨ (∃ lock ∈ tracked, lock ∈ Key.locking i) ∨
        Modifier.defined.bit i = false := by
      decide
    rcases hall i hlt with h | ⟨lock, -, h⟩ | h
    · exact .inl h
    · exact .inr (.inl ⟨lock, h⟩)
    · exact .inr (.inr h)
  · exact .inr (.inr (Modifier.bit_of_le _ _ hge))

/-- The mask depends on the latest transitions of the chord keys, and on how often the lock keys
were pressed anew. -/
theorem Shows.unique {start mask mask' : Modifier} {moves moves' : List (Key × Bool)}
    (h : Shows start moves mask) (h' : Shows start moves' mask')
    (hlast : ∀ key ∈ tracked, (key.turns moves).getLast? = (key.turns moves').getLast?)
    (hfresh : ∀ key ∈ tracked, freshPresses (key.turns moves) = freshPresses (key.turns moves')) :
    mask = mask' := by
  apply Modifier.ext_bit
  intro i _
  rcases lt_or_exists_locking i with hlt | ⟨lock, hlock⟩ | hundefined
  · rw [Bool.eq_iff_iff, h.chord i hlt, h'.chord i hlt]
    refine exists_congr fun key => and_congr_right fun hside => ?_
    rw [hlast key (mem_tracked_of_mem_sides hside)]
  · rw [h.locks i lock hlock, h'.locks i lock hlock,
      hfresh lock (mem_tracked_of_mem_locking hlock)]
  · rw [← h.defined, ← h'.defined, Modifier.bit_inter, Modifier.bit_inter, hundefined,
      Bool.and_false, Bool.and_false]

/-- The mask of a tracker tells of all that it has seen. -/
theorem shows_current (start : Modifier) (moves : List (Key × Bool)) :
    Shows start moves ((ofLocks start).after moves).current where
  chord i hi := by
    rw [bit_current_after start moves hi, List.any_eq_true]
    exact exists_congr fun key => and_congr_right fun _ => key.isDownAfter_iff moves
  locks i lock hlock := by
    rw [bit_current_of_lock _ hlock, bit_locks_of_turns start moves hlock]
  defined := by
    apply Modifier.ext_bit
    intro i _
    rw [Modifier.bit_inter]
    cases hdefined : Modifier.defined.bit i with
    | true => exact Bool.and_true _
    | false =>
      -- an undefined bit is that of no key, and the tracker takes no such bit from the start
      have hsides : Key.sides i = [] := by
        rcases Nat.lt_or_ge i 4 with hlt | hge
        · have hall : ∀ i < 4, Modifier.defined.bit i = true := by decide
          rw [hall i hlt] at hdefined
          cases hdefined
        · obtain ⟨n, rfl⟩ := Nat.exists_eq_add_of_le' hge
          rfl
      have hlocks : Modifier.locks.bit i = false := by
        have hmask : Modifier.locks = Modifier.locks ∩ .defined := by decide
        rw [hmask, Modifier.bit_inter, hdefined, Bool.and_false]
      have hstart : (ofLocks start).locks.bit i = false := by
        rw [ofLocks, Modifier.bit_inter, hlocks, Bool.and_false]
      rw [bit_current, hsides, bit_locks_after _ _ hlocks, hstart, Bool.and_false]
      rfl

/-- **What a tracker computes**: the mask that it gives for each transition, from whatever locks it
started with. Transitions of keys that it does not track can be put in and left out, neighbours can
change places unless they are of the same key, and a transition can be made once more. -/
theorem mask_of_history (start : Modifier) :
    (∀ moves key pressed, Shows start (moves ++ [(key, pressed)])
      (((ofLocks start).after moves).onKey key pressed).1) ∧
    (∀ past key pressed future, key ∉ tracked →
      ((ofLocks start).after (past ++ (key, pressed) :: future)).current =
        ((ofLocks start).after (past ++ future)).current) ∧
    (∀ past move move' future, move.1 ≠ move'.1 →
      ((ofLocks start).after (past ++ move :: move' :: future)).current =
        ((ofLocks start).after (past ++ move' :: move :: future)).current) ∧
    ∀ past move future,
      ((ofLocks start).after (past ++ move :: move :: future)).current =
        ((ofLocks start).after (past ++ move :: future)).current := by
  refine ⟨?_, ?_, ?_, ?_⟩
  · intro moves key pressed
    have h := shows_current start (moves ++ [(key, pressed)])
    rw [after_concat] at h
    exact h
  · intro past key pressed future hkey
    have hturns : ∀ other ∈ tracked,
        other.turns (past ++ (key, pressed) :: future) = other.turns (past ++ future) := by
      rintro other hother
      have hne : key ≠ other := by
        rintro rfl
        exact hkey hother
      rw [Key.turns_append, Key.turns_cons, if_neg hne, ← Key.turns_append]
    exact (shows_current start _).unique (shows_current start _)
      (fun other hother => by rw [hturns other hother])
      (fun other hother => by rw [hturns other hother])
  · intro past move move' future hne
    have hturns : ∀ key : Key, key.turns (past ++ move :: move' :: future) =
        key.turns (past ++ move' :: move :: future) := by
      intro key
      simp only [Key.turns_append, Key.turns_cons]
      by_cases h : move.1 = key
      · have h' : move'.1 ≠ key := fun h' => hne (h.trans h'.symm)
        simp only [if_pos h, if_neg h']
      · simp only [if_neg h]
    exact (shows_current start _).unique (shows_current start _)
      (fun key _ => by rw [hturns]) (fun key _ => by rw [hturns])
  · intro past move future
    refine (shows_current start _).unique (shows_current start _) ?_ ?_
    · intro key _
      simp only [Key.turns_append, Key.turns_cons]
      split
      · simp [List.getLast?_append, List.getLast?_cons]
      · rfl
    · intro key _
      simp only [Key.turns_append, Key.turns_cons]
      split
      · exact freshPresses_again _ _ _
      · rfl

end ModifierTracker

end Keystroke
