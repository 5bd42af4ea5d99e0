import Keystroke.Proofs.Capture.Evdev
import Keystroke.Proofs.Key.Evdev
import Keystroke.Proofs.Modifier.History

/-!
# Repeated keys and the locks

The kernel repeats a key while it is down. A lock is toggled by a press and not by what repeats it;
but the raw event of a repetition is taken for a press, and whether it is a new one is decided by
the keys that were seen to go down. A key that was down before the session began was not seen.

## Main statements

- `Sends.isDownAfter_iff`: which keys the session knows to be down.
- `flips_iff_held_at_start`: the repetitions that toggle a lock.
- `held_lock_flipped`: a lock that a repetition switches off.
-/

namespace Keystroke.Evdev

/-! ## What a keyboard sends -/

/-- What can come from a keyboard while keys with the given codes are down: a key goes down when it
is up, and is repeated or comes up while it is down. Events that are not about keys come at any
time. -/
def Possible (held : List UInt16) (e : InputEvent) : Prop :=
  e.type = keyType → e.value = 1 ∧ e.code ∉ held ∨ (e.value = 0 ∨ e.value = 2) ∧ e.code ∈ held

/-- The keys that are down after an event. -/
def heldAfter (held : List UInt16) (e : InputEvent) : List UInt16 :=
  if e.type ≠ keyType then held
  else if e.value = 0 then held.filter (· ≠ e.code)
  else e.code :: held

/-- The events that come from a keyboard since its node was opened, and the keys that are down after
them. When the node is opened some keys may be down already. -/
inductive Sends (down : List UInt16) : List InputEvent → List UInt16 → Prop
  | nil : Sends down [] down
  | concat {es : List InputEvent} {held : List UInt16} {e : InputEvent}
      (h : Sends down es held) (he : Possible held e) : Sends down (es ++ [e]) (heldAfter held e)

/-- Whether an event is about the key with a code. -/
def IsAbout (code : UInt16) (e : InputEvent) : Prop := e.type = keyType ∧ e.code = code

theorem mem_heldAfter_of_isAbout {held : List UInt16} {e : InputEvent} {code : UInt16}
    (h : IsAbout code e) : code ∈ heldAfter held e ↔ e.value ≠ 0 := by
  obtain ⟨htype, rfl⟩ := h
  by_cases hvalue : e.value = 0 <;> simp [heldAfter, htype, hvalue]

theorem mem_heldAfter_of_not_isAbout {held : List UInt16} {e : InputEvent} {code : UInt16}
    (h : ¬ IsAbout code e) : code ∈ heldAfter held e ↔ code ∈ held := by
  by_cases htype : e.type = keyType
  · have hcode : code ≠ e.code := fun hcode => h ⟨htype, hcode.symm⟩
    by_cases hvalue : e.value = 0 <;> simp [heldAfter, htype, hvalue, hcode]
  · simp [heldAfter, htype]

/-! ## Keys that are known to be down -/

section Locks

variable {lock : Key} {code : UInt16} {i : Nat} (hlock : lock ∈ Key.locking i)
include hlock

/-- A lock has one key, and this one code. -/
theorem ofEvdevCode_iff_of_lock (hcode : lock.evdevCode = some code) (c : UInt16) :
    Key.ofEvdevCode c = lock ↔ c = code := by
  constructor
  · intro h
    have hnamed : lock ≠ .menu ∧ lock ≠ .unknown := by
      obtain ⟨-, rfl⟩ | ⟨-, rfl⟩ := Key.cases_of_mem_locking hlock <;> decide
    have heq := Key.evdevCode_eq hnamed.1 hnamed.2 h
    rw [hcode, Option.some.injEq] at heq
    exact heq.symm
  · rintro rfl
    exact Key.ofEvdevCode_eq hcode

/-- An event that can come is a transition of the key of a lock exactly if it is about its code. -/
theorem transition?_of_possible (hcode : lock.evdevCode = some code) {held : List UInt16}
    {e : InputEvent} (he : Possible held e) (pressed : Bool) :
    transition? e = some (lock, pressed) ↔ IsAbout code e ∧ pressed = decide (e.value ≠ 0) := by
  have hname := ofEvdevCode_iff_of_lock hlock hcode e.code
  have hknown : lock ≠ .unknown := by
    rintro rfl
    cases hcode
  rw [transition?_eq]
  constructor
  · intro h
    split at h
    next htransition =>
      simp only [Option.some.injEq, Prod.mk.injEq] at h
      have htype : e.type = keyType := (of_decide_eq_true htransition).1
      exact ⟨⟨htype, hname.1 h.1⟩, h.2.symm⟩
    next => cases h
  · rintro ⟨⟨htype, hc⟩, rfl⟩
    have hkey := hname.2 hc
    have hvalue : e.value = 0 ∨ e.value = 1 ∨ e.value = 2 := by
      rcases he htype with ⟨h, -⟩ | ⟨h | h, -⟩
      · exact .inr (.inl h)
      · exact .inl h
      · exact .inr (.inr h)
    have htransition : isTransition e = true := by
      simp [isTransition, htype, hvalue, hkey, hknown]
    rw [if_pos htransition, hkey]

/-- The session knows the key of a lock to be down if it is down and was heard of before. -/
theorem Sends.isDownAfter_iff (hcode : lock.evdevCode = some code) {down held : List UInt16}
    {es : List InputEvent} (h : Sends down es held) :
    lock.isDownAfter (transitions es) = true ↔ code ∈ held ∧ ∃ e ∈ es, IsAbout code e := by
  induction h with
  | nil => simp [transitions, Key.isDownAfter]
  | @concat es held e h he ih =>
    have hexists : (∃ e' ∈ es ++ [e], IsAbout code e') ↔
        (∃ e' ∈ es, IsAbout code e') ∨ IsAbout code e := by
      simp [or_and_right, exists_or]
    have hone : transitions [e] = (transition? e).toList := by
      rw [transitions_cons]
      exact List.append_nil _
    rw [hexists, transitions_append, hone]
    by_cases habout : IsAbout code e
    · have hmove := (transition?_of_possible hlock hcode he _).2 ⟨habout, rfl⟩
      rw [hmove, Option.toList_some, Key.isDownAfter_concat, if_pos rfl,
        mem_heldAfter_of_isAbout habout]
      simp [habout]
    · rw [mem_heldAfter_of_not_isAbout habout]
      simp only [habout, or_false]
      rw [← ih]
      cases hmove : transition? e with
      | none => rw [Option.toList_none, List.append_nil]
      | some move =>
        obtain ⟨key, pressed⟩ := move
        have hkey : key ≠ lock := by
          rintro rfl
          exact habout ((transition?_of_possible hlock hcode he pressed).1 hmove).1
        rw [Option.toList_some, Key.isDownAfter_concat, if_neg hkey]

end Locks

/-! ## Repetitions -/

/-- The raw event of a key that is down and repeated. -/
def repetition (code : UInt16) : InputEvent := ⟨keyType, code, 2⟩

theorem transition?_repetition {code : UInt16} {key : Key} {pressed : Bool}
    (h : transition? (repetition code) = some (key, pressed)) :
    key = Key.ofEvdevCode code ∧ pressed = true := by
  rw [transition?_eq] at h
  split at h
  · simp only [Option.some.injEq, Prod.mk.injEq] at h
    exact ⟨h.1.symm, h.2.symm⟩
  · cases h

/-- **The repetitions that toggle a lock**: whatever the locks were at the start, and whatever a
keyboard sent since its node was opened, a repetition toggles a lock if the key is that of the lock
and there was no event of it before, so that it must have been down when the node was opened. Every
other repetition leaves the locks alone. -/
theorem flips_iff_held_at_start (locks : Modifier) {down held : List UInt16}
    {es : List InputEvent} {code : UInt16} (h : Sends down es held) (hcode : code ∈ held)
    {lock : Key} {i : Nat} (hlock : lock ∈ Key.locking i) :
    let t := (decodeAll es (.ofLocks locks)).2
    (decode (repetition code) t).2.current.bit i ≠ t.current.bit i ↔
      Key.ofEvdevCode code = lock ∧ ∀ e ∈ es, ¬ IsAbout code e := by
  intro t
  have ht : t = (ModifierTracker.ofLocks locks).after (transitions es) := by
    simp only [t, decodeAll_eq]
  rw [ModifierTracker.bit_current_of_lock _ hlock, ModifierTracker.bit_current_of_lock _ hlock]
  unfold decode
  by_cases hkey : Key.ofEvdevCode code = lock
  · have hown : lock.evdevCode = some code := by
      cases hown : lock.evdevCode with
      | none =>
        rw [Key.evdevCode_eq_none hown] at hlock
        have htracked := ModifierTracker.mem_tracked_of_mem_locking hlock
        exact absurd htracked (by decide)
      | some c => rw [(ofEvdevCode_iff_of_lock hlock hown code).1 hkey]
    have hpossible : Possible held (repetition code) := fun _ => .inr ⟨.inr rfl, hcode⟩
    have hmove : transition? (repetition code) = some (lock, true) :=
      (transition?_of_possible hlock hown hpossible true).2 ⟨⟨rfl, rfl⟩, rfl⟩
    have hheld : lock ∈ t.held ↔ ∃ e ∈ es, IsAbout code e := by
      rw [ht, ModifierTracker.mem_held_after _ (ModifierTracker.mem_tracked_of_mem_locking hlock)]
      exact (h.isDownAfter_iff hlock hown).trans (and_iff_right hcode)
    rw [hmove]
    simp only [ModifierTracker.onKey, ModifierTracker.bit_locks_step_of_lock _ _ _ hlock, hkey,
      decide_true, Bool.true_and, true_and]
    have hnew : lock ∉ t.held ↔ ∀ e ∈ es, ¬ IsAbout code e := by
      rw [hheld, not_exists]
      exact forall_congr' fun e => not_and
    rw [← hnew]
    by_cases hmem : lock ∈ t.held <;> simp [hmem]
  · refine iff_of_false ?_ fun hflip => hkey hflip.1
    cases hmove : transition? (repetition code) with
    | none => simp
    | some move =>
      obtain ⟨key, pressed⟩ := move
      obtain ⟨rfl, rfl⟩ := transition?_repetition hmove
      simp [ModifierTracker.onKey, ModifierTracker.bit_locks_step_of_lock _ _ _ hlock, hkey]

/-- CapsLock was pressed and is still down when the node is opened, so that its repetition toggles
the lock. After it came up and went down once more, it does not. -/
theorem flips_iff_held_at_start_capsLock :
    let t := ModifierTracker.ofLocks .capsLock
    let again : List InputEvent := [⟨keyType, 58, 0⟩, ⟨0, 0, 0⟩, ⟨keyType, 58, 1⟩]
    let t' := (decodeAll again t).2
    (decode (repetition 58) t).2.current.bit 4 ≠ t.current.bit 4 ∧
      ¬ (decode (repetition 58) t').2.current.bit 4 ≠ t'.current.bit 4 := by
  intro t again t'
  have hcaps : Key.capsLock ∈ Key.locking 4 := List.mem_singleton.2 rfl
  have hagain : Sends [58] again [58] :=
    ((Sends.nil.concat (e := ⟨keyType, 58, 0⟩) fun _ => .inr ⟨.inl rfl, by decide⟩).concat
      (e := ⟨0, 0, 0⟩) nofun).concat (e := ⟨keyType, 58, 1⟩) fun _ => .inl ⟨rfl, by decide⟩
  constructor
  · exact (flips_iff_held_at_start .capsLock (.nil : Sends [58] [] [58]) (by decide) hcaps).2
      ⟨by decide +kernel, nofun⟩
  · intro hflip
    have hnone := ((flips_iff_held_at_start .capsLock hagain (by decide) hcaps).1 hflip).2
    exact hnone ⟨keyType, 58, 0⟩ (by decide) ⟨rfl, rfl⟩

/-- The LED of CapsLock is lit and its key is down when the node is opened: the first repetition
switches the lock off. -/
theorem held_lock_flipped :
    Sends [58] [] [58] ∧ Possible [58] (repetition 58) ∧
      (ModifierTracker.ofLocks .capsLock).current = .capsLock ∧
      (decode (repetition 58) (.ofLocks .capsLock)).2.current = ∅ :=
  ⟨.nil, fun _ => .inr ⟨.inr rfl, by decide⟩, by decide, by decide +kernel⟩

end Keystroke.Evdev
