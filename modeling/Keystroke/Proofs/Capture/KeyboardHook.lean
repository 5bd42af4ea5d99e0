import Keystroke.Capture.KeyboardHook
import Keystroke.Proofs.Capture.Effects
import Keystroke.Proofs.Key.Native
import Keystroke.Proofs.Modifier.Tracker

/-!
# What the keyboard hook makes of its notifications

As long as the thread should keep running, the hook delivers one event for each key transition that
it is told of, with the mask of its tracker, and passes the notification on. Nothing else happens,
and nothing can happen instead.

## Main statements

- `tells_iff`: which notifications tell of a key transition, and of which one.
- `notify_eq`: what the hook does with a notification, step by step.
- `ran_notifyAll_iff`: the one way in which several notifications are worked off.
-/

namespace Keystroke.KeyboardHook

/-- The notification tells of a key transition. There is something to process; the message, of which
the low 32 bits count, is one of the two with which a key goes down, or one of the two with which it
comes up; and the key is that of the low 16 bits of the virtual key and of the lowest flag, which
says whether the key is an extended one. -/
structure Notification.Tells (n : Notification) (key : Key) (pressed : Bool) : Prop where
  action : n.code = 0
  direction : n.message % UInt32.size ∈ if pressed then [0x100, 0x104] else [0x101, 0x105]
  struck : ∃ code : UInt16, code.toNat = n.virtualKey % UInt16.size ∧
    Key.StruckBy code (n.flags.testBit 0) key

theorem pressed?_eq_some_iff {message : Nat} {pressed : Bool} :
    pressed? message = some pressed ↔
      message ∈ if pressed then [0x100, 0x104] else [0x101, 0x105] := by
  unfold pressed?
  by_cases hdown : message = 0x100 ∨ message = 0x104
  · rcases hdown with rfl | rfl <;> cases pressed <;> simp
  · by_cases hup : message = 0x101 ∨ message = 0x105
    · rcases hup with rfl | rfl <;> cases pressed <;> simp
    · rw [if_neg hdown, if_neg hup]
      cases pressed <;> simp_all

/-- A notification tells of the transition that is read from it. -/
theorem tells_iff {n : Notification} {key : Key} {pressed : Bool} :
    n.Tells key pressed ↔ n.transition? = some (key, pressed) := by
  have hcode {code : UInt16} :
      code.toNat = n.virtualKey % UInt16.size ↔ n.virtualKey.toUInt16 = code := by
    rw [← UInt16.toNat_inj, eq_comm, Nat.toUInt16, UInt16.toNat_ofNat']
  have hflag : n.flags.testBit 0 = (n.flags &&& extendedFlag != 0) := by
    rw [Nat.testBit_zero, extendedFlag, Nat.and_one_is_mod]
    rcases Nat.mod_two_eq_zero_or_one n.flags with h | h <;> simp [h]
  have hstruck : (∃ code : UInt16, code.toNat = n.virtualKey % UInt16.size ∧
      Key.StruckBy code (n.flags.testBit 0) key) ↔
      Key.ofVirtualKey n.virtualKey.toUInt16 (n.flags &&& extendedFlag != 0) = key := by
    simp only [hcode, hflag, Key.struckBy_iff, exists_eq_left']
  have htransition : n.transition? = some (key, pressed) ↔
      n.code = 0 ∧ pressed? (n.message % UInt32.size) = some pressed ∧
        Key.ofVirtualKey n.virtualKey.toUInt16 (n.flags &&& extendedFlag != 0) = key := by
    unfold Notification.transition?
    by_cases hzero : n.code = 0
    · simp only [hzero, ne_eq, not_true, if_false, Option.map_eq_some_iff, Prod.mk.injEq, true_and]
      constructor
      · rintro ⟨_, hpressed, hkey, rfl⟩
        exact ⟨hpressed, hkey⟩
      · rintro ⟨hpressed, hkey⟩
        exact ⟨pressed, hpressed, hkey, rfl⟩
    · simp [hzero]
  rw [htransition, pressed?_eq_some_iff, ← hstruck]
  exact ⟨fun h => ⟨h.action, h.direction, h.struck⟩, fun h => ⟨h.1, h.2.1, h.2.2⟩⟩

open Capture (Effect Outcome Ran ran_bind)

variable {n : Notification} {ns : List Notification} {key : Key} {pressed : Bool}
  {t : ModifierTracker} {es : List Effect} {o : Outcome ModifierTracker}

/-- What the hook does for an event while the thread should keep running: it looks whether that is
so, before and after the event is delivered, and passes the notification on. -/
def observed (event : KeyEvent) : List Effect :=
  [.looked true, .delivered event, .looked true, .recorded passOn]

theorem looked_notMem_observed (event : KeyEvent) : Effect.looked false ∉ observed event := by
  simp [observed]

theorem notify_eq (h : n.transition? = some (key, pressed)) (t : ModifierTracker) :
    notify n t = .running fun up =>
      if up then
        .deliver (.of key (t.step key pressed).current pressed) <| .running fun up =>
          if up then .record passOn (.done (t.step key pressed))
          else
            .record (.hooked .postQuit) <| .postQuit <|
              .record passOn (.done (t.step key pressed))
      else .record (.hooked .postQuit) <| .postQuit <| .record passOn (.done t) := by
  unfold notify
  rw [h]
  refine congrArg Capture.running (funext fun up => ?_)
  cases up with
  | false => rfl
  | true =>
    refine congrArg (Capture.deliver _) (congrArg Capture.running (funext fun up => ?_))
    cases up <;> rfl

theorem ran_notify (h : n.transition? = some (key, pressed)) (t : ModifierTracker) :
    Ran (notify n t) (observed (.of key (t.step key pressed).current pressed))
      (.returned (t.step key pressed)) := by
  rw [notify_eq h]
  exact .running true (.deliver _ (.running true (.record _ (.done _))))

/-- Without the thread being stopped there is no other way. -/
theorem eq_of_ran_notify (h : n.transition? = some (key, pressed)) (hran : Ran (notify n t) es o)
    (hup : .looked false ∉ es) :
    es = observed (.of key (t.step key pressed).current pressed) ∧
      o = .returned (t.step key pressed) := by
  rw [notify_eq h] at hran
  cases hran with
  | running up hran =>
    obtain rfl : up = true := by
      cases up with
      | false => exact absurd List.mem_cons_self hup
      | true => rfl
    cases hran with
    | deliver _ hran =>
      cases hran with
      | running up hran =>
        obtain rfl : up = true := by
          cases up with
          | false => exact absurd (by simp) hup
          | true => rfl
        cases hran with
        | record _ hran =>
          cases hran
          exact ⟨rfl, rfl⟩

/-- Notifications of several transitions are worked off in one way, unless the thread is stopped:
each event is observed, with the mask after its transition, and the tracker follows. -/
theorem ran_notifyAll_iff {moves : List (Key × Bool)}
    (h : ns.map Notification.transition? = moves.map some) :
    Ran (notifyAll ns t) es o ∧ .looked false ∉ es ↔
      es = (t.events moves).flatMap observed ∧ o = .returned (t.after moves) := by
  induction moves generalizing ns t es o with
  | nil =>
    obtain rfl := List.map_eq_nil_iff.1 h
    constructor
    · rintro ⟨hran, -⟩
      cases hran
      exact ⟨rfl, rfl⟩
    · rintro ⟨rfl, rfl⟩
      exact ⟨.done t, List.not_mem_nil⟩
  | cons move moves ih =>
    obtain ⟨key, pressed⟩ := move
    obtain ⟨n, ns, rfl, hn, hns⟩ := List.map_eq_cons_iff.1 h
    have hbind : notifyAll (n :: ns) t = (notify n t).bind (notifyAll ns) := rfl
    rw [hbind]
    constructor
    · rintro ⟨hran, hup⟩
      rcases ran_bind hran with ⟨rfl, hnotify⟩ | ⟨es₁, es₂, t', rfl, hnotify, hrest⟩
      · cases (eq_of_ran_notify hn hnotify hup).2
      · rw [List.mem_append, not_or] at hup
        obtain ⟨rfl, ho⟩ := eq_of_ran_notify hn hnotify hup.1
        cases ho
        obtain ⟨rfl, rfl⟩ := (ih hns).1 ⟨hrest, hup.2⟩
        exact ⟨rfl, rfl⟩
    · rintro ⟨rfl, rfl⟩
      obtain ⟨hrest, hup⟩ := (ih (t := t.step key pressed) hns).2 ⟨rfl, rfl⟩
      refine ⟨(ran_notify hn t).bind hrest, fun hmem => ?_⟩
      rcases List.mem_append.1 hmem with hmem | hmem
      · exact looked_notMem_observed _ hmem
      · exact hup hmem

end Keystroke.KeyboardHook
