import Keystroke.Driver.Recorder
import Keystroke.Proofs.Driver.Logged
import Keystroke.Proofs.Sender.Account

/-!
# The account follows the calls

Which transitions of keys a sender asks its driver for depends on how the earlier ones went: a tap
whose press failed has no release, and a combination whose modifiers could not be pressed has no
tap. How the account comes about does not depend on that. It is what the transitions amount to that
were asked for, in the order in which they were, whatever the driver answered.

## Main statements

- `Modifier.bit_account`: a bit of the account is decided by the last transition of a key on one of
  its sides.
- `accounted_step`: every step of a sender keeps the account in line with the log.
- `active_eq_account`: so it is after any run, over any driver.
-/

namespace Keystroke

/-- A bit of the account is decided by the last transition of a key on one of its sides; without
one it is as before. -/
theorem Modifier.bit_account (m : Modifier) (moves : List (Key × Bool)) (i : Nat) :
    (m.account moves).bit i =
      moves.foldl (fun held move => if move.1 ∈ Key.sides i then move.2 else held) (m.bit i) := by
  induction moves generalizing m with
  | nil => rfl
  | cons move moves ih =>
    obtain ⟨key, down⟩ := move
    have hmove : (m.account [(key, down)]).bit i =
        if key ∈ Key.sides i then down else m.bit i := by
      cases down <;> by_cases hside : key ∈ Key.sides i <;>
        simp [account, Key.bit_modifierBit, hside]
    rw [List.foldl_cons, ← hmove]
    exact ih (m.account [(key, down)])

theorem Modifier.account_inter_chord (moves : List (Key × Bool)) :
    Modifier.account ∅ moves ∩ .chord = Modifier.account ∅ moves := by
  apply Modifier.ext_bit
  intro i _
  rw [Modifier.bit_inter, Modifier.bit_chord, Modifier.bit_account, Modifier.bit_empty]
  rcases Nat.lt_or_ge i 4 with hlt | hge
  · simp [hlt]
  · -- no key holds a modifier beyond the fourth bit, so nothing ever sets it
    obtain ⟨n, rfl⟩ := Nat.exists_eq_add_of_le' hge
    have hnone : ∀ moves : List (Key × Bool),
        moves.foldl (fun held move => if move.1 ∈ Key.sides (n + 4) then move.2 else held)
          false = false := by
      intro moves
      induction moves with
      | nil => rfl
      | cons move moves ih =>
        have hside : move.1 ∉ Key.sides (n + 4) := List.not_mem_nil
        rw [List.foldl_cons, if_neg hside]
        exact ih
    rw [hnone, Bool.false_and]

namespace Logged

/-- The transition of a key that a call asked for, whether it succeeded or not. -/
def asked? : Scripted.Call × Bool → Option (Key × Bool)
  | (.sendKey key down, _) => some (key, down)
  | _ => none

/-- The transitions of keys that the driver was asked for, oldest first. -/
def asked (log : List (Scripted.Call × Bool)) : List (Key × Bool) := log.filterMap asked?

theorem asked_append (log log' : List (Scripted.Call × Bool)) :
    asked (log ++ log') = asked log ++ asked log' :=
  List.filterMap_append

end Logged

namespace Sender

open Logged (asked)

variable {δ : Type} [KeyboardDriver δ]

/-- Whether an operation may ask the driver for transitions of keys. -/
def Operation.movesKeys : Operation → Bool
  | .keyDown _ | .keyUp _ | .tap _ | .hold _ | .release _ | .releaseAll | .combo .. => true
  | .typeText _ | .typeUtf32 _ | .typeChar _ | .flush | .requestPermissions | .setKeyDelay _ =>
    false

/-- Operations that are not about keys leave the account alone. -/
theorem active_perform {op : Operation} (h : op.movesKeys = false) (r : Rig (Sender δ)) :
    (perform op r).2.front.active = r.front.active := by
  cases op with
  | keyDown | keyUp | tap | hold | release | releaseAll | combo => cases h
  | typeText | requestPermissions | setKeyDelay => rfl
  | typeUtf32 values =>
    change (typeUtf32 values r).2.front.active = r.front.active
    unfold typeUtf32
    cases charsOf values <;> rfl
  | typeChar value =>
    change (typeChar value r).2.front.active = r.front.active
    unfold typeChar
    cases charOf? value <;> rfl
  | flush =>
    change (flush r).2.front.active = r.front.active
    rw [flush_eq]
    split <;> rfl

/-- The account is what the transitions come to that the driver was asked for. -/
def Accounted (r : Rig (Sender (Logged δ))) : Prop :=
  r.front.active = Modifier.account ∅ (asked r.front.driver.log)

variable {r r' : Rig (Sender (Logged δ))}

omit [KeyboardDriver δ] in
/-- After a step that was noted in the log, the account has to follow. -/
theorem Accounted.note (h : Accounted r) (noted : List (Scripted.Call × Bool))
    (hlog : r'.front.driver.log = r.front.driver.log ++ noted)
    (hactive : r'.front.active = r.front.active.account (asked noted)) : Accounted r' := by
  unfold Accounted at h ⊢
  rw [hactive, h, hlog, Logged.asked_append, Modifier.account_append]

omit [KeyboardDriver δ] in
/-- After a step that asks for no transition, the account has to be the same. -/
theorem Accounted.quiet (h : Accounted r) (noted : List (Scripted.Call × Bool))
    (hlog : r'.front.driver.log = r.front.driver.log ++ noted) (hnone : asked noted = [])
    (hactive : r'.front.active = r.front.active) : Accounted r' := by
  refine h.note noted hlog ?_
  rw [hnone]
  exact hactive

theorem accounted_step (h : Accounted r) (step : Step) : Accounted (step.run r).2 := by
  cases step with
  | keyDown key => exact h.note [(.sendKey key true, _)] rfl rfl
  | keyUp key => exact h.note [(.sendKey key false, _)] rfl rfl
  | delay => exact h.quiet [(.delay, true)] rfl rfl rfl
  | typeText s => exact h.quiet [(.typeText s, _)] rfl rfl rfl
  | typeScalar c => exact h.quiet [(.typeChar c, _)] rfl rfl rfl
  | report message => exact h.quiet [] (List.append_nil _).symm rfl rfl
  | requestPermissions => exact h.quiet [] rfl rfl rfl
  | setKeyDelay micros => exact h.quiet [] (List.append_nil _).symm rfl rfl
  | flush =>
    change Accounted (flush r).2
    rw [flush_eq]
    split
    next => exact h.quiet [(.flush, _)] rfl rfl rfl
    next => exact h

/-- **The account of a sender**, over any driver and after any operations, all driver calls being
noted in a log that has no influence on the run. The account is what the transitions come to that
the driver was asked for so far, whether they succeeded or not: a bit of it is set if the last
transition of a key on one of its two sides was a press. Nothing but chord modifiers is ever on the
account, and the operations that are not about keys leave it as it is. -/
theorem active_eq_account (d : δ) (h : Host) (ops : List Operation) :
    let start : Rig (Sender (Logged δ)) := ⟨{ driver := { inner := d } }, h⟩
    let final := (performAll ops start).2
    let moves := asked final.front.driver.log
    performAll ops ⟨{ driver := d }, h⟩ = ((performAll ops start).1, erase final) ∧
      final.front.active = Modifier.account ∅ moves ∧
      (∀ i, final.front.active.bit i =
        moves.foldl (fun held move => if move.1 ∈ Key.sides i then move.2 else held) false) ∧
      final.front.active ∩ .chord = final.front.active ∧
      ∀ op : Operation, op.movesKeys = false →
        (perform op final).2.front.active = final.front.active := by
  intro start final moves
  have hstep : Invariant fun r : Rig (Sender (Logged δ)) => Accounted r :=
    fun step _ h => accounted_step h step
  have hfinal : final.front.active = Modifier.account ∅ moves :=
    hstep.performAll ops (show Accounted start from rfl)
  refine ⟨erase_performAll ops start, hfinal, fun i => ?_, ?_, fun op hop => active_perform hop _⟩
  · rw [hfinal, Modifier.bit_account, Modifier.bit_empty]
  · rw [hfinal, Modifier.account_inter_chord]

/-- A driver that refuses everything: the tap has no release, so Shift stays on the account. -/
theorem active_eq_account_refused :
    let start : Rig (Sender (Logged Recorder)) := ⟨{ driver := { inner := {} } }, {}⟩
    let final := (performAll [.hold (.shift ∪ .ctrl), .keyUp .ctrlRight, .tap .shiftLeft] start).2
    asked final.front.driver.log =
        [(.shiftLeft, true), (.ctrlLeft, true), (.ctrlRight, false), (.shiftLeft, true)] ∧
      final.front.active = .shift ∧ Operation.flush.movesKeys = false ∧
      (perform .flush final).2.front.active = .shift := by
  dsimp only
  obtain ⟨-, hactive, -, -, hquiet⟩ := active_eq_account ({} : Recorder) {}
    [.hold (.shift ∪ .ctrl), .keyUp .ctrlRight, .tap .shiftLeft]
  refine ⟨by decide +kernel, ?_, rfl, ?_⟩
  · rw [hactive]
    decide +kernel
  · rw [hquiet .flush rfl, hactive]
    decide +kernel

end Sender

end Keystroke
