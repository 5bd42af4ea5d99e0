import Keystroke.Proofs.Driver.Logged
import Keystroke.Proofs.Driver.Uinput
import Keystroke.Proofs.Sender.Account

/-!
# What is written is what is read

On Linux a sender and a listener meet at the raw events. What a sender writes to its device is read
here by the rules of the listener, and comes out as what was sent.

## Main statements

- `reading_performAll`: a run of a sender keeps in step what it sent, what it wrote and its account.
- `loopback`: whoever reads what a sender wrote finds what was sent.
-/

namespace Keystroke

/-- The batches that were written, by the entries of the journal. -/
def batches (entries : List Entry) : List (List InputEvent) :=
  entries.filterMap fun
    | .wrote batch => some batch
    | _ => none

theorem batches_append (entries entries' : List Entry) :
    batches (entries ++ entries') = batches entries ++ batches entries' :=
  List.filterMap_append

theorem batches_slept (micros : List Nat) : batches (micros.map .slept) = [] := by
  simp [batches]

namespace Logged

/-- The transition of a key that a call has sent with success. -/
def sent? : Scripted.Call × Bool → Option (Key × Bool)
  | (.sendKey key down, true) => some (key, down)
  | _ => none

/-- The transitions of keys that were sent with success. -/
def sent (log : List (Scripted.Call × Bool)) : List (Key × Bool) := log.filterMap sent?

/-- What the batch tells that a call has written, if it has written one: a successful `sendKey` its
transition, and a successful `flush` nothing. -/
def told : Scripted.Call × Bool → Option (List (Key × Bool))
  | (.sendKey key down, true) => some [(key, down)]
  | (.flush, true) => some []
  | _ => none

theorem sent_append (log log' : List (Scripted.Call × Bool)) :
    sent (log ++ log') = sent log ++ sent log' :=
  List.filterMap_append

theorem flatten_told (log : List (Scripted.Call × Bool)) :
    (log.filterMap told).flatten = sent log := by
  induction log with
  | nil => rfl
  | cons entry log ih =>
    obtain ⟨call, done⟩ := entry
    simp only [sent] at ih ⊢
    cases call <;> cases done <;> simp [List.filterMap_cons, told, sent?, ih]

end Logged

namespace Sender

open Logged (sent told)

/-- What was written since the journal had the given entries tells what the log says was sent, batch
by batch, and so does the account of held modifiers. -/
structure Reading (journal : List Entry) (r : Rig (Sender (Logged UinputDriver))) : Prop where
  opened : r.front.driver.inner.Opened
  writes : UinputDriver.WritesAll r.host
  journal : ∃ entries, r.host.journal = journal ++ entries ∧
    (batches entries).map Evdev.transitions = r.front.driver.log.filterMap told
  active : r.front.active = Modifier.account ∅ (sent r.front.driver.log)

variable {journal : List Entry} {r r' : Rig (Sender (Logged UinputDriver))}

/-- After a step that was noted in the log, the account and the journal have to follow. -/
theorem Reading.note (h : Reading journal r) (ho : r'.front.driver.inner.Opened)
    (hw : UinputDriver.WritesAll r'.host) (noted : List (Scripted.Call × Bool))
    (hlog : r'.front.driver.log = r.front.driver.log ++ noted) (entries : List Entry)
    (hj : r'.host.journal = r.host.journal ++ entries)
    (he : (batches entries).map Evdev.transitions = noted.filterMap told)
    (ha : r'.front.active = r.front.active.account (sent noted)) : Reading journal r' := by
  obtain ⟨earlier, hjournal, htold⟩ := h.journal
  refine ⟨ho, hw, ⟨earlier ++ entries, ?_, ?_⟩, ?_⟩
  · rw [hj, hjournal, List.append_assoc]
  · rw [batches_append, List.map_append, htold, he, hlog, List.filterMap_append]
  · rw [ha, h.active, hlog, Logged.sent_append, Modifier.account_append]

/-- A transition of a key was sent and is on the account. -/
theorem Reading.send (h : Reading journal r) (key : Key) (down : Bool) :
    let answer := UinputDriver.sendKey key down ⟨r.front.driver.inner, r.host⟩
    Reading journal ⟨{
      driver := {
        inner := answer.2.front
        log := r.front.driver.log ++ [(.sendKey key down, succeeded answer.1)] }
      active := r.front.active.account [(key, down)] }, answer.2.host⟩ := by
  have hsend := UinputDriver.sendKey_eq (r := ⟨r.front.driver.inner, r.host⟩) h.opened h.writes
    key down
  simp only [hsend]
  cases hcode : key.evdevCode with
  | none =>
    -- nothing is written, and the account of a key without a code has no bits
    obtain rfl := Key.evdevCode_eq_none hcode
    exact h.note h.opened h.writes [(.sendKey .unknown down, false)] rfl []
      (List.append_nil _).symm rfl (Modifier.account_unknown _ down)
  | some code =>
    have htold : Evdev.transitions [UinputDriver.keyEvent code down] = [(key, down)] :=
      UinputDriver.transitions_keyEvent hcode down
    exact h.note h.opened h.writes [(.sendKey key down, true)] rfl
      [.wrote [UinputDriver.keyEvent code down]] rfl (congrArg ([·]) htold) rfl

theorem Reading.flush (h : Reading journal r) : Reading journal (flush r).2 := by
  -- the driver has its device, so the flush gets to it and writes an empty batch
  have hready : r.front.isReady = true := h.opened.device
  have hflush := UinputDriver.flush_eq (r := ⟨r.front.driver.inner, r.host⟩) h.opened h.writes
  rw [flush_eq, if_pos hready]
  change Reading journal (let answer := KeyboardDriver.flush ⟨r.front.driver.inner, r.host⟩
    ⟨{ r.front with driver := {
        inner := answer.2.front
        log := r.front.driver.log ++ [(.flush, succeeded answer.1)] } }, answer.2.host⟩)
  simp only [hflush]
  exact h.note h.opened h.writes [(.flush, true)] rfl [.wrote []] rfl rfl rfl

theorem reading_step (h : Reading journal r) (step : Step) : Reading journal (step.run r).2 := by
  cases step with
  | keyDown key => exact h.send key true
  | keyUp key => exact h.send key false
  | delay =>
    exact h.note h.opened h.writes [(.delay, true)] rfl _ rfl
      (by rw [batches_slept]; rfl) rfl
  | typeText s =>
    exact h.note h.opened h.writes [(.typeText s, false)] rfl [] (List.append_nil _).symm rfl rfl
  | typeScalar c =>
    exact h.note h.opened h.writes [(.typeChar c, false)] rfl [] (List.append_nil _).symm rfl rfl
  | report message =>
    exact h.note h.opened h.writes [] (List.append_nil _).symm [] (List.append_nil _).symm rfl rfl
  | flush => exact h.flush
  | requestPermissions =>
    exact h.note h.opened h.writes [] rfl [] (List.append_nil _).symm rfl rfl
  | setKeyDelay micros =>
    exact h.note ⟨h.opened.device, h.opened.codes⟩ h.writes [] (List.append_nil _).symm []
      (List.append_nil _).symm rfl rfl

theorem reading_performAll (h : Reading journal r) (ops : List Operation) :
    Reading journal (performAll ops r).2 := by
  have hstep : Invariant (Reading journal) := fun step _ h => reading_step h step
  exact hstep.performAll ops h

/-- **The loopback**: a sender over an opened driver whose writes all succeed, with a log that has
no influence on the run. The batches that it writes, read in order by the rules of the listener,
give for each call that wrote one the transition that was sent, and nothing for a flush. If no key
of the right side was sent, the chord modifiers that the listener sees, after each event and in the
end, are those on the account of the sender. -/
theorem loopback (s : SenderSettings) {h : Host} (hr : h.uinput.refusal = none)
    (hw : UinputDriver.WritesAll h) (ops : List Operation) (locks : Modifier) :
    let opened := UinputDriver.connect s h
    let start : Rig (Sender (Logged UinputDriver)) :=
      ⟨{ driver := { inner := opened.1 } }, opened.2⟩
    let final := (performAll ops start).2
    let log := final.front.driver.log
    performAll ops ⟨{ driver := opened.1 }, opened.2⟩ =
        ((performAll ops start).1, erase final) ∧
      final.front.active = Modifier.account ∅ (sent log) ∧
      ∃ entries, final.host.journal = opened.2.journal ++ entries ∧
        let heard := Evdev.decodeBatches (batches entries) (.ofLocks locks)
        heard.1.map (·.map fun e => (e.key, e.pressed)) = log.filterMap told ∧
        heard.1.flatten.map (fun e => (e.key, e.pressed)) = sent log ∧
        ((∀ move ∈ sent log, move.1 ∉ Key.rightSide) →
          heard.2.current ∩ .chord = final.front.active ∧
          ∀ i e, heard.1.flatten[i]? = some e →
            e.modifiers ∩ .chord = Modifier.account ∅ ((sent log).take (i + 1))) := by
  intro opened start final log
  obtain ⟨hopened, hwrites⟩ := UinputDriver.opened_connect s hr hw
  have hstart : Reading opened.2.journal start :=
    ⟨hopened, hwrites, ⟨[], (List.append_nil _).symm, rfl⟩, rfl⟩
  have hfinal : Reading opened.2.journal final := reading_performAll hstart ops
  obtain ⟨entries, hjournal, htold⟩ := hfinal.journal
  refine ⟨erase_performAll ops start, hfinal.active, entries, hjournal, ?_⟩
  intro heard
  have hmap := Evdev.map_decodeBatches (batches entries) (.ofLocks locks)
  obtain ⟨hevents, htracker⟩ := Evdev.flatten_decodeBatches (batches entries) (.ofLocks locks)
  rw [htold] at hmap
  rw [htold, Logged.flatten_told] at hevents htracker
  refine ⟨hmap, ?_, fun hleft => ⟨?_, fun i e he => ?_⟩⟩
  · rw [hevents, ModifierTracker.map_events]
  · -- the reader has seen the moves that are on the account of the sender
    rw [htracker, ModifierTracker.current_inter_chord_eq locks hleft, hfinal.active]
  · -- so it was after each of them
    rw [hevents] at he
    rw [ModifierTracker.getElem?_events _ he]
    exact ModifierTracker.current_inter_chord_eq locks fun move hmove =>
      hleft move (List.mem_of_mem_take hmove)

/-- Shift is held for a tap, and is off again in the end; the unknown key is not written. -/
theorem loopback_combo :
    let ops : List Operation := [.combo (.shift ∪ .capsLock) .a, .flush, .keyDown .unknown]
    let opened := UinputDriver.connect {} {}
    let start : Rig (Sender (Logged UinputDriver)) :=
      ⟨{ driver := { inner := opened.1 } }, opened.2⟩
    let final := (performAll ops start).2
    ({} : Host).uinput.refusal = none ∧ UinputDriver.WritesAll {} ∧
      sent final.front.driver.log =
        [(.shiftLeft, true), (.a, true), (.a, false), (.shiftLeft, false)] ∧
      ∃ entries, final.host.journal = opened.2.journal ++ entries ∧
        let heard := Evdev.decodeBatches (batches entries) (.ofLocks .numLock)
        heard.1.map (·.map fun e => (e.key, e.pressed)) =
          [[(.shiftLeft, true)], [(.a, true)], [(.a, false)], [(.shiftLeft, false)], []] ∧
        heard.2.current ∩ .chord = ∅ := by
  intro ops
  dsimp only
  have hr : ({} : Host).uinput.refusal = none := rfl
  have hw : UinputDriver.WritesAll {} := fun _ => rfl
  obtain ⟨-, hfinal, entries, hjournal, htold, -, hleft⟩ := loopback {} hr hw ops .numLock
  refine ⟨hr, hw, ?_, entries, hjournal, ?_, ?_⟩
  · decide +kernel
  · rw [htold]
    decide +kernel
  · refine (hleft (by decide +kernel)).1.trans ?_
    decide +kernel

end Sender

end Keystroke
