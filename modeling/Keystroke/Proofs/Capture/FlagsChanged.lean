import Keystroke.Proofs.Capture.TapMessages

/-!
# The direction of modifier keys on macOS

A message that the modifier flags have changed names the key that moved, and carries the flags that
are set after it. The flag of the key's modifier is set while the key on either side is down. So the
direction that is read off the flag is right for each press; it is right for a release if the key on
the other side is up, and wrong if that one is down.

## Main statements

- `isPress_iff`: the direction of a key as it is read off a mask.
- `direction_iff`: for which transitions the event has the direction of the transition.
- `release_delivered_as_press`: the release of one Shift key while the other one is down.
-/

namespace Keystroke

namespace Key

theorem ofQuartzCode_chordKeys {key : Key} (h : key ∈ chordKeys) :
    ofQuartzCode (key.quartzCode.getD 0) = key := by
  revert key
  decide

end Key

namespace EventTap

open Key (sides chordKeys)

/-- The message that tells of a transition of a key, the last one of several with all keys up
before. -/
def told (moves : List (Key × Bool)) (key : Key) : Message :=
  .flagsChanged (key.quartzCode.getD 0) (Key.heldFlags (chordKeys.filter (·.isDownAfter moves)))

/-- The messages that tell of several transitions, each with the flags of the keys that are down
after it. -/
def messages (moves : List (Key × Bool)) : List Message :=
  moves.mapIdx fun i move => told (moves.take (i + 1)) move.1

/-- A modifier is in the mask of the message while the key on one of its sides is down. -/
theorem bit_ofQuartz_heldFlags (moves : List (Key × Bool)) {i : Nat} (hi : i < 4) :
    (Modifier.ofQuartz (Key.heldFlags (chordKeys.filter (·.isDownAfter moves)))).bit i =
      (sides i).any (·.isDownAfter moves) := by
  rw [Modifier.bit_ofQuartz _ hi, Key.testBit_heldFlags _ hi, Bool.eq_iff_iff]
  simp only [List.any_eq_true, List.mem_filter, List.contains_iff_mem]
  constructor
  · rintro ⟨key, ⟨-, hdown⟩, hside⟩
    exact ⟨key, hside, hdown⟩
  · rintro ⟨key, hside, hdown⟩
    exact ⟨key, ⟨Key.mem_chordKeys.2 ⟨i, hside⟩, hdown⟩, hside⟩

/-- The direction of a chord key is read off the bit that it shares with the key on the other
side. -/
theorem isPress_iff {key : Key} {i : Nat} (h : key ∈ sides i) (mask : Modifier) :
    isPress key mask = mask.bit i := by
  rw [Bool.eq_iff_iff, isPress_iff_own]
  constructor
  · rintro ⟨j, hj, hbit⟩
    rwa [hj.index_eq (.inl h)] at hbit
  · intro hbit
    exact ⟨i, .inl h, hbit⟩

/-- The last transition is delivered as a press while the key on one of the sides is down. -/
theorem event?_told (moves : List (Key × Bool)) {key : Key} {i : Nat} (h : key ∈ sides i) :
    ∃ e, (told moves key).event? = some e ∧ e.key = key ∧
      e.pressed = (sides i).any (·.isDownAfter moves) := by
  have hcode : Key.ofQuartzCode (key.quartzCode.getD 0) = key :=
    Key.ofQuartzCode_chordKeys (Key.mem_chordKeys.2 ⟨i, h⟩)
  refine ⟨_, rfl, hcode, ?_⟩
  show isPress (Key.ofQuartzCode (key.quartzCode.getD 0)) _ = _
  rw [hcode, isPress_iff h, bit_ofQuartz_heldFlags moves (Key.lt_of_mem_sides h)]

theorem getElem?_messages {moves : List (Key × Bool)} {i : Nat} {move : Key × Bool}
    (h : moves[i]? = some move) :
    (messages moves)[i]? = some (told (moves.take (i + 1)) move.1) := by
  simp [messages, h]

/-- **Direction**: the event of each press of a chord key says so. The event of a release does if
the key with the same modifier on the other side is up, and otherwise it says that its key was
pressed. -/
theorem direction_iff {moves : List (Key × Bool)} {i : Nat} {key : Key} {pressed : Bool}
    (h : moves[i]? = some (key, pressed)) (hkey : key ∈ chordKeys) :
    ∃ message e, (messages moves)[i]? = some message ∧ message.event? = some e ∧ e.key = key ∧
      (e.pressed = pressed ↔ pressed = true ∨
        ∀ other, other.modifierBit = key.modifierBit → other ≠ key →
          other.isDownAfter (moves.take (i + 1)) = false) := by
  obtain ⟨b, hside⟩ := Key.mem_chordKeys.1 hkey
  obtain ⟨e, he, hname, hpressed⟩ := event?_told (moves.take (i + 1)) hside
  have hown := Key.isDownAfter_take h
  refine ⟨_, e, getElem?_messages h, he, hname, ?_⟩
  rw [hpressed]
  cases pressed with
  | true =>
    have hany : (sides b).any (·.isDownAfter (moves.take (i + 1))) = true :=
      List.any_eq_true.2 ⟨key, hside, hown⟩
    simp [hany]
  | false =>
    rw [List.any_eq_false]
    constructor
    · intro hall
      apply Or.inr
      intro other hbits _
      exact Bool.eq_false_iff.2 (hall other ((Key.mem_sides_iff hside other).2 hbits))
    · rintro (hfalse | hall) other hother
      · cases hfalse
      · by_cases hne : other = key
        · rw [hne, hown]
          exact Bool.false_ne_true
        · rw [hall other ((Key.mem_sides_iff hside other).1 hother) hne]
          exact Bool.false_ne_true

/-- Both Shift keys go down, and one comes up: its event says that it was pressed once more. -/
theorem release_delivered_as_press :
    ((messages [(.shiftLeft, true), (.shiftRight, true), (.shiftLeft, false)]).filterMap
      Message.event?).map (fun e => (e.key, e.pressed)) =
      [(.shiftLeft, true), (.shiftRight, true), (.shiftLeft, true)] := by
  decide

/-- A Shift key comes up while no other Shift key is down: its event says so. -/
theorem direction_iff_shift :
    [(Key.shiftLeft, true), (.ctrlRight, true), (.shiftLeft, false)][2]? =
        some (Key.shiftLeft, false) ∧ Key.shiftLeft ∈ chordKeys ∧
      ∃ message e, (messages [(.shiftLeft, true), (.ctrlRight, true), (.shiftLeft, false)])[2]? =
        some message ∧ message.event? = some e ∧ e.pressed = false := by
  have hmove : [(Key.shiftLeft, true), (.ctrlRight, true), (.shiftLeft, false)][2]? =
    some (Key.shiftLeft, false) := rfl
  have hkey : Key.shiftLeft ∈ chordKeys := by decide
  obtain ⟨message, e, hmessage, he, -, hdirection⟩ := direction_iff hmove hkey
  refine ⟨hmove, hkey, message, e, hmessage, he, hdirection.2 (.inr ?_)⟩
  intro other hbits hne
  have hside : other ∈ sides 0 := (Key.mem_sides_iff (by decide) other).2 hbits
  simp only [sides, List.mem_cons, List.not_mem_nil, or_false] at hside
  rcases hside with rfl | rfl
  · exact absurd rfl hne
  · rfl

end EventTap

end Keystroke
