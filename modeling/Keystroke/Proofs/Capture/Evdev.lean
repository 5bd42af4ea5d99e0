import Keystroke.Capture.Evdev
import Keystroke.Proofs.Capture.Delivery
import Keystroke.Proofs.Modifier.Tracker

/-!
# Delivery on Linux

The loop of the capture thread goes through polls, through the keyboards that are readable at each
of them, and through the events that each of these gives. All events that it will fetch are known
from its script. It delivers those of them that tell of key transitions, one after the other, with
the masks of a single tracker.

## Main statements

- `transition?_eq`: which raw events tell of a key transition, and of which.
- `plays_loop`: what the loop delivers while the flag is up.
- `loop_delivers`: the delivery of all events, or of those up to the first look at a lowered flag.
-/

namespace Keystroke

/-- What is read from a keyboard at a poll. -/
def PollTurn.batch (turn : PollTurn) (kb : Keyboard) : List InputEvent :=
  match turn.outcome? kb.node with
  | some (.ok batch) => batch
  | _ => []

/-- Whether a keyboard is dropped at a poll: it could not be read for another reason than that there
was nothing to be read. -/
def PollTurn.drops (turn : PollTurn) (kb : Keyboard) : Bool :=
  match turn.outcome? kb.node with
  | some (.error e) => e ≠ .wouldBlock
  | _ => false

namespace Evdev

open Capture (Silent Plays)

/-! ## What is to be delivered -/

/-- Whether a raw event tells of a key transition: it is about a key that goes down, up or down once
more, and not about a button without a name. -/
def isTransition (e : InputEvent) : Bool :=
  e.type = keyType ∧ (e.value = 0 ∨ e.value = 1 ∨ e.value = 2) ∧
    ¬ (Key.ofEvdevCode e.code = .unknown ∧ 0x100 ≤ e.code ∧ e.code ≤ 0x15F)

/-- The key transitions of raw events. -/
def transitions (es : List InputEvent) : List (Key × Bool) :=
  (es.filter isTransition).map fun e => (Key.ofEvdevCode e.code, e.value ≠ 0)

/-- The state of the loop at its beginning. -/
def State.fresh (k : InputLayer) (keyboards : List Keyboard) : State where
  keyboards := keyboards
  tracker := .ofLocks (initialLocks keyboards)
  scanned := k.clock

/-- The state after the keyboards were read that a poll found readable. -/
def State.read (turn : PollTurn) (s : State) : State :=
  { s with
    keyboards := s.keyboards.filter (!turn.drops ·)
    tracker := s.tracker.after (transitions (s.keyboards.flatMap turn.batch)) }

/-- All raw events that the loop fetches: poll by poll, at each poll keyboard by keyboard, and for
each keyboard in the order of its batch. A poll that fails, unless it was interrupted, is the last
one. -/
def fetched (dir : String) : List PollStep → InputLayer → State → List InputEvent
  | [], _, _ => []
  | .failed e wait :: script, k, s =>
    if e = .interrupted then fetched dir script (wait.apply k) (s.rescan k dir) else []
  | .passed turn :: script, k, s =>
    let s := s.rescan k dir
    s.keyboards.flatMap turn.batch ++ fetched dir script (turn.apply k) (s.read turn)

/-! ## Events and batches -/

theorem isButton_iff (code : UInt16) : isButton code = true ↔ 0x100 ≤ code ∧ code ≤ 0x15F := by
  simp only [isButton, Bool.and_eq_true, decide_eq_true_eq, UInt16.le_iff_toNat_le,
    UInt16.lt_iff_toNat_lt]
  exact and_congr_right fun _ => Nat.lt_succ_iff

theorem pressed?_eq (value : Int) :
    pressed? value =
      if value = 0 ∨ value = 1 ∨ value = 2 then some (decide (value ≠ 0)) else none := by
  unfold pressed?
  by_cases h0 : value = 0
  · simp [h0]
  · by_cases h : value = 1 ∨ value = 2 <;> simp [h0, h]

theorem transition?_eq (e : InputEvent) :
    transition? e =
      if isTransition e then some (Key.ofEvdevCode e.code, decide (e.value ≠ 0)) else none := by
  unfold transition?
  rw [pressed?_eq]
  by_cases htype : e.type = keyType
  · by_cases hvalue : e.value = 0 ∨ e.value = 1 ∨ e.value = 2
    · by_cases hbutton :
          Key.ofEvdevCode e.code = .unknown ∧ 0x100 ≤ e.code ∧ e.code ≤ 0x15F <;>
        simp only [htype, hvalue, hbutton, isTransition, isButton_iff, bne_self_eq_false,
          if_true, if_false, true_and, not_true, not_false_iff, decide_true, decide_false,
          Bool.false_eq_true]
    · simp [isTransition, htype, hvalue]
  · simp [isTransition, htype]

example : transitions [⟨1, 30, 1⟩, ⟨0, 0, 0⟩, ⟨1, 0x110, 1⟩, ⟨1, 30, 2⟩, ⟨1, 30, 0⟩] =
    [(.a, true), (.a, true), (.a, false)] := by decide

theorem transitions_cons (e : InputEvent) (es : List InputEvent) :
    transitions (e :: es) = (transition? e).toList ++ transitions es := by
  rw [transition?_eq]
  cases h : isTransition e <;> simp [transitions, h]

theorem transitions_append (es es' : List InputEvent) :
    transitions (es ++ es') = transitions es ++ transitions es' := by
  simp [transitions]

/-- The events that a batch of raw events gives, and the tracker that has seen them all. -/
def decodeAll : List InputEvent → ModifierTracker → List KeyEvent × ModifierTracker
  | [], t => ([], t)
  | e :: es, t =>
    let (event?, t) := decode e t
    let (events, t) := decodeAll es t
    (event?.toList ++ events, t)

theorem decodeAll_eq (es : List InputEvent) (t : ModifierTracker) :
    decodeAll es t = (t.events (transitions es), t.after (transitions es)) := by
  induction es generalizing t with
  | nil => rfl
  | cons e es ih =>
    rw [transitions_cons]
    cases h : transition? e with
    | none => simp [decodeAll, decode, h, ih]
    | some move =>
      obtain ⟨key, pressed⟩ := move
      simp [decodeAll, decode, h, ih, ModifierTracker.onKey, ModifierTracker.events,
        ModifierTracker.after_cons]

/-- The events that several batches give, batch by batch, and the tracker that has seen them all. -/
def decodeBatches :
    List (List InputEvent) → ModifierTracker → List (List KeyEvent) × ModifierTracker
  | [], t => ([], t)
  | batch :: batches, t =>
    let (events, t) := decodeAll batch t
    let (others, t) := decodeBatches batches t
    (events :: others, t)

theorem map_decodeBatches (batches : List (List InputEvent)) (t : ModifierTracker) :
    (decodeBatches batches t).1.map (·.map fun e => (e.key, e.pressed)) =
      batches.map transitions := by
  induction batches generalizing t with
  | nil => rfl
  | cons batch batches ih =>
    simp only [decodeBatches, decodeAll_eq, List.map_cons, ModifierTracker.map_events, ih]

theorem flatten_decodeBatches (batches : List (List InputEvent)) (t : ModifierTracker) :
    (decodeBatches batches t).1.flatten = t.events (batches.map transitions).flatten ∧
      (decodeBatches batches t).2 = t.after (batches.map transitions).flatten := by
  induction batches generalizing t with
  | nil => exact ⟨rfl, rfl⟩
  | cons batch batches ih =>
    simp only [decodeBatches, decodeAll_eq, List.map_cons, List.flatten_cons, ih,
      ModifierTracker.events_append, ModifierTracker.after_append, and_self]

variable {α : Type} {es : List KeyEvent}

/-- What is delivered by a program that delivers a batch and goes on. -/
theorem plays_deliverBatch {f : Option ModifierTracker → Capture α} (batch : List InputEvent)
    (t : ModifierTracker) (c : Bool) (down : Silent (f none))
    (up : Plays true (f (some (t.after (transitions batch)))) es) :
    Plays c ((deliverBatch batch t).bind f) (t.events (transitions batch) ++ es) := by
  induction batch generalizing t c with
  | nil => exact .running c down up
  | cons e batch ih =>
    rw [transitions_cons] at up ⊢
    -- the look before the event serves for its delivery; the next event has its own look
    refine .running c down ?_
    cases h : transition? e with
    | none =>
      simp only [h, Option.toList_none, List.nil_append] at up ⊢
      simpa [Capture.bind, decode, h] using ih t true up
    | some move =>
      obtain ⟨key, pressed⟩ := move
      simp only [h, Option.toList_some, List.singleton_append] at up ⊢
      simpa [Capture.bind, Capture.send, decode, h, ModifierTracker.onKey,
        ModifierTracker.events] using
        Plays.deliver (.of key (t.step key pressed).current pressed)
          (ih (t.step key pressed) false up)

/-- What is delivered by a program that reads the keyboards and goes on. -/
theorem plays_readReady {f : Option (List String × ModifierTracker) → Capture α} (turn : PollTurn)
    (keyboards : List Keyboard) (t : ModifierTracker) (down : Silent (f none))
    (up : Plays true (f (some ((keyboards.filter turn.drops).map (·.node),
      t.after (transitions (keyboards.flatMap turn.batch))))) es) :
    Plays true ((readReady turn keyboards t).bind f)
      (t.events (transitions (keyboards.flatMap turn.batch)) ++ es) := by
  -- what is done with the nodes that were lost differs from keyboard to keyboard, hence any `f`
  induction keyboards generalizing t f with
  | nil => exact up
  | cons kb keyboards ih =>
    simp only [List.flatMap_cons, transitions_append, ModifierTracker.events_append,
      ModifierTracker.after_append] at up ⊢
    unfold readReady
    split
    next h =>
      have hbatch : turn.batch kb = [] := by simp [PollTurn.batch, h]
      have hdrops : turn.drops kb = false := by simp [PollTurn.drops, h]
      simp only [hbatch, hdrops, List.filter_cons] at up ⊢
      exact ih t down up
    next batch h =>
      have hbatch : turn.batch kb = batch := by simp [PollTurn.batch, h]
      have hdrops : turn.drops kb = false := by simp [PollTurn.drops, h]
      simp only [hbatch, hdrops, List.filter_cons, List.append_assoc] at up ⊢
      rw [Capture.bind_eq, Capture.bind_assoc]
      exact plays_deliverBatch batch t true down (ih (t.after (transitions batch)) down up)
    next e h =>
      have hbatch : turn.batch kb = [] := by simp [PollTurn.batch, h]
      simp only [hbatch, List.filter_cons] at up ⊢
      split
      next hblock =>
        have hdrops : turn.drops kb = false := by simp [PollTurn.drops, h, hblock]
        simp only [hdrops] at up
        exact ih t down up
      next hblock =>
        have hdrops : turn.drops kb = true := by simp [PollTurn.drops, h, hblock]
        simp only [hdrops] at up
        rw [Capture.bind_eq, Capture.bind_assoc]
        exact ih t down up

/-- A keyboard is dropped when its node is among those that could not be read. -/
theorem filter_lost (turn : PollTurn) (keyboards : List Keyboard) :
    keyboards.filter (fun kb => !((keyboards.filter turn.drops).map (·.node)).contains kb.node) =
      keyboards.filter (!turn.drops ·) := by
  refine List.filter_congr fun kb hkb => congrArg (!·) ?_
  rw [Bool.eq_iff_iff, List.contains_iff_mem, List.mem_map]
  constructor
  · -- two keyboards with one node are read alike
    rintro ⟨kb', hkb', hnode⟩
    have hdrops := (List.mem_filter.1 hkb').2
    simpa only [PollTurn.drops, hnode] using hdrops
  · intro hdrops
    exact ⟨kb, List.mem_filter.2 ⟨hkb, hdrops⟩, rfl⟩

theorem tracker_rescan (s : State) (k : InputLayer) (dir : String) :
    (s.rescan k dir).tracker = s.tracker := by
  unfold State.rescan
  split <;> rfl

/-- What the loop delivers while the flag is up. -/
theorem plays_loop (dir : String) (timeout : Nat) (script : List PollStep) (k : InputLayer)
    (s : State) (c : Bool) :
    Plays c (loop dir timeout script k s)
      (s.tracker.events (transitions (fetched dir script k s))) := by
  induction script generalizing k s c with
  | nil => exact .idle c (.done ())
  | cons step script ih =>
    -- a rescan changes the keyboards and not the tracker
    refine .running c (.done ()) (.record _ ?_)
    rw [← tracker_rescan s k dir]
    cases step with
    | failed e wait =>
      simp only [fetched]
      split
      next h =>
        exact ih (wait.apply k) (s.rescan k dir) true
      next h =>
        exact .done true ()
    | passed turn =>
      simp only [fetched, transitions_append, ModifierTracker.events_append]
      -- the keyboards that are left are those that `State.read` keeps
      refine plays_readReady turn _ _ (.done ()) ?_
      simp only [filter_lost]
      exact ih (turn.apply k) ((s.rescan k dir).read turn) true

/-- The lock of a bit is on at the start if its LED is lit, which is 1 for CapsLock and 0 for
NumLock, on the first keyboard whose LEDs can be read. -/
def IsLit (keyboards : List Keyboard) (i : Nat) : Prop :=
  ∃ before kb after lit, keyboards = before ++ kb :: after ∧
    (∀ other ∈ before, ∃ e, other.device.leds = .error e) ∧ kb.device.leds = .ok lit ∧
    (i = 4 ∧ 1 ∈ lit ∨ i = 5 ∧ 0 ∈ lit)

theorem locks?_eq_none_iff (d : InputDevice) : d.locks? = none ↔ ∃ e, d.leds = .error e := by
  unfold InputDevice.locks?
  cases d.leds <;> simp

theorem bit_locks? {d : InputDevice} {lit : List UInt16} (h : d.leds = .ok lit) :
    ∃ m, d.locks? = some m ∧ ∀ i, m.bit i = true ↔ i = 4 ∧ 1 ∈ lit ∨ i = 5 ∧ 0 ∈ lit := by
  refine ⟨_, by rw [InputDevice.locks?, h], fun i => ?_⟩
  have hbit : Modifier.bit .capsLock i = decide (i = 4) ∧
      Modifier.bit .numLock i = decide (i = 5) := by
    rcases Nat.lt_or_ge i 8 with hlt | hge
    · revert i
      decide
    · rw [Modifier.bit_of_le _ _ hge, Modifier.bit_of_le _ _ hge]
      simp only [Bool.false_eq, decide_eq_false_iff_not]
      omega
  by_cases hcaps : 1 ∈ lit <;> by_cases hnum : 0 ∈ lit <;>
    simp [InputDevice.capsLockLed, InputDevice.numLockLed, hcaps, hnum, hbit]

theorem bit_initialLocks_of_first {before after : List Keyboard} {kb : Keyboard}
    {lit : List UInt16} (hbefore : ∀ other ∈ before, ∃ e, other.device.leds = .error e)
    (hlit : kb.device.leds = .ok lit) (i : Nat) :
    (initialLocks (before ++ kb :: after)).bit i = true ↔ i = 4 ∧ 1 ∈ lit ∨ i = 5 ∧ 0 ∈ lit := by
  obtain ⟨m, hm, hbits⟩ := bit_locks? hlit
  have hfirst : (before ++ kb :: after).findSome? (fun kb => kb.device.locks?) = some m :=
    List.findSome?_eq_some_iff.2 ⟨before, kb, after, rfl, hm,
      fun other hother => (locks?_eq_none_iff _).2 (hbefore other hother)⟩
  rw [initialLocks, hfirst, Option.getD_some]
  exact hbits i

/-- The locks at the start are those that the LEDs show. -/
theorem bit_initialLocks (keyboards : List Keyboard) (i : Nat) :
    (initialLocks keyboards).bit i = true ↔ IsLit keyboards i := by
  constructor
  · intro hbit
    cases hfirst : keyboards.findSome? fun kb => kb.device.locks? with
    | none =>
      rw [initialLocks, hfirst, Option.getD_none, Modifier.bit_empty] at hbit
      cases hbit
    | some m =>
      obtain ⟨before, kb, after, rfl, hkb, hbefore⟩ := List.findSome?_eq_some_iff.1 hfirst
      cases hleds : kb.device.leds with
      | error e =>
        rw [(locks?_eq_none_iff _).2 ⟨e, hleds⟩] at hkb
        cases hkb
      | ok lit =>
        have hbefore := fun other hother => (locks?_eq_none_iff _).1 (hbefore other hother)
        exact ⟨before, kb, after, lit, rfl, hbefore, hleds,
          (bit_initialLocks_of_first hbefore hleds i).1 hbit⟩
  · rintro ⟨before, kb, after, lit, rfl, hbefore, hleds, hlit⟩
    exact (bit_initialLocks_of_first hbefore hleds i).2 hlit

/-- **Delivery of the loop**: of all events that the loop fetches those that tell of key transitions
are delivered, through a tracker that begins with the locks shown by the LEDs. -/
theorem loop_delivers (dir : String) (timeout : Nat) (script : List PollStep) (k : InputLayer)
    (keyboards : List Keyboard) :
    (∀ i, (initialLocks keyboards).bit i = true ↔ IsLit keyboards i) ∧
    (loop dir timeout script k (.fresh k keyboards)).Delivers
      ((ModifierTracker.ofLocks (initialLocks keyboards)).events
        (transitions (fetched dir script k (.fresh k keyboards)))) :=
  ⟨bit_initialLocks keyboards,
    Capture.delivers_of_plays (plays_loop dir timeout script k (.fresh k keyboards) false)⟩

end Evdev

/-- A session whose keyboards could be opened delivers what its loop does. -/
theorem EvdevMechanism.program_delivers (c : EvdevMechanism) {keyboards : List Keyboard}
    (h : Evdev.openAll c.layer c.settings.deviceDir = .ok keyboards) :
    c.program.Delivers ((ModifierTracker.ofLocks (Evdev.initialLocks keyboards)).events
      (Evdev.transitions (Evdev.fetched c.settings.deviceDir c.script c.layer
        (.fresh c.layer keyboards)))) := by
  refine Capture.delivers_of_plays (c := false) ?_
  simp only [program, h]
  exact .report _ (Evdev.plays_loop _ _ c.script c.layer (.fresh c.layer keyboards) false)

end Keystroke
