import Keystroke.Capture.EventTap
import Keystroke.Proofs.Capture.KeyboardHook
import Keystroke.Proofs.Driver.Quartz
import Keystroke.Proofs.Modifier.Quartz
import Mathlib.Data.List.Forall2

/-!
# What is posted is what is heard

On macOS and on Windows a driver and a capture thread meet at the native events. For each transition
that a driver accepts there is one native event, and the capture thread makes the same transition of
it.

On macOS the event carries the modifiers as flags, so that what is heard has the mask of the driver,
except that NumLock has no flag. On Windows the input says nothing about modifiers, and the hook
works the mask out by itself. What the system makes of an input is known only as far as `Tells`
says.

## Main statements

- `forall₂_sendAll`: from one transition to several, for any driver.
- `heard_as_sent`: on both systems, what is heard is what was sent.
-/

namespace Keystroke

/-! ## Several transitions -/

section SendAll

variable {δ : Type} [KeyboardDriver δ]

/-- Sends transitions in order, and lists the accepted ones, each with the driver after it. -/
def sendAll : List (Key × Bool) → StateM (Rig δ) (List ((Key × Bool) × δ))
  | [] => return []
  | (key, down) :: moves => do
    match ← KeyboardDriver.sendKey key down with
    | .ok () =>
      let driver := (← get).front
      return ((key, down), driver) :: (← sendAll moves)
    | .error _ => sendAll moves

theorem sendAll_cons (key : Key) (down : Bool) (moves : List (Key × Bool)) (r : Rig δ) :
    sendAll ((key, down) :: moves) r =
      match KeyboardDriver.sendKey key down r with
      | (.ok (), r') =>
        (((key, down), r'.front) :: (sendAll moves r').1, (sendAll moves r').2)
      | (.error _, r') => sendAll moves r' := by
  conv => lhs; unfold sendAll
  simp only [bind, StateT.bind]
  generalize KeyboardDriver.sendKey key down r = sent
  obtain ⟨result, r'⟩ := sent
  cases result <;> rfl

/-- What a transition has left behind: nothing to be seen if it was refused, and one native event if
it was accepted. -/
def Leaves {β : Type} (view : List Entry → List β) (R : (Key × Bool) × δ → β → Prop)
    (move : Key × Bool) (r : Rig δ) (after : DriverResult × Rig δ) : Prop :=
  ∃ entries, after.2.host.journal = r.host.journal ++ entries ∧
    match after.1 with
    | .ok () => ∃ native, view entries = [native] ∧ R (move, after.2.front) native
    | .error _ => view entries = []

/-- If each transition leaves its native event behind, several leave theirs in the same order. -/
theorem forall₂_sendAll {β : Type} {view : List Entry → List β}
    {R : (Key × Bool) × δ → β → Prop} {Good : Rig δ → Prop} (hnil : view [] = [])
    (happend : ∀ entries entries', view (entries ++ entries') = view entries ++ view entries')
    (hstep : ∀ key down r, Good r → Good (KeyboardDriver.sendKey key down r).2 ∧
      Leaves view R (key, down) r (KeyboardDriver.sendKey key down r))
    (moves : List (Key × Bool)) {r : Rig δ} (h : Good r) :
    ∃ entries, (sendAll moves r).2.host.journal = r.host.journal ++ entries ∧
      List.Forall₂ R (sendAll moves r).1 (view entries) := by
  induction moves generalizing r with
  | nil =>
    refine ⟨[], (List.append_nil _).symm, ?_⟩
    rw [hnil]
    exact .nil
  | cons move moves ih =>
    obtain ⟨key, down⟩ := move
    obtain ⟨hgood, entries, hjournal, hview⟩ := hstep key down r h
    obtain ⟨entries', hjournal', hrest⟩ := ih hgood
    refine ⟨entries ++ entries', ?_⟩
    rw [happend, ← List.append_assoc, ← hjournal, sendAll_cons]
    generalize KeyboardDriver.sendKey key down r = sent at hjournal' hview hrest ⊢
    obtain ⟨result, r'⟩ := sent
    cases result with
    | error e =>
      rw [show view entries = [] from hview]
      exact ⟨hjournal', hrest⟩
    | ok =>
      obtain ⟨native, hnative, hR⟩ := hview
      rw [hnative]
      exact ⟨hjournal', .cons hR hrest⟩

end SendAll

/-! ## macOS -/

namespace QuartzDriver

/-- The message that an event is for a tap that sees it as an event of its key. -/
def keyMessage (event : QuartzEvent) : EventTap.Message :=
  .key event.code event.flags event.down

/-- A tap makes of the event the transition that was sent, under the modifiers that the driver held
down then; NumLock has no flag. -/
def HeardAs (sent : (Key × Bool) × QuartzDriver) (event : QuartzEvent) : Prop :=
  (keyMessage event).event? =
    some (.of sent.1.1 (sent.2.held.current \ .numLock) sent.1.2)

/-- The driver holds down what a new tracker does after some transitions. -/
def Tracking (r : Rig QuartzDriver) : Prop :=
  ∃ before, r.front.held = ({} : ModifierTracker).after before

theorem leaves_sendKey (key : Key) (down : Bool) (r : Rig QuartzDriver) (h : Tracking r) :
    Tracking (sendKey key down r).2 ∧ Leaves posted HeardAs (key, down) r (sendKey key down r) := by
  obtain ⟨before, hheld⟩ := h
  obtain ⟨e, hresult, hfront, hjournal⟩ | ⟨code, hcode, hresult, hfront, hjournal⟩ :=
    sendKey_cases key down r
  · refine ⟨⟨before, by rw [hfront, hheld]⟩, [], ?_, ?_⟩
    · rw [hjournal, List.append_nil]
    · rw [hresult]
      rfl
  · -- the mask of the event has been there and back through its flags
    have hafter : r.front.held.step key down =
        ({} : ModifierTracker).after (before ++ [(key, down)]) := by
      rw [ModifierTracker.after_append, ← hheld]
      rfl
    refine ⟨⟨before ++ [(key, down)], by rw [hfront, ← hafter]⟩, _, hjournal, ?_⟩
    rw [hresult]
    refine ⟨_, rfl, ?_⟩
    simp only [HeardAs, keyMessage, EventTap.Message.event?, hfront, Modifier.ofQuartz_toQuartz,
      Key.ofQuartzCode_eq hcode, hafter, ModifierTracker.current_after_inter_defined]

end QuartzDriver

/-! ## Windows -/

/-- The inputs of the batches that the machine took whole, by the entries of the journal. -/
def taken (entries : List Entry) : List KeyInput :=
  entries.flatMap fun
    | .sent inputs accepted => if accepted = inputs.length then inputs else []
    | _ => []

theorem taken_append (entries entries' : List Entry) :
    taken (entries ++ entries') = taken entries ++ taken entries' :=
  List.flatMap_append

/-- What the machine says about a batch is whether it took it whole. -/
theorem Host.send_spec (inputs : List KeyInput) (h : Host) :
    ∃ accepted, (h.send inputs).2.journal = h.journal ++ [.sent inputs accepted] ∧
      ((h.send inputs).1 = .ok () ∧ accepted = inputs.length ∨
        ∃ text, (h.send inputs).1 = .error text ∧ accepted ≠ inputs.length) := by
  unfold Host.send
  cases h.windows.fault h.windows.sends with
  | none => exact ⟨inputs.length, rfl, .inl ⟨rfl, rfl⟩⟩
  | some answer =>
    obtain ⟨accepted, text⟩ := answer
    refine ⟨accepted, rfl, ?_⟩
    by_cases hwhole : accepted = inputs.length
    · exact .inl ⟨if_pos hwhole, hwhole⟩
    · exact .inr ⟨text, if_neg hwhole, hwhole⟩

namespace SendInputDriver

/-- The input has the codes of a transition. -/
structure Encodes (move : Key × Bool) (input : KeyInput) : Prop where
  virtualKey : move.1.virtualKey = some input.virtualKey
  extended : input.flags.testBit 0 = move.1.isExtended
  keyUp : input.flags.testBit 1 = !move.2

theorem encodes_keyInput (h : Host) {key : Key} {code : UInt16} (hcode : key.virtualKey = some code)
    (down : Bool) : Encodes (key, down) (keyInput h key code down) := by
  refine ⟨hcode, ?_, ?_⟩
  · simp only [keyInput]
    cases key.isExtended <;> cases down <;> rfl
  · simp only [keyInput]
    cases key.isExtended <;> cases down <;> rfl

/-- A batch is sent with success if the machine takes it whole. -/
theorem send_cases (inputs : List KeyInput) (r : Rig SendInputDriver) :
    ∃ accepted, (send inputs r).2.host.journal = r.host.journal ++ [.sent inputs accepted] ∧
      ((send inputs r).1 = .ok () ∧ accepted = inputs.length ∨
        ∃ e, (send inputs r).1 = .error e ∧ accepted ≠ inputs.length) := by
  obtain ⟨accepted, hjournal, hanswer⟩ := r.host.send_spec inputs
  refine ⟨accepted, ?_⟩
  unfold send
  simp only [bind, StateT.bind, Rig.atHost]
  generalize r.host.send inputs = answer at hjournal hanswer ⊢
  obtain ⟨result, host⟩ := answer
  rcases hanswer with ⟨hresult, hwhole⟩ | ⟨text, hresult, hpart⟩
  · cases hresult
    exact ⟨hjournal, .inl ⟨rfl, hwhole⟩⟩
  · cases hresult
    exact ⟨hjournal, .inr ⟨_, rfl, hpart⟩⟩

theorem leaves_sendKey (key : Key) (down : Bool) (r : Rig SendInputDriver) :
    Leaves taken (fun sent => Encodes sent.1) (key, down) r (sendKey key down r) := by
  unfold sendKey
  cases hready : r.front.ready with
  | false =>
    rw [giveUp hready]
    exact ⟨[], (List.append_nil _).symm, rfl⟩
  | true =>
    rw [goOn hready]
    cases hcode : key.virtualKey with
    | none => exact ⟨[], (List.append_nil _).symm, rfl⟩
    | some code =>
      obtain ⟨accepted, hjournal, ⟨hresult, hwhole⟩ | ⟨e, hresult, hpart⟩⟩ :=
        send_cases [keyInput r.host key code down] r
      · refine ⟨_, hjournal, ?_⟩
        dsimp only
        rw [hresult]
        exact ⟨_, by simp [taken, hwhole], encodes_keyInput r.host hcode down⟩
      · refine ⟨_, hjournal, ?_⟩
        dsimp only
        rw [hresult]
        simpa [taken] using hpart

/-- What the system tells the hook of an input: its code and its two flags. The message may be one
of a system key or not, and the other flags may be anything. -/
structure Tells (input : KeyInput) (n : KeyboardHook.Notification) : Prop where
  code : n.code = 0
  message : n.message % UInt32.size ∈
    if input.flags.testBit 1 then [0x101, 0x105] else [0x100, 0x104]
  virtualKey : n.virtualKey.toUInt16 = input.virtualKey
  extended : n.flags.testBit 0 = input.flags.testBit 0

theorem Encodes.transition? {move : Key × Bool} {input : KeyInput} {n : KeyboardHook.Notification}
    (h : Encodes move input) (htells : Tells input n) : n.transition? = some move := by
  have hpressed : KeyboardHook.pressed? (n.message % UInt32.size) = some move.2 := by
    have hmessage := htells.message
    rw [h.keyUp] at hmessage
    generalize n.message % UInt32.size = message at hmessage ⊢
    cases hdown : move.2 with
    | false =>
      simp only [hdown, Bool.not_false, if_true, List.mem_cons, List.not_mem_nil, or_false]
        at hmessage
      rcases hmessage with rfl | rfl <;> rfl
    | true =>
      simp only [hdown, Bool.not_true, Bool.false_eq_true, if_false, List.mem_cons,
        List.not_mem_nil, or_false] at hmessage
      rcases hmessage with rfl | rfl <;> rfl
  have hextended : (n.flags &&& KeyboardHook.extendedFlag != 0) = move.1.isExtended := by
    rw [← h.extended, ← htells.extended, Nat.testBit, Nat.shiftRight_zero, Nat.land_comm]
    rfl
  unfold KeyboardHook.Notification.transition?
  rw [if_neg (not_not_intro htells.code), hpressed, hextended, htells.virtualKey,
    Key.ofVirtualKey_eq h.virtualKey]
  rfl

/-- Whatever the system tells of the inputs of several transitions, the hook reads these. -/
theorem map_transition? {moves : List (Key × Bool)} {inputs : List KeyInput}
    {ns : List KeyboardHook.Notification} (h : List.Forall₂ Encodes moves inputs)
    (htells : List.Forall₂ Tells inputs ns) :
    ns.map KeyboardHook.Notification.transition? = moves.map some := by
  induction h generalizing ns with
  | nil =>
    cases htells
    rfl
  | cons hmove _ ih =>
    cases htells with
    | cons hn hrest =>
      rw [List.map_cons, List.map_cons, hmove.transition? hn, ih hrest]

end SendInputDriver

/-! ## Both systems -/

/-- For every run of transitions that a driver is sent, what the system's capture makes of the
native events of those that were accepted is these transitions, in the same order. On macOS each has
the mask of the modifiers that the driver, in whatever state it was before, held down after it,
without NumLock. On Windows each has the mask of the hook's own tracker, and while the thread should
keep running there is no other way in which the notifications can be worked off. -/
theorem heard_as_sent :
    (∀ (s : SenderSettings) (h : Host) (xs : List QuartzDriver.Happening)
      (moves : List (Key × Bool)),
      let opened := QuartzDriver.connect s h
      let r := (QuartzDriver.runAll xs ⟨opened.1, opened.2⟩).2
      let run := sendAll moves r
      ∃ entries, run.2.host.journal = r.host.journal ++ entries ∧
        List.Forall₂ QuartzDriver.HeardAs run.1 (posted entries)) ∧
    ∀ (r : Rig SendInputDriver) (moves : List (Key × Bool)),
      let run := sendAll moves r
      let sent := run.1.map (·.1)
      ∃ entries, run.2.host.journal = r.host.journal ++ entries ∧
        ∀ ns, List.Forall₂ SendInputDriver.Tells (taken entries) ns → ∀ t es o,
          (Capture.Ran (KeyboardHook.notifyAll ns t) es o ∧ .looked false ∉ es ↔
            es = (t.events sent).flatMap KeyboardHook.observed ∧
              o = .returned (t.after sent)) := by
  constructor
  · intro s h xs moves opened r
    have htracking : QuartzDriver.Tracking r :=
      ⟨_, (QuartzDriver.stamped_runAll xs ⟨opened.1, opened.2⟩).held⟩
    exact forall₂_sendAll rfl posted_append QuartzDriver.leaves_sendKey moves htracking
  · intro r moves run sent
    -- inputs are the same in every state of the driver
    have hstep : ∀ (key : Key) (down : Bool) (r : Rig SendInputDriver), True → True ∧
        Leaves taken (fun sent => SendInputDriver.Encodes sent.1) (key, down) r
          (KeyboardDriver.sendKey key down r) :=
      fun key down r _ => ⟨trivial, SendInputDriver.leaves_sendKey key down r⟩
    obtain ⟨entries, hjournal, hencodes⟩ :=
      forall₂_sendAll rfl taken_append hstep moves trivial
    refine ⟨entries, hjournal, fun ns htells t es o => ?_⟩
    have hsent : List.Forall₂ SendInputDriver.Encodes sent (taken entries) :=
      List.forall₂_map_left_iff.2 hencodes
    exact KeyboardHook.ran_notifyAll_iff (SendInputDriver.map_transition? hsent htells)

/-- The two enter keys on Windows, the second one told of as a system key; and on macOS a letter
while Shift and NumLock are on. -/
theorem heard_as_sent_enter :
    (let run := sendAll [(.numpadEnter, true), (.enter, true)]
        ⟨SendInputDriver.connect {}, {}⟩
      let ns : List KeyboardHook.Notification := [⟨0x100, 0x0D, 0x11, 0⟩, ⟨0x104, 0x0D, 0x30, 0⟩]
      List.Forall₂ SendInputDriver.Tells (taken run.2.host.journal) ns ∧
        Capture.Ran (KeyboardHook.notifyAll ns {})
          ([.of .numpadEnter ∅ true, .of .enter ∅ true].flatMap KeyboardHook.observed)
          (.returned {})) ∧
    let opened := QuartzDriver.connect {} {}
    let run := sendAll [(.shiftLeft, true), (.numLock, true), (.a, true)]
      (⟨opened.1, opened.2⟩ : Rig QuartzDriver)
    (posted run.2.host.journal).map (fun event => (QuartzDriver.keyMessage event).event?) =
      [some (.of .shiftLeft .shift true), some (.of .numLock .shift true),
        some (.of .a .shift true)] := by
  refine ⟨?_, ?_⟩
  · dsimp only
    obtain ⟨entries, hjournal, hheard⟩ :=
      heard_as_sent.2 ⟨SendInputDriver.connect {}, {}⟩ [(.numpadEnter, true), (.enter, true)]
    have htells : List.Forall₂ SendInputDriver.Tells
        (taken [.sent [⟨0x0D, 0x10D, 1⟩] 1, .sent [⟨0x0D, 0x10D, 0⟩] 1])
        [⟨0x100, 0x0D, 0x11, 0⟩, ⟨0x104, 0x0D, 0x30, 0⟩] :=
      .cons ⟨rfl, by decide, by decide, by decide⟩
        (.cons ⟨rfl, by decide, by decide, by decide⟩ .nil)
    have hentries : entries = [.sent [⟨0x0D, 0x10D, 1⟩] 1, .sent [⟨0x0D, 0x10D, 0⟩] 1] := by
      rw [← List.nil_append entries]
      exact hjournal.symm.trans (by decide +kernel)
    subst hentries
    rw [hjournal]
    exact ⟨htells, ((hheard _ htells {} _ _).2 ⟨rfl, rfl⟩).1⟩
  · decide +kernel

end Keystroke
