import Keystroke.Capture.Evdev
import Keystroke.Driver.Uinput
import Keystroke.Proofs.Capture.Evdev
import Keystroke.Proofs.Key.Evdev

/-!
# What the Linux driver writes

## Main statements

- `lookup_codeTable`: the driver looks up the code that every key has.
- `sendKey_eq`: a transition of a key that has a code is written as one event.
- `transitions_keyEvent`: that event tells of the same transition.
-/

namespace Keystroke

namespace UinputDriver

theorem lookup_filterMap {α β : Type} [BEq α] [LawfulBEq α] (f : α → Option β) (l : List α)
    (a : α) : (l.filterMap fun x => (f x).map fun b => (x, b)).lookup a =
      if l.contains a then f a else none := by
  induction l with
  | nil => rfl
  | cons x l ih =>
    by_cases hx : a = x
    · -- without a value the element leaves no pair, nor does another copy of it
      subst hx
      cases hf : f a with
      | none => simp [hf, ih]
      | some b => simp [hf]
    · have hbeq : (a == x) = false := by simpa using hx
      cases hf : f x with
      | none => simp [hf, ih, hx]
      | some b => simp [hf, ih, hx, List.lookup_cons, hbeq]

/-- The driver looks up the code that every key has. -/
theorem lookup_codeTable (key : Key) : codeTable.lookup key = key.evdevCode := by
  unfold codeTable
  rw [lookup_filterMap]
  split
  next => rfl
  next h =>
    by_cases hkey : key = .unknown
    · rw [hkey]
      rfl
    · exact absurd (List.contains_iff_mem.2 (Key.mem_all hkey)) h

/-- The driver holds a device, and knows the codes of the keys. -/
structure Opened (d : UinputDriver) : Prop where
  device : d.device = true
  codes : d.codes = codeTable

/-- The machine refuses no write. -/
def WritesAll (h : Host) : Prop := ∀ n, h.uinput.fault n = none

/-- A driver that could create its device is opened, and the machine is as willing as before. -/
theorem opened_connect (s : SenderSettings) {h : Host} (hr : h.uinput.refusal = none)
    (hw : WritesAll h) : (connect s h).1.Opened ∧ WritesAll (connect s h).2 := by
  -- to wait for the device leaves a trace in the journal only
  have hsettle : ∀ h : Host, WritesAll h → WritesAll (settle s h) := by
    intro h hw
    unfold settle
    split
    · exact hw
    · exact hw
  simp only [connect, Host.createDevice, hr]
  exact ⟨⟨rfl, rfl⟩, hsettle _ hw⟩

/-- The machine after a batch was written. -/
def wrote (batch : List InputEvent) (h : Host) : Host :=
  { h with uinput := { h.uinput with writes := h.uinput.writes + 1 } }.record (.wrote batch)

variable {r : Rig UinputDriver}

theorem emit_eq (hw : WritesAll r.host) (batch : List InputEvent) :
    emit batch r = (.ok (), ⟨r.front, wrote batch r.host⟩) := by
  have hwrite : Host.write batch r.host = (.ok (), wrote batch r.host) := by
    simp only [Host.write, hw r.host.uinput.writes, wrote]
  have hhost : Rig.atHost (Host.write batch) r = (.ok (), ⟨r.front, wrote batch r.host⟩) := by
    simp only [Rig.atHost, hwrite]
  simp only [emit, bind, StateT.bind, hhost]
  rfl

/-- An opened driver gives up on a key without a code, and tries to write a transition of any
other. -/
theorem sendKey_of_opened (ho : Opened r.front) (key : Key) (down : Bool) :
    sendKey key down r =
      match key.evdevCode with
      | none => (.error (.unmappedKey key), r)
      | some code => emit [keyEvent code down] r := by
  have hlookup : r.front.codes.lookup key = key.evdevCode := by rw [ho.codes, lookup_codeTable]
  change (if (!r.front.device) = true then (pure (.error .notReady) : StateM _ DriverResult)
    else match r.front.codes.lookup key with
      | none => pure (.error (.unmappedKey key))
      | some code => emit [keyEvent code down]) r = _
  rw [ho.device, hlookup]
  cases key.evdevCode <;> rfl

/-- A transition of a key that has a code is written as one event. -/
theorem sendKey_eq (ho : Opened r.front) (hw : WritesAll r.host) (key : Key) (down : Bool) :
    sendKey key down r =
      match key.evdevCode with
      | none => (.error (.unmappedKey key), r)
      | some code => (.ok (), ⟨r.front, wrote [keyEvent code down] r.host⟩) := by
  rw [sendKey_of_opened ho]
  cases key.evdevCode with
  | none => rfl
  | some code => exact emit_eq hw _

/-- An opened driver tries to write a batch without events for a flush. -/
theorem flush_of_opened (ho : Opened r.front) : KeyboardDriver.flush r = emit [] r := by
  change (if r.front.device = true then emit [] else pure (.ok ())) r = _
  rw [ho.device]
  rfl

/-- A flush is written as a batch without events. -/
theorem flush_eq (ho : Opened r.front) (hw : WritesAll r.host) :
    KeyboardDriver.flush r = (.ok (), ⟨r.front, wrote [] r.host⟩) := by
  rw [flush_of_opened ho]
  exact emit_eq hw []

/-- The event of a transition tells of the same transition. -/
theorem transitions_keyEvent {key : Key} {code : UInt16} (h : key.evdevCode = some code)
    (down : Bool) : Evdev.transitions [keyEvent code down] = [(key, down)] := by
  have hkey := Key.ofEvdevCode_eq h
  have hne : key ≠ .unknown := by
    rintro rfl
    cases h
  cases down <;>
    simp [Evdev.transitions, Evdev.isTransition, keyEvent, keyEventType, Evdev.keyType, hkey, hne]

end UinputDriver

end Keystroke
