import Keystroke.Driver.Quartz
import Keystroke.Driver.Recorder
import Keystroke.Driver.SendInput
import Keystroke.Driver.Uinput
import Keystroke.Proofs.Modifier.Bits
import Keystroke.Proofs.Sender.Operation

/-!
# Drivers that are not ready

A driver that is not ready refuses every key, every character and every text, and does nothing to
its machine. The drivers look at their readiness in different places: before anything else, where
the device is taken out of an option, or once for each character. The macOS driver does the last,
so it takes the empty text whether or not it is ready.

A sender over a driver that is not ready fails at all that it has to send.

## Main statements

- `perform_of_not_ready`: how the operations of a sender fail.
- `refuses_unless_ready`: what the four drivers and the senders over them refuse.
- `empty_text_taken`: the text that the macOS driver takes without its permission.
-/

namespace Keystroke

variable {δ : Type} [KeyboardDriver δ]

/-- Nothing can be sent: keys, characters and texts are errors, the taken texts apart, and all of
them leave the driver and the machine as they are. -/
structure Refuses (taken : String → Prop) (r : Rig δ) : Prop where
  sendKey (key : Key) (down : Bool) : ∃ e, KeyboardDriver.sendKey key down r = (.error e, r)
  typeChar (c : Char) : ∃ e, KeyboardDriver.typeChar c r = (.error e, r)
  typeText (s : String) : (KeyboardDriver.typeText s r).2 = r ∧
    (Sender.succeeded (KeyboardDriver.typeText s r).1 = true ↔ taken s)

theorem Refuses.of_errors {r : Rig δ}
    (hkey : ∀ key down, ∃ e, KeyboardDriver.sendKey key down r = (.error e, r))
    (hchar : ∀ c, ∃ e, KeyboardDriver.typeChar c r = (.error e, r))
    (htext : ∀ s, ∃ e, KeyboardDriver.typeText s r = (.error e, r)) :
    Refuses (fun _ => False) r := by
  refine ⟨hkey, hchar, fun s => ?_⟩
  obtain ⟨e, he⟩ := htext s
  rw [he]
  exact ⟨rfl, by simp [Sender.succeeded]⟩

/-! ## Senders -/

namespace Modifier

/-- Each chord modifier in a mask by itself has one bit. -/
theorem exists_chordOrder {i : Nat} (hi : i < 4) :
    ∃ part ∈ chordOrder, ∀ j, part.bit j = true → j = i := by
  have hall : ∀ i < 4, ∃ part ∈ chordOrder, ∀ j < 8, part.bit j = true → j = i := by decide
  obtain ⟨part, hpart, hbit⟩ := hall i hi
  refine ⟨part, hpart, fun j hj => ?_⟩
  rcases Nat.lt_or_ge j 8 with hlt | hge
  · exact hbit j hlt hj
  · rw [bit_of_le _ _ hge] at hj
    cases hj

theorem leftKeys_ne_nil {m : Modifier} (h : m ∩ .chord ≠ ∅) : m.leftKeys ≠ [] := by
  intro hnil
  have hbits : m.chordBits = [] := by
    have hmap := m.map_leftKey?_chordBits
    rw [hnil] at hmap
    exact List.map_eq_nil_iff.1 hmap
  apply h
  apply ext_bit
  intro i _
  rw [bit_inter, bit_chord, bit_empty]
  rcases Nat.lt_or_ge i 4 with hlt | hge
  · obtain ⟨part, hpart, hbit⟩ := exists_chordOrder hlt
    have hnot : ¬ m.contains part = true := List.filter_eq_nil_iff.1 hbits part hpart
    have hclear : m.bit i = false := by
      cases hset : m.bit i with
      | false => rfl
      | true =>
        -- the part has no other bit, so it would be contained in the mask
        exact absurd (contains_iff_bit.2 fun j hj => by rw [hbit j hj]; exact hset) hnot
    rw [hclear, Bool.false_and]
  · simp [Nat.not_lt.2 hge]

end Modifier

namespace Sender

/-- Whether an operation has something to send, or to make the machine take notice of. -/
def Operation.sends : Operation → Bool
  | .hold mask | .release mask => mask ∩ .chord ≠ ∅
  | .requestPermissions | .setKeyDelay _ => false
  | _ => true

/-- The text that an operation asks the driver to type, if it does. -/
def Operation.text? : Operation → Option String
  | .typeText s => some s
  | .typeUtf32 values => (charsOf values).toOption.map String.ofList
  | _ => none

end Sender

/-- A kind of driver refuses to send while it is not ready, and does not become ready by waiting. -/
structure RefusesUnready (δ : Type) [KeyboardDriver δ] (taken : String → Prop) : Prop where
  refuses (r : Rig δ) (h : KeyboardDriver.isReady r.front = false) : Refuses taken r
  delay (r : Rig δ) (h : KeyboardDriver.isReady r.front = false) :
    KeyboardDriver.isReady (KeyboardDriver.delay r).2.front = false

namespace Sender

variable {α β : Type}

/-- While its driver is not ready, a sender comes to a result of a kind by the action, and its
driver is still not ready. -/
def Yields (act : StateM (Rig (Sender δ)) α) (result : α → Prop) : Prop :=
  ∀ r, r.front.isReady = false → result (act r).1 ∧ (act r).2.front.isReady = false

/-- The action fails while the driver is not ready. -/
abbrev Fails (act : StateM (Rig (Sender δ)) Bool) : Prop := Yields act (· = false)

theorem Yields.pure {result : α → Prop} {a : α} (h : result a) :
    Yields (δ := δ) (pure a) result :=
  fun _ hr => ⟨h, hr⟩

theorem Yields.bind {act : StateM (Rig (Sender δ)) α} {result : α → Prop}
    {next : α → StateM (Rig (Sender δ)) β} {result' : β → Prop} (h : Yields act result)
    (hnext : ∀ a, result a → Yields (next a) result') : Yields (act >>= next) result' := by
  intro r hr
  obtain ⟨hresult, hstate⟩ := h r hr
  exact hnext _ hresult _ hstate

/-- If an action fails for every key, it fails for several of them. -/
theorem fails_forKeys {act : Key → StateM (Rig (Sender δ)) Bool} (h : ∀ key, Fails (act key))
    (keys : List Key) : Yields (forKeys act keys) (· = keys.isEmpty) := by
  induction keys with
  | nil => exact Yields.pure rfl
  | cons key keys ih =>
    refine (h key).bind fun done hdone => ih.bind fun others _ => Yields.pure ?_
    rw [hdone, Bool.false_and]
    rfl

variable {taken : String → Prop}

theorem yields_account (f : Modifier → Modifier) : Yields (δ := δ) (account f) fun _ => True :=
  fun _ hr => ⟨trivial, hr⟩

section

variable (hδ : RefusesUnready δ taken)
include hδ

theorem fails_send (key : Key) (down : Bool) : Fails (δ := δ) (send key down) := by
  intro r hr
  obtain ⟨e, he⟩ := (hδ.refuses ⟨r.front.driver, r.host⟩ hr).sendKey key down
  have hdrive : drive (KeyboardDriver.sendKey key down) r = (.error e, r) := by
    simp only [drive, he]
  simp only [send, bind, StateT.bind, hdrive]
  exact ⟨rfl, hr⟩

theorem yields_delay : Yields (δ := δ) (drive KeyboardDriver.delay) fun _ => True :=
  fun r hr => ⟨trivial, hδ.delay ⟨r.front.driver, r.host⟩ hr⟩

theorem fails_keyDown (key : Key) : Fails (δ := δ) (keyDown key) :=
  (yields_account _).bind fun _ _ => fails_send hδ key true

theorem fails_keyUp (key : Key) : Fails (δ := δ) (keyUp key) :=
  (fails_send hδ key false).bind fun _ hsent =>
    (yields_account _).bind fun _ _ => Yields.pure hsent

theorem fails_tap (key : Key) : Fails (δ := δ) (tap key) := by
  refine (fails_keyDown hδ key).bind fun done hdone => ?_
  rw [hdone]
  exact Yields.pure rfl

theorem yields_hold (mask : Modifier) :
    Yields (δ := δ) (hold mask) (· = mask.leftKeys.isEmpty) := by
  rw [hold_eq]
  exact fails_forKeys (fails_keyDown hδ) mask.leftKeys

theorem yields_release (mask : Modifier) :
    Yields (δ := δ) (release mask) (· = mask.leftKeys.isEmpty) := by
  rw [release_eq]
  exact fails_forKeys (fails_keyUp hδ) mask.leftKeys

/-- A combination fails even without modifiers, for then it comes to the tap. -/
theorem fails_combo (mask : Modifier) (key : Key) : Fails (δ := δ) (combo mask key) := by
  have hend : ∀ tapped : Bool, tapped = false →
      Fails (δ := δ) (do let _ ← release mask; return tapped) :=
    fun tapped h => (yields_release hδ mask).bind fun _ _ => Yields.pure h
  refine (yields_hold hδ mask).bind fun held _ => ?_
  cases held with
  | false => exact hend false rfl
  | true =>
    exact (yields_delay hδ).bind fun _ _ => (fails_tap hδ key).bind fun tapped htapped =>
      (yields_delay hδ).bind fun _ _ => hend tapped htapped

theorem typeText_iff {r : Rig (Sender δ)} (hr : r.front.isReady = false) (s : String) :
    (typeText s r).1 = true ↔ taken s :=
  ((hδ.refuses ⟨r.front.driver, r.host⟩ hr).typeText s).2

theorem fails_typeChar (value : UInt32) : Fails (δ := δ) (typeChar value) := by
  intro r hr
  unfold typeChar
  cases charOf? value with
  | none => exact ⟨rfl, hr⟩
  | some c =>
    obtain ⟨e, he⟩ := (hδ.refuses ⟨r.front.driver, r.host⟩ hr).typeChar c
    have hdrive : drive (KeyboardDriver.typeChar c) r = (.error e, r) := by
      simp only [drive, he]
    simp only [bind, StateT.bind, hdrive]
    exact ⟨rfl, hr⟩

/-- While its driver is not ready, a sender fails at all that there is to be sent, but for the texts
that the driver takes without doing anything. -/
theorem perform_of_not_ready {r : Rig (Sender δ)} (hr : r.front.isReady = false) {op : Operation}
    (hop : op.sends = true) : (perform op r).1 = true ↔ ∃ s ∈ op.text?, taken s := by
  -- a failure is as it should be where nothing is to be typed
  have hfails : ∀ {act : StateM (Rig (Sender δ)) Bool}, Fails act → op.text? = none →
      ((act r).1 = true ↔ ∃ s ∈ op.text?, taken s) := by
    intro act hact hnone
    simp [(hact r hr).1, hnone]
  have hkeys : ∀ {mask : Modifier} {act : StateM (Rig (Sender δ)) Bool},
      Yields act (· = mask.leftKeys.isEmpty) → mask ∩ .chord ≠ ∅ → Fails act := by
    intro mask act hact hmask r hr
    obtain ⟨hresult, hstate⟩ := hact r hr
    exact ⟨hresult.trans (List.isEmpty_eq_false_iff.2 (Modifier.leftKeys_ne_nil hmask)), hstate⟩
  cases op with
  | keyDown key => exact hfails (fails_keyDown hδ key) rfl
  | keyUp key => exact hfails (fails_keyUp hδ key) rfl
  | tap key => exact hfails (fails_tap hδ key) rfl
  | combo mask key => exact hfails (fails_combo hδ mask key) rfl
  | hold mask => exact hfails (hkeys (yields_hold hδ mask) (of_decide_eq_true hop)) rfl
  | release mask => exact hfails (hkeys (yields_release hδ mask) (of_decide_eq_true hop)) rfl
  | releaseAll => exact hfails (hkeys (yields_release hδ .chord) (by decide)) rfl
  | typeText s =>
    change (typeText s r).1 = true ↔ ∃ s' ∈ some s, taken s'
    simp [typeText_iff hδ hr s]
  | typeUtf32 values =>
    change (typeUtf32 values r).1 = true ↔
      ∃ s ∈ (charsOf values).toOption.map String.ofList, taken s
    unfold typeUtf32
    cases charsOf values with
    | error value =>
      change false = true ↔ ∃ s ∈ none, taken s
      simp
    | ok cs =>
      change (typeText (String.ofList cs) r).1 = true ↔ ∃ s ∈ some (String.ofList cs), taken s
      simp [typeText_iff hδ hr]
  | typeChar value => exact hfails (fails_typeChar hδ value) rfl
  | flush =>
    have hflush : (flush r).1 = false := by
      rw [flush_eq, hr]
      rfl
    change (flush r).1 = true ↔ _
    simp [hflush, Operation.text?]
  | requestPermissions | setKeyDelay => cases hop

end

end Sender

/-! ## Drivers -/

omit [KeyboardDriver δ] in
/-- What first looks at the readiness of the driver gives up if there is none. -/
theorem giveUp {ready : Rig δ → Bool} {rest : Rig δ → StateM (Rig δ) DriverResult} {r : Rig δ}
    (h : ready r = false) :
    (do
      let r ← get
      if !ready r then return .error .notReady
      rest r : StateM (Rig δ) DriverResult) r = (.error .notReady, r) := by
  change (if (!ready r) = true then (pure (.error .notReady) : StateM (Rig δ) DriverResult)
    else rest r) r = _
  rw [h]
  rfl

omit [KeyboardDriver δ] in
/-- It goes on if there is. -/
theorem goOn {ready : Rig δ → Bool} {rest : Rig δ → StateM (Rig δ) DriverResult} {r : Rig δ}
    (h : ready r = true) :
    (do
      let r ← get
      if !ready r then return .error .notReady
      rest r : StateM (Rig δ) DriverResult) r = rest r r := by
  change (if (!ready r) = true then (pure (.error .notReady) : StateM (Rig δ) DriverResult)
    else rest r) r = _
  rw [h]
  rfl

theorem UinputDriver.refusesUnready : RefusesUnready UinputDriver fun _ => False where
  refuses r h := by
    refine .of_errors (fun key down => ⟨.notReady, ?_⟩) (fun _ => ⟨_, rfl⟩) (fun _ => ⟨_, rfl⟩)
    change sendKey key down r = _
    unfold sendKey
    exact giveUp h
  delay _ h := h

namespace Recorder

theorem accept_of_error {check : Recorder → DriverResult} {r : Rig Recorder} {e : DriverError}
    (h : check r.front = .error e) (op : Op) : accept check op r = (.error e, r) := by
  simp only [accept, bind, StateT.bind, get, getThe, MonadStateOf.get, StateT.get, pure, h]
  rfl

theorem refusesUnready : RefusesUnready Recorder fun _ => False where
  refuses r h := by
    have hready : r.front.ready = false := h
    have hkey : ∀ key, r.front.checkKey key = .error .notReady := by
      simp [checkKey, hready]
    have htext : r.front.checkText = .error .notReady := by
      simp [checkText, hready]
    exact .of_errors (fun key _ => ⟨_, accept_of_error (hkey key) _⟩)
      (fun _ => ⟨_, accept_of_error htext _⟩) (fun _ => ⟨_, accept_of_error htext _⟩)
  delay _ h := h

end Recorder

theorem SendInputDriver.refusesUnready : RefusesUnready SendInputDriver fun _ => False where
  refuses r h := by
    refine .of_errors (fun key down => ⟨.notReady, ?_⟩) (fun c => ⟨.notReady, ?_⟩)
      (fun s => ⟨.notReady, ?_⟩)
    · change sendKey key down r = _
      unfold sendKey
      exact giveUp h
    · change typeChar c r = _
      unfold typeChar
      exact giveUp h
    · change typeText s r = _
      unfold typeText
      exact giveUp h
  delay _ h := h

namespace QuartzDriver

variable {r : Rig QuartzDriver}

theorem sendKey_of_not_ready (h : r.front.isReady = false) (key : Key) (down : Bool) :
    sendKey key down r = (.error .notReady, r) := by
  unfold sendKey
  exact giveUp h

theorem typeChar_of_not_ready (h : r.front.isReady = false) (c : Char) :
    typeChar c r = (.error .notReady, r) := by
  unfold typeChar
  exact giveUp h

/-- Without a character there is nothing at which the readiness is looked at. -/
theorem typeChars_of_not_ready (h : r.front.isReady = false) (cs : List Char) :
    typeChars cs r = if cs = [] then (.ok (), r) else (.error .notReady, r) := by
  cases cs with
  | nil => rfl
  | cons c cs =>
    simp only [typeChars, bind, StateT.bind, typeChar_of_not_ready h]
    rfl

theorem refusesUnready : RefusesUnready QuartzDriver (· = "") where
  refuses r h := by
    refine ⟨fun key down => ⟨_, sendKey_of_not_ready h key down⟩,
      fun c => ⟨_, typeChar_of_not_ready h c⟩, fun s => ?_⟩
    change (typeChars s.toList r).2 = r ∧
      (Sender.succeeded (typeChars s.toList r).1 = true ↔ s = "")
    rw [typeChars_of_not_ready h]
    by_cases hs : s = ""
    · simp [hs, Sender.succeeded]
    · simp [hs, Sender.succeeded]
  delay _ h := h

end QuartzDriver

/-! ## All of them -/

namespace Backend

/-- The driver of a backend. -/
abbrev Driver : Backend → Type
  | .linuxUinput => UinputDriver
  | .macos => QuartzDriver
  | .windows => SendInputDriver
  | .mock => Recorder

instance keyboardDriver : (b : Backend) → KeyboardDriver b.Driver
  | .linuxUinput => inferInstanceAs (KeyboardDriver UinputDriver)
  | .macos => inferInstanceAs (KeyboardDriver QuartzDriver)
  | .windows => inferInstanceAs (KeyboardDriver SendInputDriver)
  | .mock => inferInstanceAs (KeyboardDriver Recorder)

theorem refusesUnready (b : Backend) :
    RefusesUnready b.Driver fun s => b = .macos ∧ s = "" := by
  cases b with
  | macos => simpa using QuartzDriver.refusesUnready
  | linuxUinput => simpa using UinputDriver.refusesUnready
  | windows => simpa using SendInputDriver.refusesUnready
  | mock => simpa using Recorder.refusesUnready

end Backend

/-- **What is refused without readiness**: in no state in which it is not ready does a driver take a
key, a character or a text, and the sender over it succeeds at nothing that is to be sent. The empty
text on macOS is the only exception, at which both succeed; and in no case is anything done. -/
theorem refuses_unless_ready {b : Backend} {r : Rig (Sender b.Driver)}
    (h : r.front.isReady = false) :
    Refuses (fun s => b = .macos ∧ s = "") ⟨r.front.driver, r.host⟩ ∧
      ∀ op : Sender.Operation, op.sends = true →
        ((Sender.perform op r).1 = true ↔ b = .macos ∧ op.text? = some "") := by
  refine ⟨b.refusesUnready.refuses ⟨r.front.driver, r.host⟩ h, fun op hop => ?_⟩
  rw [Sender.perform_of_not_ready b.refusesUnready h hop]
  constructor
  · rintro ⟨s, hs, hb, rfl⟩
    exact ⟨hb, hs⟩
  · rintro ⟨hb, hs⟩
    exact ⟨"", hs, hb, rfl⟩

/-- A device that could not be created, drivers that were released or never got what they need, and
a permission that was taken back when the driver asked for it. -/
theorem refuses_unless_ready_withdrawn :
    let failed := UinputDriver.connect {} { uinput := { refusal := some .permissionDenied } }
    let opened := QuartzDriver.connect {} { quartz := { grant := some false } }
    let asked := (QuartzDriver.requestPermissions ⟨opened.1, opened.2⟩).2
    opened.1.isReady = true ∧
      Refuses (fun _ => False) (⟨failed.1, failed.2⟩ : Rig UinputDriver) ∧
      Refuses (fun _ => False) (⟨{}, {}⟩ : Rig SendInputDriver) ∧
      Refuses (fun _ => False) (⟨.notReady "unplugged", {}⟩ : Rig Recorder) ∧
      Refuses (· = "") asked ∧
      (Sender.perform (.hold (.shift ∪ .capsLock))
        (⟨{ driver := asked.front }, asked.host⟩ : Rig (Sender QuartzDriver))).1 ≠ true := by
  intro failed opened asked
  have huinput := (refuses_unless_ready (b := .linuxUinput)
    (r := ⟨{ driver := failed.1 }, failed.2⟩) rfl).1
  have hwindows := (refuses_unless_ready (b := .windows) (r := ⟨{ driver := {} }, {}⟩) rfl).1
  have hrecorder := (refuses_unless_ready (b := .mock)
    (r := ⟨{ driver := .notReady "unplugged" }, {}⟩) rfl).1
  have hquartz := refuses_unless_ready (b := .macos)
    (r := ⟨{ driver := asked.front }, asked.host⟩) rfl
  refine ⟨rfl, by simpa using huinput, by simpa using hwindows, by simpa using hrecorder,
    by simpa using hquartz.1, fun hsent => ?_⟩
  cases ((hquartz.2 (.hold (.shift ∪ .capsLock)) rfl).1 hsent).2

/-- Without its permission the macOS driver takes the empty text, and so does a sender over it. -/
theorem empty_text_taken :
    let opened := QuartzDriver.connect {} { quartz := { trusted := false } }
    let r : Rig (Sender QuartzDriver) := ⟨{ driver := opened.1 }, opened.2⟩
    opened.1.isReady = false ∧
      (KeyboardDriver.typeText "" (⟨opened.1, opened.2⟩ : Rig QuartzDriver)).1 = .ok () ∧
      (Sender.perform (.typeText "") r).1 = true ∧ (Sender.perform (.typeUtf32 []) r).1 = true :=
  ⟨rfl, rfl, rfl, rfl⟩

end Keystroke
