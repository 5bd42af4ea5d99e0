import Keystroke.Proofs.Driver.Quartz
import Keystroke.Proofs.Text.Utf16

/-!
# Typed texts

On macOS and on Windows a text is typed character by character. What a character comes to is said by
a `Manner`, one for each system; everything else about a text is the same for both. A text that the
machine lets pass is typed completely. Where the machine refuses something, typing ends within the
character, with a part of it posted, and the characters before it are typed completely.

Whether the machine refuses is said by the calls in their order, so that any pattern of refusals is
covered.

## Main statements

- `Types.complete`, `Types.incomplete`: from one character to a text, for any manner.
- `QuartzDriver.types`, `SendInputDriver.types`: one character on each system.
- `types_text`: what is typed of a text on both systems.
-/

namespace Keystroke

/-! ## Character by character -/

/-- How a system types characters: the entries of a character that is typed completely, the native
events that entries tell of, and the units that an event types. -/
structure Manner (ν : Type) where
  whole : Char → List Entry
  view : List Entry → List ν
  units : ν → List UInt16

namespace Manner

variable {ν : Type} (m : Manner ν)

/-- The pause after a character: one sleep of so many microseconds, and none if they are zero. -/
def rest (d : KeyDelay) : List Entry := if d.micros = 0 then [] else [.slept d.micros.toNat]

theorem map_sleeps (d : KeyDelay) : d.sleeps.map .slept = rest d := by
  by_cases hzero : d.micros = 0 <;> simp [KeyDelay.sleeps, KeyDelay.isZero, rest, hzero]

/-- The entries of characters that are typed completely, with the pause after each. -/
def typed (d : KeyDelay) (cs : List Char) : List Entry := cs.flatMap fun c => m.whole c ++ rest d

theorem typed_cons (d : KeyDelay) (c : Char) (cs : List Char) :
    m.typed d (c :: cs) = m.typed d [c] ++ m.typed d cs := by
  simp [typed]

/-- The entries are a part of those of a character: what they tell of is less than the character,
and there is no pause. -/
structure IsPart (c : Char) (part : List Entry) : Prop where
  isPrefix : m.view part <+: m.view (m.whole c)
  ne : m.view part ≠ m.view (m.whole c)
  awake : ∀ micros, .slept micros ∉ part

/-- The units of a completely typed text are those of the text. -/
theorem units_typed
    (happend : ∀ entries entries', m.view (entries ++ entries') = m.view entries ++ m.view entries')
    (hnil : m.view [] = []) (hrest : ∀ d, m.view (rest d) = [])
    (hwhole : ∀ c, (m.view (m.whole c)).flatMap m.units = Utf16.units c) (d : KeyDelay)
    (cs : List Char) : (m.view (m.typed d cs)).flatMap m.units = Utf16.encode cs := by
  induction cs with
  | nil =>
    rw [typed, List.flatMap_nil, hnil]
    rfl
  | cons c cs ih =>
    have hsplit : m.typed d (c :: cs) = m.whole c ++ rest d ++ m.typed d cs :=
      List.flatMap_cons
    rw [hsplit, happend, happend, hrest, List.append_nil, List.flatMap_append, hwhole, ih]
    rfl

end Manner

section Characters

variable {δ ν : Type} {type : Char → StateM (Rig δ) DriverResult} {delay : δ → KeyDelay}

/-- Types characters one after another, each followed by the pause of the driver, until one
fails. -/
def typeEach (type : Char → StateM (Rig δ) DriverResult) (delay : δ → KeyDelay) :
    List Char → StateM (Rig δ) DriverResult
  | [] => return .ok ()
  | c :: cs => do
    match ← type c with
    | .error e => return .error e
    | .ok () =>
      Rig.pause (delay (← get).front)
      typeEach type delay cs

theorem typeEach_of_ok {c : Char} {r r' : Rig δ} (h : type c r = (.ok (), r')) (cs : List Char) :
    typeEach type delay (c :: cs) r = typeEach type delay cs
      ⟨r'.front, r'.host.recordAll ((delay r'.front).sleeps.map .slept)⟩ := by
  simp only [typeEach, bind, StateT.bind, h]
  rfl

theorem typeEach_of_error {c : Char} {r r' : Rig δ} {e : DriverError}
    (h : type c r = (.error e, r')) (cs : List Char) :
    typeEach type delay (c :: cs) r = (.error e, r') := by
  simp only [typeEach, bind, StateT.bind, h]
  rfl

/-- Characters are typed in a manner: `At k` says that the machine has come `k` characters further
than at first, and `accepts k` and `refuses k` what it does about the character that comes then. -/
structure Types (m : Manner ν) (type : Char → StateM (Rig δ) DriverResult) (At : Nat → Rig δ → Prop)
    (accepts refuses : Nat → Char → Prop) : Prop where
  accepted {k : Nat} {c : Char} {r : Rig δ} (hr : At k r) (hc : accepts k c) :
    ∃ host, type c r = (.ok (), ⟨r.front, host⟩) ∧ At (k + 1) ⟨r.front, host⟩ ∧
      host.journal = r.host.journal ++ m.whole c
  refused {k : Nat} {c : Char} {r : Rig δ} (hr : At k r) (hc : refuses k c) :
    ∃ e host part, type c r = (.error e, ⟨r.front, host⟩) ∧
      host.journal = r.host.journal ++ part ∧ m.IsPart c part
  paused {k : Nat} {r : Rig δ} (hr : At k r) (entries : List Entry) :
    At k ⟨r.front, r.host.recordAll entries⟩

variable {m : Manner ν} {At : Nat → Rig δ → Prop} {accepts refuses : Nat → Char → Prop}

/-- A character that is accepted, with the pause after it. -/
theorem Types.head (h : Types m type At accepts refuses) {k : Nat} {c : Char} {r : Rig δ}
    (hr : At k r) (hc : accepts k c) (cs : List Char) :
    ∃ host, typeEach type delay (c :: cs) r = typeEach type delay cs ⟨r.front, host⟩ ∧
      At (k + 1) ⟨r.front, host⟩ ∧
      host.journal = r.host.journal ++ m.typed (delay r.front) [c] := by
  obtain ⟨host, htype, hat, hjournal⟩ := h.accepted hr hc
  refine ⟨_, typeEach_of_ok htype cs, h.paused hat _, ?_⟩
  simp [hjournal, Manner.typed, Manner.map_sleeps]

/-- Characters that are all accepted are typed completely. -/
theorem Types.complete (h : Types m type At accepts refuses) {k : Nat} {cs : List Char}
    {r : Rig δ} (hr : At k r) (hall : ∀ i c, cs[i]? = some c → accepts (k + i) c) :
    ∃ host, typeEach type delay cs r = (.ok (), ⟨r.front, host⟩) ∧
      host.journal = r.host.journal ++ m.typed (delay r.front) cs := by
  induction cs generalizing k r with
  | nil => exact ⟨r.host, rfl, (List.append_nil _).symm⟩
  | cons c cs ih =>
    obtain ⟨host, htype, hat, hjournal⟩ := h.head hr (hall 0 c rfl) cs
    obtain ⟨host', htype', hjournal'⟩ := ih hat fun i c' hc' => by
      rw [Nat.add_assoc, Nat.add_comm 1 i]
      exact hall (i + 1) c' hc'
    refine ⟨host', htype.trans htype', ?_⟩
    rw [hjournal', hjournal, m.typed_cons _ c cs, List.append_assoc]

/-- The first character that is refused ends the typing. -/
theorem Types.incomplete (h : Types m type At accepts refuses) {k i : Nat} {c : Char}
    {cs : List Char} {r : Rig δ} (hr : At k r) (hi : cs[i]? = some c) (hc : refuses (k + i) c)
    (hbefore : ∀ j < i, ∀ b, cs[j]? = some b → accepts (k + j) b) :
    ∃ e host part, typeEach type delay cs r = (.error e, ⟨r.front, host⟩) ∧
      host.journal = r.host.journal ++ m.typed (delay r.front) (cs.take i) ++ part ∧
      m.IsPart c part := by
  induction i generalizing k r cs with
  | zero =>
    cases cs with
    | nil => cases hi
    | cons b cs =>
      obtain rfl : b = c := Option.some.inj hi
      obtain ⟨e, host, part, htype, hjournal, hpart⟩ := h.refused hr hc
      refine ⟨e, host, part, typeEach_of_error htype cs, ?_, hpart⟩
      rw [hjournal, List.take_zero, Manner.typed, List.flatMap_nil, List.append_nil]
  | succ i ih =>
    cases cs with
    | nil => cases hi
    | cons b cs =>
      obtain ⟨host, htype, hat, hjournal⟩ := h.head hr (hbefore 0 (Nat.succ_pos i) b rfl) cs
      have hshift : ∀ j, k + 1 + j = k + (j + 1) := fun j => by omega
      obtain ⟨e, host', part, htype', hjournal', hpart⟩ := ih hat hi (by rw [hshift]; exact hc)
        fun j hj b' hb' => by
          rw [hshift]
          exact hbefore (j + 1) (Nat.succ_lt_succ hj) b' hb'
      refine ⟨e, host', part, htype.trans htype', ?_, hpart⟩
      rw [hjournal', hjournal, List.take_succ_cons, m.typed_cons _ b (cs.take i),
        List.append_assoc r.host.journal]

end Characters

/-- What is typed of a text with a pause of `d`: all of it, if the machine accepts its characters,
and else the characters before the first one that it refuses, and a part of that one. The units of
the whole text lead back to it. -/
structure TypesText {δ ν : Type} [KeyboardDriver δ] (m : Manner ν) (d : KeyDelay)
    (accepts refuses : Nat → Char → Prop) (s : String) (r : Rig δ) : Prop where
  complete (hall : ∀ i c, s.toList[i]? = some c → accepts i c) :
    ∃ host, KeyboardDriver.typeText s r = (.ok (), ⟨r.front, host⟩) ∧
      host.journal = r.host.journal ++ m.typed d s.toList
  units : (m.view (m.typed d s.toList)).flatMap m.units = Utf16.encode s.toList ∧
    Utf16.decode (Utf16.encode s.toList) = some s.toList
  incomplete {i : Nat} {c : Char} (hi : s.toList[i]? = some c) (hc : refuses i c)
    (hbefore : ∀ j < i, ∀ b, s.toList[j]? = some b → accepts j b) :
    ∃ e host part, KeyboardDriver.typeText s r = (.error e, ⟨r.front, host⟩) ∧
      host.journal = r.host.journal ++ m.typed d (s.toList.take i) ++ part ∧
      m.IsPart c part

/-- What is known of characters, for a driver that types texts character by character. -/
theorem Types.typesText {δ ν : Type} [KeyboardDriver δ] {m : Manner ν}
    {type : Char → StateM (Rig δ) DriverResult} {At : Nat → Rig δ → Prop}
    {accepts refuses : Nat → Char → Prop} (h : Types m type At accepts refuses) {s : String}
    {r : Rig δ} (hr : At 0 r)
    (htext : KeyboardDriver.typeText s r = typeEach type KeyboardDriver.keyDelay s.toList r)
    (hunits : ∀ d cs, (m.view (m.typed d cs)).flatMap m.units = Utf16.encode cs) :
    TypesText m (KeyboardDriver.keyDelay r.front) accepts refuses s r where
  complete hall := by
    rw [htext]
    exact h.complete hr fun i c hi => by
      rw [Nat.zero_add]
      exact hall i c hi
  units := ⟨hunits _ _, Utf16.decode_encode s.toList⟩
  incomplete {i c} hi hc hbefore := by
    rw [htext]
    exact h.incomplete hr hi (by rw [Nat.zero_add]; exact hc) fun j hj b hb => by
      rw [Nat.zero_add]
      exact hbefore j hj b hb

/-! ## macOS -/

/-- What first asks the machine for something gives up if it does not get it. -/
theorem Rig.ask_eq {δ : Type} (ask : Host → Bool × Host) (e : DriverError)
    (next : StateM (Rig δ) DriverResult) (r : Rig δ) :
    (do
      if !(← Rig.atHost ask) then return .error e
      next : StateM (Rig δ) DriverResult) r =
    if (ask r.host).1 then next ⟨r.front, (ask r.host).2⟩
    else (.error e, ⟨r.front, (ask r.host).2⟩) := by
  simp only [bind, StateT.bind, Rig.atHost]
  cases (ask r.host).1 <;> rfl

namespace QuartzPort

/-- Whether the port lets an event be made, after as many others as given. -/
def grants (p : QuartzPort) (n : Nat) : Bool :=
  !p.sourceFault (p.sources + n) && !p.eventFault (p.events + n)

/-- The port after so many events were made. -/
def after (p : QuartzPort) (n : Nat) : QuartzPort :=
  { p with sources := p.sources + n, events := p.events + n }

theorem grants_after (p : QuartzPort) (n k : Nat) : (p.after n).grants k = p.grants (n + k) := by
  simp only [grants, after, Nat.add_assoc]

end QuartzPort

namespace QuartzDriver

/-- A character is a press and a release, both with its units and without flags. -/
def manner : Manner QuartzEvent where
  whole c :=
    [.posted ⟨0, true, 0, some (Utf16.units c)⟩, .posted ⟨0, false, 0, some (Utf16.units c)⟩]
  view := posted
  units event := if event.down then event.text.getD [] else []

theorem units_typed (d : KeyDelay) (cs : List Char) :
    (manner.view (manner.typed d cs)).flatMap manner.units = Utf16.encode cs := by
  refine manner.units_typed posted_append rfl (fun d => ?_) (fun c => ?_) d cs
  · exact List.filterMap_eq_nil_iff.2 (by rw [← Manner.map_sleeps]; simp)
  · simp [manner, posted]

theorem typeChars_eq (cs : List Char) : typeChars cs = typeEach typeChar keyDelay cs := by
  induction cs with
  | nil => rfl
  | cons c cs ih =>
    refine congrArg (typeChar c >>= ·) (funext fun result => ?_)
    cases result with
    | error e => rfl
    | ok => simp only [ih]

theorem makeEvent_eq (r : Rig QuartzDriver) :
    makeEvent r =
      (if !r.host.quartz.sourceFault r.host.quartz.sources then
        if !r.host.quartz.eventFault r.host.quartz.events then
          (.ok (), ⟨r.front, r.host.newSource.2.newEvent.2⟩)
        else
          (.error (.platform "CGEventCreateKeyboardEvent failed"),
            ⟨r.front, r.host.newSource.2.newEvent.2⟩)
      else (.error (.platform "CGEventSourceCreate failed"), ⟨r.front, r.host.newSource.2⟩)) := by
  unfold makeEvent
  rw [Rig.ask_eq, Rig.ask_eq]
  rfl

/-- An event is posted if the port lets it be made. -/
theorem postUnits_of_grants {r : Rig QuartzDriver} (h : r.host.quartz.grants 0 = true)
    (units : List UInt16) (down : Bool) :
    ∃ host, postUnits units down r = (.ok (), ⟨r.front, host⟩) ∧
      host.quartz = r.host.quartz.after 1 ∧
      host.journal = r.host.journal ++ [.posted ⟨0, down, 0, some units⟩] := by
  simp only [QuartzPort.grants, Nat.add_zero, Bool.and_eq_true] at h
  have hmake : makeEvent r = (.ok (), ⟨r.front, r.host.newSource.2.newEvent.2⟩) := by
    rw [makeEvent_eq, if_pos h.1, if_pos h.2]
  refine ⟨r.host.newSource.2.newEvent.2.record (.posted ⟨0, down, 0, some units⟩), ?_, rfl, rfl⟩
  simp only [postUnits, bind, StateT.bind, hmake]
  rfl

theorem postUnits_of_not_grants {r : Rig QuartzDriver} (h : r.host.quartz.grants 0 = false)
    (units : List UInt16) (down : Bool) :
    ∃ e host, postUnits units down r = (.error e, ⟨r.front, host⟩) ∧
      host.journal = r.host.journal := by
  have hmake : ∃ e host, makeEvent r = (.error e, ⟨r.front, host⟩) ∧
      host.journal = r.host.journal := by
    rw [makeEvent_eq]
    split
    next hsource =>
      split
      next hevent =>
        rw [QuartzPort.grants, Nat.add_zero, Nat.add_zero, hsource, hevent] at h
        cases h
      next => exact ⟨_, _, rfl, rfl⟩
    next => exact ⟨_, _, rfl, rfl⟩
  obtain ⟨e, host, hmake, hjournal⟩ := hmake
  refine ⟨e, host, ?_, hjournal⟩
  simp only [postUnits, bind, StateT.bind, hmake]
  rfl

theorem typeChar_eq {r : Rig QuartzDriver} (h : r.front.isReady = true) (c : Char) :
    typeChar c r = (match postUnits (Utf16.units c) true r with
      | (.error e, r') => (.error e, r')
      | (.ok (), r') => postUnits (Utf16.units c) false r') := by
  unfold typeChar
  rw [goOn h]
  simp only [bind, StateT.bind]
  generalize postUnits (Utf16.units c) true r = pressed
  obtain ⟨result, r'⟩ := pressed
  cases result <;> rfl

/-- The press of a character is posted, and then its release, as far as the port lets the events
be made. -/
theorem types (p : QuartzPort) :
    Types manner typeChar
      (fun k r => r.front.isReady = true ∧ r.host.quartz = p.after (2 * k))
      (fun k _ => p.grants (2 * k) = true ∧ p.grants (2 * k + 1) = true)
      (fun k _ => ¬ (p.grants (2 * k) = true ∧ p.grants (2 * k + 1) = true)) where
  accepted := by
    rintro k c r ⟨hready, hport⟩ ⟨hfirst, hsecond⟩
    obtain ⟨host, hpress, hport', hjournal⟩ :=
      postUnits_of_grants (r := r) (by rw [hport, QuartzPort.grants_after]; exact hfirst)
        (Utf16.units c) true
    obtain ⟨host', hrelease, hport'', hjournal'⟩ :=
      postUnits_of_grants (r := ⟨r.front, host⟩)
        (by rw [hport', hport, QuartzPort.grants_after]; exact hsecond) (Utf16.units c) false
    refine ⟨host', ?_, ⟨hready, ?_⟩, ?_⟩
    · rw [typeChar_eq hready, hpress]
      exact hrelease
    · rw [hport'', hport', hport]
      rfl
    · rw [hjournal', hjournal, List.append_assoc]
      rfl
  refused := by
    rintro k c r ⟨hready, hport⟩ hrefuses
    cases hfirst : p.grants (2 * k) with
    | false =>
      -- the press is refused, so nothing of the character is posted
      obtain ⟨e, host, hpress, hjournal⟩ :=
        postUnits_of_not_grants (r := r) (by rw [hport, QuartzPort.grants_after]; exact hfirst)
          (Utf16.units c) true
      refine ⟨e, host, [], ?_, ?_, ⟨List.nil_prefix, nofun, nofun⟩⟩
      · rw [typeChar_eq hready, hpress]
      · rw [hjournal, List.append_nil]
    | true =>
      -- the press is posted and the release is refused
      obtain ⟨host, hpress, hport', hjournal⟩ :=
        postUnits_of_grants (r := r) (by rw [hport, QuartzPort.grants_after]; exact hfirst)
          (Utf16.units c) true
      have hsecond : p.grants (2 * k + 1) = false := by
        rw [← Bool.not_eq_true]
        exact fun hsecond => hrefuses ⟨hfirst, hsecond⟩
      obtain ⟨e, host', hrelease, hjournal'⟩ :=
        postUnits_of_not_grants (r := ⟨r.front, host⟩)
          (by rw [hport', hport, QuartzPort.grants_after]; exact hsecond) (Utf16.units c) false
      refine ⟨e, host', [.posted ⟨0, true, 0, some (Utf16.units c)⟩], ?_, ?_, ?_⟩
      · rw [typeChar_eq hready, hpress]
        exact hrelease
      · rw [hjournal', hjournal]
      · exact ⟨⟨[⟨0, false, 0, some (Utf16.units c)⟩], rfl⟩, by simp [manner, posted], by simp⟩
  paused := fun hr _ => hr

end QuartzDriver

/-! ## Windows -/

/-- The inputs that the machine took, by the entries of the journal. -/
def inserted (entries : List Entry) : List KeyInput :=
  entries.flatMap fun
    | .sent inputs accepted => inputs.take accepted
    | _ => []

theorem inserted_append (entries entries' : List Entry) :
    inserted (entries ++ entries') = inserted entries ++ inserted entries' :=
  List.flatMap_append

namespace WindowsPort

/-- How many of the inputs the port takes, if they are sent after as many other batches as given. -/
def takes (p : WindowsPort) (n : Nat) (inputs : List KeyInput) : Nat :=
  match p.fault (p.sends + n) with
  | none => inputs.length
  | some (accepted, _) => accepted

/-- The port after so many batches were sent. -/
def after (p : WindowsPort) (n : Nat) : WindowsPort := { p with sends := p.sends + n }

theorem takes_after (p : WindowsPort) (n k : Nat) (inputs : List KeyInput) :
    (p.after n).takes k inputs = p.takes (n + k) inputs := by
  simp only [takes, after, Nat.add_assoc]

end WindowsPort

namespace SendInputDriver

/-- The inputs of a character: for each of its units a press and then a release. Both have no
virtual key, the unit for a scan code and the flag of Unicode input (4); the release has that of a
key that goes up (2) as well. -/
def inputsOf (c : Char) : List KeyInput :=
  (Utf16.units c).flatMap fun u => [⟨0, u, 4⟩, ⟨0, u, 4 + 2⟩]

/-- A character is one batch of inputs. -/
def manner : Manner KeyInput where
  whole c := [.sent (inputsOf c) (inputsOf c).length]
  view := inserted
  units input := if input.flags.testBit 1 then [] else [input.scan]

theorem inserted_sent (inputs : List KeyInput) (accepted : Nat) :
    inserted [.sent inputs accepted] = inputs.take accepted := by
  simp [inserted]

theorem units_typed (d : KeyDelay) (cs : List Char) :
    (manner.view (manner.typed d cs)).flatMap manner.units = Utf16.encode cs := by
  refine manner.units_typed inserted_append rfl (fun d => ?_) (fun c => ?_) d cs
  · exact List.flatMap_eq_nil_iff.2 (by rw [← Manner.map_sleeps]; simp)
  · have hunits : ∀ units : List UInt16,
        (units.flatMap fun u => [⟨0, u, 4⟩, ⟨0, u, 4 + 2⟩]).flatMap manner.units = units := by
      intro units
      induction units with
      | nil => rfl
      | cons unit units ih =>
        have hone :
            List.flatMap manner.units [⟨0, unit, 4⟩, ⟨0, unit, 4 + 2⟩] = [unit] := by
          simp [manner, Nat.testBit]
        rw [List.flatMap_cons, List.flatMap_append, ih, hone, List.singleton_append]
    have hview : manner.view (manner.whole c) = inputsOf c :=
      (inserted_sent _ _).trans List.take_length
    rw [hview]
    exact hunits (Utf16.units c)

theorem typeChars_eq (cs : List Char) : typeChars cs = typeEach typeChar keyDelay cs := by
  induction cs with
  | nil => rfl
  | cons c cs ih =>
    refine congrArg (typeChar c >>= ·) (funext fun result => ?_)
    cases result with
    | error e => rfl
    | ok => simp only [ih]

/-- A batch is an error unless the port takes it whole. -/
theorem send_of_takes (inputs : List KeyInput) (r : Rig SendInputDriver) :
    ∃ result host, send inputs r = (result, ⟨r.front, host⟩) ∧
      host.windows = r.host.windows.after 1 ∧
      host.journal = r.host.journal ++ [.sent inputs (r.host.windows.takes 0 inputs)] ∧
      (r.host.windows.takes 0 inputs = inputs.length → result = .ok ()) ∧
      (r.host.windows.takes 0 inputs ≠ inputs.length → ∃ e, result = .error e) := by
  simp only [send, bind, StateT.bind, Rig.atHost, Host.send, WindowsPort.takes, Nat.add_zero]
  cases r.host.windows.fault r.host.windows.sends with
  | none => exact ⟨_, _, rfl, rfl, rfl, fun _ => rfl, fun hne => absurd rfl hne⟩
  | some answer =>
    obtain ⟨accepted, text⟩ := answer
    by_cases hwhole : accepted = inputs.length
    · simp only [if_pos hwhole]
      exact ⟨_, _, rfl, rfl, rfl, fun _ => rfl, fun hne => absurd hwhole hne⟩
    · simp only [if_neg hwhole]
      exact ⟨_, _, rfl, rfl, rfl, fun heq => absurd heq hwhole, fun _ => ⟨_, rfl⟩⟩

theorem typeChar_eq {r : Rig SendInputDriver} (h : r.front.ready = true) (c : Char) :
    typeChar c r = send (inputsOf c) r := by
  unfold typeChar
  rw [goOn h]
  rfl

/-- A character is typed if the port takes its batch whole. If it takes fewer inputs, these are the
first ones of the character. -/
theorem types (p : WindowsPort) :
    Types manner typeChar (fun k r => r.front.ready = true ∧ r.host.windows = p.after k)
      (fun k c => p.takes k (inputsOf c) = (inputsOf c).length)
      (fun k c => p.takes k (inputsOf c) < (inputsOf c).length) where
  accepted := by
    rintro k c r ⟨hready, hport⟩ htakes
    obtain ⟨result, host, hsend, hport', hjournal, hok, -⟩ := send_of_takes (inputsOf c) r
    rw [hport, WindowsPort.takes_after, Nat.add_zero, htakes] at hjournal hok
    obtain rfl := hok rfl
    refine ⟨host, (typeChar_eq hready c).trans hsend, ⟨hready, ?_⟩, hjournal⟩
    rw [hport', hport]
    rfl
  refused := by
    rintro k c r ⟨hready, hport⟩ htakes
    obtain ⟨result, host, hsend, -, hjournal, -, herror⟩ := send_of_takes (inputsOf c) r
    rw [hport, WindowsPort.takes_after, Nat.add_zero] at hjournal herror
    obtain ⟨e, rfl⟩ := herror (Nat.ne_of_lt htakes)
    refine ⟨e, host, _, (typeChar_eq hready c).trans hsend, hjournal, ?_⟩
    have hpart : manner.view [.sent (inputsOf c) (p.takes k (inputsOf c))] =
        (inputsOf c).take (p.takes k (inputsOf c)) := inserted_sent _ _
    have hwhole : manner.view (manner.whole c) = inputsOf c :=
      (inserted_sent _ _).trans List.take_length
    refine ⟨?_, ?_, by simp⟩
    · rw [hpart, hwhole]
      exact List.take_prefix _ _
    · rw [hpart, hwhole]
      intro heq
      have hlength := congrArg List.length heq
      rw [List.length_take, Nat.min_eq_left (Nat.le_of_lt htakes)] at hlength
      exact Nat.ne_of_lt htakes hlength
  paused := fun hr _ => hr

end SendInputDriver

/-! ## Both systems -/

/-- **What is typed of a text**, on a driver that is ready. On macOS a character is accepted if both
its events can be made, and refused if one of them cannot; on Windows it is accepted if its batch is
taken whole, and refused if fewer inputs are taken. -/
theorem types_text (s : String) :
    (∀ r : Rig QuartzDriver, r.front.isReady = true →
      TypesText QuartzDriver.manner r.front.keyDelay
        (fun i _ => r.host.quartz.grants (2 * i) = true ∧ r.host.quartz.grants (2 * i + 1) = true)
        (fun i _ =>
          ¬ (r.host.quartz.grants (2 * i) = true ∧ r.host.quartz.grants (2 * i + 1) = true)) s r) ∧
    ∀ r : Rig SendInputDriver, r.front.ready = true →
      TypesText SendInputDriver.manner r.front.keyDelay
        (fun i c => r.host.windows.takes i (SendInputDriver.inputsOf c) =
          (SendInputDriver.inputsOf c).length)
        (fun i c => r.host.windows.takes i (SendInputDriver.inputsOf c) <
          (SendInputDriver.inputsOf c).length) s r := by
  constructor
  · intro r hready
    refine (QuartzDriver.types r.host.quartz).typesText ⟨hready, rfl⟩ ?_ QuartzDriver.units_typed
    exact congrFun (QuartzDriver.typeChars_eq s.toList) r
  · intro r hready
    refine (SendInputDriver.types r.host.windows).typesText ⟨hready, rfl⟩ ?_
      SendInputDriver.units_typed
    change SendInputDriver.typeText s r = _
    unfold SendInputDriver.typeText
    rw [goOn hready]
    exact congrFun (SendInputDriver.typeChars_eq s.toList) r

/-- Typing "a😀b": on macOS the release of the second character is refused, whose press has been
posted by then; on Windows the machine takes three of the four inputs of that character, or takes
everything. -/
theorem types_text_surrogates :
    let macos : Rig QuartzDriver :=
      ⟨{ source := true, trusted := true, keyDelay := ⟨5⟩ },
        { quartz := { eventFault := (· == 3) } }⟩
    let windows : Rig SendInputDriver :=
      ⟨{ ready := true, keyDelay := ⟨5⟩ },
        { windows := { fault := fun n => if n = 1 then some (3, "") else none } }⟩
    let willing : Rig SendInputDriver := ⟨{ ready := true, keyDelay := ⟨5⟩ }, {}⟩
    (∃ e host part, KeyboardDriver.typeText "a😀b" macos = (.error e, ⟨macos.front, host⟩) ∧
      host.journal =
        [.posted ⟨0, true, 0, some [97]⟩, .posted ⟨0, false, 0, some [97]⟩, .slept 5] ++ part ∧
      QuartzDriver.manner.IsPart '😀' part) ∧
    (∃ e host part, KeyboardDriver.typeText "a😀b" windows = (.error e, ⟨windows.front, host⟩) ∧
      host.journal = [.sent [⟨0, 97, 4⟩, ⟨0, 97, 6⟩] 2, .slept 5] ++ part ∧
      SendInputDriver.manner.IsPart '😀' part) ∧
    ∃ host, KeyboardDriver.typeText "a😀b" willing = (.ok (), ⟨willing.front, host⟩) ∧
      host.journal =
        [.sent [⟨0, 97, 4⟩, ⟨0, 97, 6⟩] 2, .slept 5,
          .sent [⟨0, 0xD83D, 4⟩, ⟨0, 0xD83D, 6⟩, ⟨0, 0xDE00, 4⟩, ⟨0, 0xDE00, 6⟩] 4, .slept 5,
          .sent [⟨0, 98, 4⟩, ⟨0, 98, 6⟩] 2, .slept 5] := by
  intro macos windows willing
  have hfirst : ∀ {i : Nat} {b : Char}, i < 1 → "a😀b".toList[i]? = some b → i = 0 ∧ b = 'a' :=
    fun {i b} hi hb => by
      obtain rfl : i = 0 := Nat.lt_one_iff.1 hi
      exact ⟨rfl, (Option.some.inj hb).symm⟩
  refine ⟨?_, ?_, ?_⟩
  · refine ((types_text "a😀b").1 macos rfl).incomplete (i := 1) rfl (by decide +kernel) ?_
    intro j hj b hb
    obtain ⟨rfl, rfl⟩ := hfirst hj hb
    decide +kernel
  · refine ((types_text "a😀b").2 windows rfl).incomplete (i := 1) rfl (by decide +kernel) ?_
    intro j hj b hb
    obtain ⟨rfl, rfl⟩ := hfirst hj hb
    decide +kernel
  · exact ((types_text "a😀b").2 willing rfl).complete fun i c hi => rfl

end Keystroke
