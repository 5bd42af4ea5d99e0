import Keystroke.Proofs.Driver.Readiness
import Keystroke.Proofs.Key.Native
import Keystroke.Proofs.Modifier.Quartz
import Keystroke.Proofs.Modifier.Tracker

/-!
# What the macOS driver posts

A transition of a key that is sent is posted as one event, which carries the flags of the modifiers
that the driver then holds down. What it holds down it knows from the transitions that it has posted
and from nothing else: one that was refused, at whichever step, leaves no trace, and texts are
posted past it, without flags.

## Main statements

- `sendKey_cases`: a transition is refused without a trace, or it is posted and tracked.
- `adds_typeChars`: typing adds events without flags and pauses, and leaves the driver as it is.
- `stamped_runAll`: what is posted, and what is held down, after any run.
- `flags_of_run`: the flags of the events, and what a refused transition leaves alone.
-/

namespace Keystroke

/-- The macOS events that were posted, by the entries of the journal. -/
def posted (entries : List Entry) : List QuartzEvent :=
  entries.filterMap fun
    | .posted event => some event
    | _ => none

/-- The posted events that are transitions of keys and do not type a text. -/
def postedKeys (entries : List Entry) : List QuartzEvent :=
  (posted entries).filter (·.text.isNone)

theorem posted_append (entries entries' : List Entry) :
    posted (entries ++ entries') = posted entries ++ posted entries' :=
  List.filterMap_append

theorem postedKeys_append (entries entries' : List Entry) :
    postedKeys (entries ++ entries') = postedKeys entries ++ postedKeys entries' := by
  simp [postedKeys, posted_append]

/-! ## Actions that only leave entries -/

namespace Rig

variable {δ α β : Type} {P : Entry → Prop}

/-- The action leaves the driver as it is, and adds entries of a kind to the journal. -/
def Adds (P : Entry → Prop) (act : StateM (Rig δ) α) : Prop :=
  ∀ r, (act r).2.front = r.front ∧
    ∃ entries, (act r).2.host.journal = r.host.journal ++ entries ∧ ∀ entry ∈ entries, P entry

theorem adds_of_journal_eq {act : StateM (Rig δ) α}
    (h : ∀ r, (act r).2.front = r.front ∧ (act r).2.host.journal = r.host.journal) :
    Adds P act :=
  fun r => ⟨(h r).1, [], by rw [(h r).2, List.append_nil], nofun⟩

theorem adds_pure (a : α) : Adds P (pure a : StateM (Rig δ) α) :=
  adds_of_journal_eq fun _ => ⟨rfl, rfl⟩

theorem adds_get : Adds P (get : StateM (Rig δ) (Rig δ)) :=
  adds_of_journal_eq fun _ => ⟨rfl, rfl⟩

theorem adds_record {entry : Entry} (h : P entry) : Adds P (record entry : StateM (Rig δ) Unit) :=
  fun _ => ⟨rfl, [entry], rfl, by simpa using h⟩

theorem Adds.bind {act : StateM (Rig δ) α} {next : α → StateM (Rig δ) β} (h : Adds P act)
    (hnext : ∀ a, Adds P (next a)) : Adds P (act >>= next) := by
  intro r
  obtain ⟨hfront, entries, hjournal, hentries⟩ := h r
  obtain ⟨hfront', entries', hjournal', hentries'⟩ := hnext (act r).1 (act r).2
  refine ⟨hfront'.trans hfront, entries ++ entries', ?_, ?_⟩
  · rw [← List.append_assoc, ← hjournal]
    exact hjournal'
  · intro entry hentry
    rcases List.mem_append.1 hentry with hentry | hentry
    · exact hentries entry hentry
    · exact hentries' entry hentry

end Rig

namespace QuartzDriver

open Rig (Adds adds_of_journal_eq adds_pure adds_get adds_record)

variable {r : Rig QuartzDriver}

/-! ## Refused or posted -/

/-- What an event is made of leaves no trace, whether or not it can be made. -/
theorem adds_makeEvent (P : Entry → Prop) : Adds P makeEvent := by
  refine (adds_of_journal_eq fun _ => ⟨rfl, rfl⟩ : Adds P (Rig.atHost Host.newSource)).bind
    fun source => ?_
  cases source with
  | false => exact adds_pure _
  | true =>
    refine (adds_of_journal_eq fun _ => ⟨rfl, rfl⟩ : Adds P (Rig.atHost Host.newEvent)).bind
      fun event => ?_
    cases event with
    | false => exact adds_pure _
    | true => exact adds_pure _

/-- A transition is refused without a trace, or it is posted, with the flags of what the driver
holds down after it, and tracked. -/
theorem sendKey_cases (key : Key) (down : Bool) (r : Rig QuartzDriver) :
    (∃ e, (sendKey key down r).1 = .error e ∧ (sendKey key down r).2.front = r.front ∧
      (sendKey key down r).2.host.journal = r.host.journal) ∨
    (∃ code, key.quartzCode = some code ∧ (sendKey key down r).1 = .ok () ∧
      (sendKey key down r).2.front = { r.front with held := r.front.held.step key down } ∧
      (sendKey key down r).2.host.journal = r.host.journal ++
        [.posted ⟨code, down, (r.front.held.step key down).current.toQuartz, none⟩]) := by
  cases hready : r.front.isReady with
  | false =>
    rw [sendKey_of_not_ready hready]
    exact .inl ⟨_, rfl, rfl, rfl⟩
  | true =>
    unfold sendKey
    rw [goOn hready]
    cases hcode : key.quartzCode with
    | none => exact .inl ⟨_, rfl, rfl, rfl⟩
    | some code =>
      obtain ⟨hfront, entries, hjournal, hnone⟩ := adds_makeEvent (fun _ => False) r
      obtain rfl : entries = [] := List.eq_nil_iff_forall_not_mem.2 hnone
      rw [List.append_nil] at hjournal
      simp only [bind, StateT.bind]
      generalize makeEvent r = made at hfront hjournal ⊢
      obtain ⟨result, r'⟩ := made
      cases result with
      | error e => exact .inl ⟨e, rfl, hfront, hjournal⟩
      | ok =>
        refine .inr ⟨code, rfl, rfl, ?_, ?_⟩
        · rw [← hfront]
          rfl
        · rw [← hjournal, ← hfront]
          rfl

/-- An entry of a typed character: an event that types a text and has no flags, or a pause. -/
def IsTyping : Entry → Prop
  | .posted event => event.text.isSome ∧ event.flags = 0
  | .slept _ => True
  | _ => False

theorem adds_postUnits (units : List UInt16) (down : Bool) :
    Adds IsTyping (postUnits units down) := by
  refine (adds_makeEvent IsTyping).bind fun made => ?_
  cases made with
  | error e => exact adds_pure _
  | ok => exact (adds_record ⟨rfl, rfl⟩).bind fun _ => adds_pure _

theorem adds_typeChar (c : Char) : Adds IsTyping (typeChar c) := by
  refine adds_get.bind fun r => ?_
  cases hready : r.front.isReady with
  | false => exact adds_pure _
  | true =>
    refine (adds_postUnits _ true).bind fun pressed => ?_
    cases pressed with
    | error e => exact adds_pure _
    | ok => exact adds_postUnits _ false

theorem adds_pause (delay : KeyDelay) :
    Adds IsTyping (Rig.pause delay : StateM (Rig QuartzDriver) Unit) := by
  refine fun r => ⟨rfl, delay.sleeps.map .slept, rfl, fun entry hentry => ?_⟩
  obtain ⟨micros, -, rfl⟩ := List.mem_map.1 hentry
  trivial

theorem adds_typeChars (cs : List Char) : Adds IsTyping (typeChars cs) := by
  induction cs with
  | nil => exact adds_pure _
  | cons c cs ih =>
    refine (adds_typeChar c).bind fun typed => ?_
    cases typed with
    | error e => exact adds_pure _
    | ok =>
      exact adds_get.bind fun r => (adds_pause _).bind fun _ => ih

theorem posted_of_typing {entries : List Entry} (h : ∀ entry ∈ entries, IsTyping entry) :
    ∀ event ∈ posted entries, event.text.isSome ∧ event.flags = 0 := by
  intro event hevent
  obtain ⟨entry, hentry, hposted⟩ := List.mem_filterMap.1 hevent
  have htyping := h entry hentry
  cases entry <;> cases hposted
  exact htyping

theorem postedKeys_of_typing {entries : List Entry} (h : ∀ entry ∈ entries, IsTyping entry) :
    postedKeys entries = [] := by
  refine List.filter_eq_nil_iff.2 fun event hevent hnone => ?_
  have htext := (posted_of_typing h event hevent).1
  rw [Option.isNone_iff_eq_none.1 hnone] at htext
  cases htext

/-! ## Runs -/

/-- What happens to a driver: it is asked for something, or the machine changes what it grants and
which of the calls to come will fail. -/
inductive Happening where
  | sendKey (key : Key) (down : Bool)
  | typeText (s : String)
  | typeChar (c : Char)
  | flush
  | delay
  | requestPermissions
  | setKeyDelay (d : KeyDelay)
  | machineTurned (port : QuartzPort)

/-- Lets something happen, and says which transition of a key was sent with success, if one was. -/
def Happening.run : Happening → StateM (Rig QuartzDriver) (List (Key × Bool))
  | sendKey key down => do
    match ← KeyboardDriver.sendKey key down with
    | .ok () => return [(key, down)]
    | .error _ => return []
  | typeText s => do
    let _ ← KeyboardDriver.typeText s
    return []
  | typeChar c => do
    let _ ← KeyboardDriver.typeChar c
    return []
  | flush => do
    let _ ← KeyboardDriver.flush
    return []
  | delay => do
    KeyboardDriver.delay
    return []
  | requestPermissions => do
    let _ ← KeyboardDriver.requestPermissions
    return []
  | setKeyDelay d => do
    modify fun r => { r with front := KeyboardDriver.setKeyDelay d r.front }
    return []
  | machineTurned port => do
    modify fun r => { r with host := { r.host with quartz := port } }
    return []

/-- Lets several things happen in order, and lists the transitions that were sent with success. -/
def runAll : List Happening → StateM (Rig QuartzDriver) (List (Key × Bool))
  | [] => return []
  | x :: xs => do
    let sent ← x.run
    let others ← runAll xs
    return sent ++ others

/-- The event that is posted for a transition, by the event that it is for an observer. -/
def stamp (e : KeyEvent) : QuartzEvent :=
  ⟨e.key.quartzCode.getD 0, e.pressed, e.modifiers.toQuartz, none⟩

/-- Since the driver held down what `tracker` says and the journal was as given, the transitions
`sent` were sent: the driver has tracked these, each was posted with the flags of what was held down
after it, and all that was posted besides are texts without flags. -/
structure Stamped (tracker : ModifierTracker) (journal : List Entry) (sent : List (Key × Bool))
    (r : Rig QuartzDriver) : Prop where
  held : r.front.held = tracker.after sent
  coded : ∀ move ∈ sent, move.1.quartzCode.isSome
  posts : ∃ entries, r.host.journal = journal ++ entries ∧
    postedKeys entries = (tracker.events sent).map stamp ∧
    ∀ event ∈ posted entries, event.text.isSome → event.flags = 0

theorem stamped_refl (r : Rig QuartzDriver) : Stamped r.front.held r.host.journal [] r :=
  ⟨rfl, nofun, [], (List.append_nil _).symm, rfl, nofun⟩

variable {tracker : ModifierTracker} {journal : List Entry} {sent sent' : List (Key × Bool)}
  {r' : Rig QuartzDriver}

/-- What happened later is added to what happened before. -/
theorem Stamped.trans (h : Stamped tracker journal sent r)
    (h' : Stamped r.front.held r.host.journal sent' r') :
    Stamped tracker journal (sent ++ sent') r' := by
  obtain ⟨entries, hjournal, hkeys, htexts⟩ := h.posts
  obtain ⟨entries', hjournal', hkeys', htexts'⟩ := h'.posts
  refine ⟨?_, fun move hmove => ?_, entries ++ entries', ?_, ?_, fun event hevent => ?_⟩
  · rw [h'.held, h.held, ModifierTracker.after_append]
  · exact (List.mem_append.1 hmove).elim (h.coded move) (h'.coded move)
  · rw [hjournal', hjournal, List.append_assoc]
  · rw [postedKeys_append, hkeys, hkeys', h.held, ModifierTracker.events_append, List.map_append]
  · rw [posted_append] at hevent
    exact (List.mem_append.1 hevent).elim (htexts event) (htexts' event)

/-- If no transition was sent and nothing is held down that was not before, there is only to say
what was posted. -/
theorem stamped_quiet (hheld : r'.front.held = r.front.held) (entries : List Entry)
    (hjournal : r'.host.journal = r.host.journal ++ entries) (hkeys : postedKeys entries = [])
    (htexts : ∀ event ∈ posted entries, event.text.isSome → event.flags = 0) :
    Stamped r.front.held r.host.journal [] r' :=
  ⟨hheld, nofun, entries, hjournal, hkeys, htexts⟩

theorem stamped_of_adds {α : Type} {act : StateM (Rig QuartzDriver) α} (h : Adds IsTyping act)
    (r : Rig QuartzDriver) : Stamped r.front.held r.host.journal [] (act r).2 := by
  obtain ⟨hfront, entries, hjournal, htyping⟩ := h r
  exact stamped_quiet (congrArg held hfront) entries hjournal (postedKeys_of_typing htyping)
    fun event hevent _ => (posted_of_typing htyping event hevent).2

theorem stamped_sendKey (key : Key) (down : Bool) (r : Rig QuartzDriver) :
    Stamped r.front.held r.host.journal ((Happening.sendKey key down).run r).1
      ((Happening.sendKey key down).run r).2 := by
  have hrun : (Happening.sendKey key down).run r = (match (sendKey key down r).1 with
      | .ok () => [(key, down)]
      | .error _ => [], (sendKey key down r).2) := by
    change (match (sendKey key down r).1 with
      | .ok () => (pure [(key, down)] : StateM (Rig QuartzDriver) (List (Key × Bool)))
      | .error _ => pure []) (sendKey key down r).2 = _
    cases (sendKey key down r).1 <;> rfl
  rw [hrun]
  obtain ⟨e, hresult, hfront, hjournal⟩ | ⟨code, hcode, hresult, hfront, hjournal⟩ :=
    sendKey_cases key down r
  · rw [hresult]
    exact stamped_quiet (congrArg held hfront) [] (by rw [hjournal, List.append_nil]) rfl nofun
  · rw [hresult]
    refine ⟨?_, ?_, _, hjournal, ?_, ?_⟩
    · rw [hfront]
      rfl
    · simp [hcode]
    · simp [postedKeys, posted, ModifierTracker.events, stamp, KeyEvent.of, hcode]
    · simp [posted]

/-- The diagnosis may report an error, which leaves no entry. -/
theorem diagnose_spec (d : QuartzDriver) (h : Host) :
    (diagnose d h).1.held = d.held ∧ (diagnose d h).2.journal = h.journal := by
  refine ⟨rfl, ?_⟩
  unfold diagnose
  cases d.obstacle <;> rfl

/-- Asking for the permission posts nothing, whatever is answered. -/
theorem stamped_requestPermissions (r : Rig QuartzDriver) :
    Stamped r.front.held r.host.journal [] (requestPermissions r).2 := by
  have hprompt : ∃ entries, r.host.promptForTrust.2.journal = r.host.journal ++ entries ∧
      posted entries = [] := by
    unfold Host.promptForTrust
    split
    · exact ⟨_, rfl, rfl⟩
    · exact ⟨_, rfl, rfl⟩
  obtain ⟨entries, hjournal, hnone⟩ := hprompt
  obtain ⟨hheld, hsame⟩ := diagnose_spec { r.front with trusted := r.host.promptForTrust.1 }
    r.host.promptForTrust.2
  refine stamped_quiet hheld entries (hsame.trans hjournal) ?_ ?_
  · rw [postedKeys, hnone]
    rfl
  · rw [hnone]
    exact nofun

theorem stamped_run (x : Happening) (r : Rig QuartzDriver) :
    Stamped r.front.held r.host.journal (x.run r).1 (x.run r).2 := by
  cases x with
  | sendKey key down => exact stamped_sendKey key down r
  | typeText s => exact stamped_of_adds (adds_typeChars s.toList) r
  | typeChar c => exact stamped_of_adds (adds_typeChar c) r
  | delay => exact stamped_of_adds (adds_pause _) r
  | requestPermissions => exact stamped_requestPermissions r
  | flush => exact stamped_refl r
  | setKeyDelay d => exact stamped_quiet rfl [] (List.append_nil _).symm rfl nofun
  | machineTurned port => exact stamped_quiet rfl [] (List.append_nil _).symm rfl nofun

theorem stamped_runAll (xs : List Happening) (r : Rig QuartzDriver) :
    Stamped r.front.held r.host.journal (runAll xs r).1 (runAll xs r).2 := by
  induction xs generalizing r with
  | nil => exact stamped_refl r
  | cons x xs ih => exact (stamped_run x r).trans (ih (x.run r).2)

/-! ## The flags of the events -/

theorem Stamped.exists_entries (h : Stamped {} journal sent r) :
    ∃ entries, r.host.journal = journal ++ entries ∧
      (postedKeys entries).map (fun event => (Key.ofQuartzCode event.code, event.down)) = sent ∧
      (∀ (n : Nat) (event : QuartzEvent), (postedKeys entries)[n]? = some event →
        event.flags = (({} : ModifierTracker).after (sent.take (n + 1))).current.toQuartz) ∧
      ∀ event ∈ posted entries, event.text.isSome → event.flags = 0 := by
  obtain ⟨entries, hjournal, hkeys, htexts⟩ := h.posts
  refine ⟨entries, hjournal, ?_, fun n event hevent => ?_, htexts⟩
  · -- each code is that of the key, so it leads back to it
    have hdecode : ∀ e ∈ ({} : ModifierTracker).events sent,
        (Key.ofQuartzCode (stamp e).code, (stamp e).down) = (e.key, e.pressed) := by
      intro e he
      have hmove : (e.key, e.pressed) ∈ sent := by
        rw [← ModifierTracker.map_events {} sent]
        exact List.mem_map_of_mem he
      obtain ⟨code, hcode⟩ := Option.isSome_iff_exists.1 (h.coded _ hmove)
      simp only [stamp, hcode, Option.getD_some, Key.ofQuartzCode_eq hcode]
    rw [hkeys, List.map_map]
    calc (({} : ModifierTracker).events sent).map _
        = (({} : ModifierTracker).events sent).map fun e => (e.key, e.pressed) :=
          List.map_congr_left hdecode
      _ = sent := ModifierTracker.map_events {} sent
  · rw [hkeys, List.getElem?_map, Option.map_eq_some_iff] at hevent
    obtain ⟨e, he, rfl⟩ := hevent
    exact congrArg Modifier.toQuartz (ModifierTracker.getElem?_events {} he)

/-- In every run of a driver, from when it is opened, the events of keys are those of the
transitions that were sent with success, and each has the flags of the mask that a new tracker gives
for the transitions up to it, one for each modifier of the mask that has one; texts have no flags.
What is held down follows from the same transitions: a transition that is refused changes neither
the driver nor the journal, and a text changes nothing but the journal. -/
theorem flags_of_run (s : SenderSettings) (h : Host) (xs : List Happening) :
    let run := runAll xs ⟨(connect s h).1, (connect s h).2⟩
    (∃ entries, run.2.host.journal = h.journal ++ entries ∧
      (postedKeys entries).map (fun event => (Key.ofQuartzCode event.code, event.down)) = run.1 ∧
      (∀ (n : Nat) (event : QuartzEvent), (postedKeys entries)[n]? = some event →
        let mask := (({} : ModifierTracker).after (run.1.take (n + 1))).current
        event.flags = mask.toQuartz ∧ ∀ flag, event.flags.testBit flag = true ↔
          ∃ i, Modifier.flag? i = some flag ∧ mask.bit i = true) ∧
      ∀ event ∈ posted entries, event.text.isSome → event.flags = 0) ∧
    run.2.front.held = ({} : ModifierTracker).after run.1 ∧
    (∀ (key : Key) (down : Bool) (e : DriverError), (sendKey key down run.2).1 = .error e →
      (sendKey key down run.2).2.front = run.2.front ∧
      (sendKey key down run.2).2.host.journal = run.2.host.journal) ∧
    (∀ text : String, Adds IsTyping (KeyboardDriver.typeText text : StateM (Rig QuartzDriver) _)) ∧
    ∀ c : Char, Adds IsTyping (typeChar c) := by
  intro run
  have hstamped : Stamped {} (connect s h).2.journal run.1 run.2 :=
    stamped_runAll xs ⟨(connect s h).1, (connect s h).2⟩
  rw [show (connect s h).2.journal = h.journal from (diagnose_spec _ _).2] at hstamped
  obtain ⟨entries, hjournal, hkeys, hflags, htexts⟩ := hstamped.exists_entries
  refine ⟨⟨entries, hjournal, hkeys, fun n event hevent => ⟨hflags n event hevent, fun flag => ?_⟩,
    htexts⟩, hstamped.held, fun key down e hresult => ?_, fun text => adds_typeChars text.toList,
    adds_typeChar⟩
  · rw [hflags n event hevent]
    exact Modifier.testBit_toQuartz _ flag
  obtain ⟨-, -, hfront, hjournal⟩ | ⟨-, -, hok, -⟩ := sendKey_cases key down run.2
  · exact ⟨hfront, hjournal⟩
  · rw [hok] at hresult
    cases hresult

-- A release that comes while the permission is withdrawn is refused, so Shift stays down.
example : (postedKeys (runAll
      [.sendKey .shiftLeft true, .machineTurned { trusted := false }, .requestPermissions,
        .sendKey .shiftLeft false, .machineTurned {}, .requestPermissions, .typeText "x",
        .sendKey .a true]
      ⟨(connect {} {}).1, (connect {} {}).2⟩).2.host.journal).map (·.flags) =
    [0x20000, 0x20000] := by
  decide +kernel

end QuartzDriver

end Keystroke
