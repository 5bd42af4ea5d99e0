import Keystroke.Proofs.Sender.Loopback
import Mathlib.Data.List.Forall2

/-!
# What the results of a sender tell about the kernel

The kernel may refuse any of the batches that a sender on Linux tries to write. The sender has
nothing but the results of its operations to go by: each of them is true if and only if all that it
stands for was written.

A refused write is tried once and forgotten. Whether the next one is taken depends on its number
alone, and the driver stays ready.

## Main statements

- `tries_tap`, `tries_forKeys`, `tries_combo`: what the composed operations try to write.
- `results_tell`: the attempts of a run, their outcomes, and what the results say about them.
-/

namespace Keystroke

/-- A batch that was tried to be written, and whether the kernel took it. -/
structure Attempt where
  batch : List InputEvent
  written : Bool
  deriving DecidableEq, Repr

namespace Attempt

/-- The batches that were written. -/
def batches (attempts : List Attempt) : List (List InputEvent) :=
  (attempts.filter (·.written)).map (·.batch)

@[simp] theorem batches_append (attempts attempts' : List Attempt) :
    batches (attempts ++ attempts') = batches attempts ++ batches attempts' := by
  simp [batches]

end Attempt

/-- Between two states of a machine the attempts were made. Each had the outcome that the kernel has
for its number, and what was written is in the journal. -/
structure Attempted (h h' : Host) (attempts : List Attempt) : Prop where
  fault : h'.uinput.fault = h.uinput.fault
  writes : h'.uinput.writes = h.uinput.writes + attempts.length
  outcomes : attempts.map (·.written) =
    (List.range' h.uinput.writes attempts.length).map fun n => (h.uinput.fault n).isNone
  journal : ∃ entries, h'.journal = h.journal ++ entries ∧
    batches entries = Attempt.batches attempts

namespace Attempted

variable {h h' h'' : Host} {attempts attempts' : List Attempt}

/-- Nothing was tried, and whatever else is in the journal is no batch. -/
theorem nothing {entries : List Entry} (hport : h'.uinput = h.uinput)
    (hjournal : h'.journal = h.journal ++ entries) (hentries : Keystroke.batches entries = []) :
    Attempted h h' [] := by
  refine ⟨?_, ?_, ?_, entries, hjournal, hentries⟩
  · rw [hport]
  · rw [hport]
    rfl
  · rfl

theorem refl (h : Host) : Attempted h h [] := nothing rfl (List.append_nil _).symm rfl

theorem trans (ha : Attempted h h' attempts) (ha' : Attempted h' h'' attempts') :
    Attempted h h'' (attempts ++ attempts') := by
  obtain ⟨entries, hjournal, hwritten⟩ := ha.journal
  obtain ⟨entries', hjournal', hwritten'⟩ := ha'.journal
  refine ⟨?_, ?_, ?_, entries ++ entries', ?_, ?_⟩
  · rw [ha'.fault, ha.fault]
  · rw [ha'.writes, ha.writes, List.length_append, Nat.add_assoc]
  · -- the later attempts are counted on from the earlier ones
    rw [List.map_append, ha.outcomes, ha'.outcomes, ha.writes, ha.fault, List.length_append,
      ← List.range'_append_1, List.map_append]
  · rw [hjournal', hjournal, List.append_assoc]
  · rw [Keystroke.batches_append, hwritten, hwritten', Attempt.batches_append]

theorem length_eq (ha : Attempted h h' attempts) :
    attempts.length = h'.uinput.writes - h.uinput.writes := by
  have hwrites := ha.writes
  omega

theorem batches_journal (ha : Attempted h h' attempts) :
    Keystroke.batches h'.journal = Keystroke.batches h.journal ++ Attempt.batches attempts := by
  obtain ⟨entries, hjournal, hwritten⟩ := ha.journal
  rw [hjournal, Keystroke.batches_append, hwritten]

end Attempted

namespace UinputDriver

theorem opened_of_connect (s : SenderSettings) {h : Host} (hr : h.uinput.refusal = none) :
    (connect s h).1.Opened := by
  simp only [connect, Host.createDevice, hr]
  exact ⟨rfl, rfl⟩

/-- Whether or not it is told so, the kernel goes on to count the writes. -/
theorem attempted_emit (batch : List InputEvent) (r : Rig UinputDriver) :
    (emit batch r).2.front = r.front ∧
      Attempted r.host (emit batch r).2.host [⟨batch, Sender.succeeded (emit batch r).1⟩] := by
  cases hfault : r.host.uinput.fault r.host.uinput.writes with
  | some e =>
    have hemit : emit batch r = (.error (.os e), ⟨r.front,
        { r.host with uinput := { r.host.uinput with writes := r.host.uinput.writes + 1 } }⟩) := by
      simp only [emit, bind, StateT.bind, Rig.atHost, Host.write, hfault]
      rfl
    rw [hemit]
    refine ⟨rfl, rfl, rfl, ?_, [], (List.append_nil _).symm, rfl⟩
    simp [Sender.succeeded, hfault]
  | none =>
    have hemit : emit batch r = (.ok (), ⟨r.front, wrote batch r.host⟩) := by
      simp only [emit, bind, StateT.bind, Rig.atHost, Host.write, hfault]
      rfl
    rw [hemit]
    refine ⟨rfl, rfl, rfl, ?_, [.wrote batch], rfl, rfl⟩
    simp [Sender.succeeded, hfault]

end UinputDriver

namespace Sender

variable {α β : Type}

/-! ## What the operations stand for -/

/-- A transition of a key is tried once, with the outcome as the result. A key without a code is not
even tried, and that is a failure. -/
def Stroke (key : Key) (down : Bool) (attempts : List Attempt) (done : Bool) : Prop :=
  match key.evdevCode with
  | none => attempts = [] ∧ done = false
  | some code => attempts = [⟨[UinputDriver.keyEvent code down], done⟩]

/-- A transition of each of the keys is tried, in order and whatever becomes of the others. The
result is whether all of them were written. -/
def Strokes (keys : List Key) (down : Bool) (attempts : List Attempt) (done : Bool) : Prop :=
  List.Forall₂ (fun key attempt => ∃ code, key.evdevCode = some code ∧
    attempt.batch = [UinputDriver.keyEvent code down]) keys attempts ∧
  (done = true ↔ ∀ attempt ∈ attempts, attempt.written = true)

/-- A press of the key is tried and, if it was written, a release. The result is whether both were
written. -/
def Taps (key : Key) (attempts : List Attempt) (done : Bool) : Prop :=
  match key.evdevCode with
  | none => attempts = [] ∧ done = false
  | some code => ∃ pressed released,
    attempts = ⟨[UinputDriver.keyEvent code true], pressed⟩ ::
      (if pressed then [⟨[UinputDriver.keyEvent code false], released⟩] else []) ∧
    done = (pressed && released)

/-- What is to be tried for an operation, and what its result says about it. -/
def Operation.Tells (attempts : List Attempt) (done : Bool) : Operation → Prop
  | .keyDown key => Stroke key true attempts done
  | .keyUp key => Stroke key false attempts done
  | .tap key => Taps key attempts done
  | .hold mask => Strokes mask.leftKeys true attempts done
  | .release mask => Strokes mask.leftKeys false attempts done
  | .releaseAll => Strokes Modifier.chord.leftKeys false attempts done
  | .combo mask key => ∃ holds taps releases held tapped released,
      attempts = holds ++ taps ++ releases ∧
      Strokes mask.leftKeys true holds held ∧
      (if held then Taps key taps tapped else taps = []) ∧
      Strokes mask.leftKeys false releases released ∧
      done = (held && tapped)
  | .typeText _ | .typeUtf32 _ | .typeChar _ => attempts = [] ∧ done = false
  | .flush => attempts = [⟨[], done⟩]
  | .requestPermissions | .setKeyDelay _ => attempts = [] ∧ done = true

/-! ## Actions and their attempts -/

/-- Over an opened driver, the action makes attempts and has a result that belong together, and the
driver stays opened. -/
def Tries (act : StateM (Rig (Sender UinputDriver)) α) (post : List Attempt → α → Prop) : Prop :=
  ∀ r, r.front.driver.Opened → (act r).2.front.driver.Opened ∧
    ∃ attempts, Attempted r.host (act r).2.host attempts ∧ post attempts (act r).1

theorem Tries.pure {post : List Attempt → α → Prop} {a : α} (h : post [] a) :
    Tries (pure a) post := by
  intro r hr
  exact ⟨hr, [], .refl r.host, h⟩

theorem Tries.bind {act : StateM (Rig (Sender UinputDriver)) α} {post : List Attempt → α → Prop}
    {next : α → StateM (Rig (Sender UinputDriver)) β} {post' : List Attempt → β → Prop}
    (h : Tries act post)
    (h' : ∀ attempts a, post attempts a →
      Tries (next a) fun later b => post' (attempts ++ later) b) :
    Tries (act >>= next) post' := by
  intro r hr
  obtain ⟨hopened, attempts, hattempted, hpost⟩ := h r hr
  obtain ⟨hopened', later, hlater, hpost'⟩ := h' attempts _ hpost _ hopened
  exact ⟨hopened', attempts ++ later, hattempted.trans hlater, hpost'⟩

theorem tries_send (key : Key) (down : Bool) : Tries (send key down) (Stroke key down) := by
  intro r hr
  have hsend := UinputDriver.sendKey_of_opened (r := ⟨r.front.driver, r.host⟩) hr key down
  have hdrive : send key down r =
      let answer := UinputDriver.sendKey key down ⟨r.front.driver, r.host⟩
      (succeeded answer.1, ⟨{ r.front with driver := answer.2.front }, answer.2.host⟩) := rfl
  rw [hdrive, hsend]
  unfold Stroke
  cases key.evdevCode with
  | none => exact ⟨hr, [], .refl r.host, rfl, rfl⟩
  | some code =>
    obtain ⟨hfront, hattempted⟩ := UinputDriver.attempted_emit [UinputDriver.keyEvent code down]
      ⟨r.front.driver, r.host⟩
    refine ⟨?_, _, hattempted, rfl⟩
    dsimp only
    rw [hfront]
    exact hr

theorem tries_account (f : Modifier → Modifier) : Tries (account f) fun attempts _ =>
    attempts = [] := by
  intro r hr
  exact ⟨hr, [], .refl r.host, rfl⟩

theorem tries_keyDown (key : Key) : Tries (keyDown key) (Stroke key true) := by
  apply (tries_account _).bind
  rintro attempts - rfl
  exact tries_send key true

theorem tries_keyUp (key : Key) : Tries (keyUp key) (Stroke key false) := by
  apply (tries_send key false).bind
  intro attempts sent hsent
  apply (tries_account _).bind
  rintro later - rfl
  apply Tries.pure
  simpa using hsent

theorem tries_delay : Tries (drive KeyboardDriver.delay) fun attempts _ => attempts = [] := by
  intro r hr
  exact ⟨hr, [], .nothing rfl rfl (batches_slept _), rfl⟩

/-- The key comes up only if it went down. -/
theorem tries_tap (key : Key) : Tries (tap key) (Taps key) := by
  unfold Taps
  apply (tries_keyDown key).bind
  intro press pressed hpress
  unfold Stroke at hpress
  cases hcode : key.evdevCode with
  | none =>
    rw [hcode] at hpress
    obtain ⟨rfl, rfl⟩ := hpress
    exact Tries.pure ⟨rfl, rfl⟩
  | some code =>
    rw [hcode] at hpress
    subst hpress
    cases pressed with
    | false =>
      apply Tries.pure
      exact ⟨false, false, rfl, rfl⟩
    | true =>
      apply tries_delay.bind
      rintro pause - rfl
      intro r hr
      obtain ⟨hopened, release, hattempted, hrelease⟩ := tries_keyUp key r hr
      refine ⟨hopened, release, hattempted, true, (keyUp key r).1, ?_, rfl⟩
      unfold Stroke at hrelease
      rw [hcode] at hrelease
      rw [hrelease]
      rfl

/-- An action that tries a transition of a key tries one of each of several keys. -/
theorem tries_forKeys {act : Key → StateM (Rig (Sender UinputDriver)) Bool} {down : Bool}
    (h : ∀ key, Tries (act key) (Stroke key down)) {keys : List Key} (hkeys : .unknown ∉ keys) :
    Tries (forKeys act keys) (Strokes keys down) := by
  induction keys with
  | nil =>
    apply Tries.pure
    exact ⟨.nil, by simp⟩
  | cons key keys ih =>
    rw [List.mem_cons, not_or] at hkeys
    obtain ⟨code, hcode⟩ : ∃ code, key.evdevCode = some code := by
      apply Option.ne_none_iff_exists'.1
      intro hnone
      exact hkeys.1 (Key.evdevCode_eq_none hnone).symm
    apply (h key).bind
    intro attempts done hstroke
    unfold Stroke at hstroke
    rw [hcode] at hstroke
    subst hstroke
    apply (ih hkeys.2).bind
    intro later others hstrokes
    apply Tries.pure
    refine ⟨.cons ⟨code, hcode, rfl⟩ ?_, ?_⟩
    · simpa using hstrokes.1
    · simp [hstrokes.2]

theorem unknown_notMem_leftKeys (mask : Modifier) : .unknown ∉ mask.leftKeys := by
  unfold Modifier.leftKeys
  simp only [List.mem_append, not_or]
  refine ⟨⟨⟨?_, ?_⟩, ?_⟩, ?_⟩ <;> split <;> simp

theorem tries_hold (mask : Modifier) : Tries (hold mask) (Strokes mask.leftKeys true) := by
  rw [hold_eq]
  exact tries_forKeys tries_keyDown (unknown_notMem_leftKeys mask)

theorem tries_release (mask : Modifier) : Tries (release mask) (Strokes mask.leftKeys false) := by
  rw [release_eq]
  exact tries_forKeys tries_keyUp (unknown_notMem_leftKeys mask)

/-- The result is about the presses and the tap, whatever becomes of the releases. -/
theorem tries_combo (mask : Modifier) (key : Key) : Tries (combo mask key) fun attempts done =>
    Operation.Tells attempts done (.combo mask key) := by
  -- the keys are released and the result is given whether or not there was a tap
  have hend : ∀ {holds taps : List Attempt} {held tapped : Bool},
      Strokes mask.leftKeys true holds held →
      (if held then Taps key taps tapped else taps = []) →
      Tries (do let _ ← release mask; return held && tapped) fun releases done =>
        Operation.Tells (holds ++ taps ++ releases) done (.combo mask key) := by
    intro holds taps held tapped hholds htaps
    apply (tries_release mask).bind
    intro releases released hreleases
    apply Tries.pure
    rw [List.append_nil]
    exact ⟨holds, taps, releases, held, tapped, released, rfl, hholds, htaps, hreleases, rfl⟩
  apply (tries_hold mask).bind
  intro holds held hholds
  cases held with
  | false =>
    have htaps : if false then Taps key [] false else ([] : List Attempt) = [] := rfl
    have hrest := hend hholds htaps
    rw [List.append_nil] at hrest
    exact hrest
  | true =>
    apply tries_delay.bind
    rintro pause - rfl
    apply (tries_tap key).bind
    intro taps tapped htaps
    apply tries_delay.bind
    rintro pause - rfl
    simpa using hend hholds htaps

theorem tries_refuseText {act : StateM (Rig (Sender UinputDriver)) Bool}
    (h : ∀ r, act r = (false, r)) :
    Tries act fun attempts done => attempts = [] ∧ done = false := by
  intro r hr
  rw [h r]
  exact ⟨hr, [], .refl r.host, rfl, rfl⟩

theorem tries_report (message : String) : Tries (Rig.report message) fun attempts _ =>
    attempts = [] := by
  intro r hr
  exact ⟨hr, [], .nothing rfl (List.append_nil _).symm rfl, rfl⟩

theorem tries_typeUtf32 (values : List UInt32) :
    Tries (typeUtf32 values) fun attempts done => attempts = [] ∧ done = false := by
  unfold typeUtf32
  cases charsOf values with
  | ok cs => exact tries_refuseText fun _ => rfl
  | error value =>
    apply (tries_report _).bind
    rintro attempts - rfl
    exact Tries.pure ⟨rfl, rfl⟩

theorem tries_typeChar (value : UInt32) :
    Tries (typeChar value) fun attempts done => attempts = [] ∧ done = false := by
  unfold typeChar
  cases charOf? value with
  | some c => exact tries_refuseText fun _ => rfl
  | none =>
    apply (tries_report _).bind
    rintro attempts - rfl
    exact Tries.pure ⟨rfl, rfl⟩

theorem tries_flush : Tries flush fun attempts done => attempts = [⟨[], done⟩] := by
  intro r hr
  have hready : r.front.isReady = true := hr.device
  have hflush := UinputDriver.flush_of_opened (r := ⟨r.front.driver, r.host⟩) hr
  have hdrive : (do return succeeded (← drive KeyboardDriver.flush)) r =
      let answer := KeyboardDriver.flush ⟨r.front.driver, r.host⟩
      (succeeded answer.1, ⟨{ r.front with driver := answer.2.front }, answer.2.host⟩) := rfl
  obtain ⟨hfront, hattempted⟩ := UinputDriver.attempted_emit [] ⟨r.front.driver, r.host⟩
  rw [flush_eq, if_pos hready, hdrive, hflush]
  refine ⟨?_, _, hattempted, rfl⟩
  dsimp only
  rw [hfront]
  exact hr

/-- An operation tries what there is to be tried for it, and its result tells what came of it. -/
theorem tries_perform (op : Operation) :
    Tries (perform op) fun attempts done => op.Tells attempts done := by
  cases op with
  | keyDown key => exact tries_keyDown key
  | keyUp key => exact tries_keyUp key
  | tap key => exact tries_tap key
  | hold mask => exact tries_hold mask
  | release mask => exact tries_release mask
  | releaseAll => exact tries_release .chord
  | combo mask key => exact tries_combo mask key
  | typeText s => exact tries_refuseText fun _ => rfl
  | typeUtf32 values => exact tries_typeUtf32 values
  | typeChar value => exact tries_typeChar value
  | flush => exact tries_flush
  | requestPermissions =>
    intro r hr
    exact ⟨hr, [], .refl r.host, rfl, hr.device⟩
  | setKeyDelay micros =>
    intro r hr
    exact ⟨⟨hr.device, hr.codes⟩, [], .refl r.host, rfl, rfl⟩

/-- The attempts of a run are those of its operations, one after the other. -/
theorem tries_performAll (ops : List Operation) :
    Tries (performAll ops) fun attempts results =>
      ∃ reports : List (List Attempt × Bool), results = reports.map (·.2) ∧
        attempts = reports.flatMap (·.1) ∧
        List.Forall₂ (fun op report => op.Tells report.1 report.2) ops reports := by
  induction ops with
  | nil => exact Tries.pure ⟨[], rfl, rfl, .nil⟩
  | cons op ops ih =>
    apply (tries_perform op).bind
    intro attempts done htells
    apply ih.bind
    rintro later results ⟨reports, rfl, rfl, hall⟩
    apply Tries.pure
    refine ⟨(attempts, done) :: reports, rfl, ?_, .cons htells hall⟩
    rw [List.append_nil, List.flatMap_cons]

/-- **What the results tell**, for any sender over an opened driver, after any operations and
whatever writes the kernel refuses. Each further operation tries to write what there is to be
written for it, and its result is whether the presses and releases that it stands for were all
written. What the operations wrote, put together, is what is new in the journal. A refusal has no
consequences: the driver is ready afterwards, and every attempt has the outcome that the kernel has
for its number. -/
theorem results_tell (s : SenderSettings) {h : Host} (hr : h.uinput.refusal = none)
    (earlier ops : List Operation) :
    let opened := UinputDriver.connect s h
    let r := (performAll earlier ⟨{ driver := opened.1 }, opened.2⟩).2
    let run := performAll ops r
    ∃ reports : List (List Attempt × Bool),
      run.1 = reports.map (·.2) ∧
      List.Forall₂ (fun op report => op.Tells report.1 report.2) ops reports ∧
      Attempted r.host run.2.host (reports.flatMap (·.1)) ∧
      run.2.front.isReady = true ∧ run.2.host.uinput.fault = h.uinput.fault := by
  intro opened r run
  have hstart := UinputDriver.opened_of_connect s hr
  obtain ⟨hopened, attempts, hattempted, -⟩ :=
    tries_performAll earlier ⟨{ driver := opened.1 }, opened.2⟩ hstart
  obtain ⟨hfinal, later, hlater, reports, hresults, rfl, htells⟩ := tries_performAll ops r hopened
  refine ⟨reports, hresults, htells, hlater, hfinal.device, ?_⟩
  have hfault : opened.2.uinput.fault = h.uinput.fault := by
    simp only [opened, UinputDriver.connect, Host.createDevice, hr, UinputDriver.settle]
    split <;> rfl
  rw [hlater.fault, hattempted.fault]
  exact hfault

/-- The kernel refuses the release of the tapped key: the combination fails, though all else of it
is written, and the flush after it succeeds. -/
theorem results_tell_refused :
    let h : Host := { uinput := { fault := fun n => if n = 2 then some ⟨5⟩ else none } }
    h.uinput.refusal = none ∧
      ∃ reports : List (List Attempt × Bool), reports.map (·.2) = [false, true] ∧
        (reports.flatMap (·.1)).map (·.written) = [true, true, false, true, true] ∧
        Attempt.batches (reports.flatMap (·.1)) =
          [[⟨1, 42, 1⟩], [⟨1, 30, 1⟩], [⟨1, 42, 0⟩], []] := by
  intro h
  obtain ⟨reports, hresults, -, hattempted, -, -⟩ :=
    results_tell {} (h := h) rfl [] [.combo .shift .a, .flush]
  refine ⟨rfl, reports, ?_, ?_, ?_⟩
  · rw [← hresults]
    decide +kernel
  · rw [hattempted.outcomes, hattempted.length_eq]
    decide +kernel
  · apply List.append_cancel_left
    apply hattempted.batches_journal.symm.trans
    decide +kernel

end Sender

end Keystroke
