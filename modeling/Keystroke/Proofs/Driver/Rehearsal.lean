import Keystroke.Proofs.Driver.Readiness
import Keystroke.Proofs.Driver.Uinput

/-!
# Rehearsing with the recorder

Programs rehearse with the recording driver in place of the one of the system. On Linux, what they
see of the rehearsal is what they will see of the performance: the recorder without support for
texts gives the results that an opened driver gives whose writes all succeed, and the recorder that
is not ready gives those of a driver without a device. The record tells what the machine goes
through.

## Main statements

- `rehearsing_step`: the two do the same at every step that does not set the delay.
- `StandsIn.agreement`: so they do in every run.
- `rehearsal`: the recorders that stand in for an opened driver and for one without a device.
-/

namespace Keystroke

/-- What the machine goes through for something recorded, with the delay that is in force. -/
def Recorder.Op.image (delay : KeyDelay) : Recorder.Op → List Entry
  | .key key' down => key'.evdevCode.toList.map fun code => .wrote [UinputDriver.keyEvent code down]
  -- without support for texts none is recorded
  | .text _ => []
  | .flush => [.wrote []]
  | .delay => delay.sleeps.map .slept

/-- The recorder stands in for the driver on its machine. -/
structure Mirrors (d : Recorder) (e : UinputDriver) (h : Host) : Prop where
  ready : d.ready = e.device
  noText : d.textSupported = false
  noneUnmapped : d.unmapped = []
  working : d.failing = false
  codes : e.codes = UinputDriver.codeTable
  writes : e.device = true → UinputDriver.WritesAll h
  keyDelay : d.keyDelay = e.keyDelay

/-! ## The two drivers -/

theorem Recorder.accept_of_ok {check : Recorder → DriverResult} {r : Rig Recorder}
    (h : check r.front = .ok ()) (op : Op) :
    accept check op r = (.ok (), { r with front := r.front.add op }) := by
  simp only [accept, bind, StateT.bind, get, getThe, MonadStateOf.get, StateT.get, pure, h]
  rfl

namespace Mirrors

variable {d : Recorder} {e : UinputDriver} {h : Host}

theorem checkKey_of_not_ready (hd : d.ready = false) (key : Key) :
    d.checkKey key = .error .notReady := by
  simp [Recorder.checkKey, hd]

/-- The recorder has a code for the keys that have one on Linux, though it is another one. -/
theorem checkKey (hm : Mirrors d e h) (hd : d.ready = true) (key : Key) :
    d.checkKey key =
      match key.evdevCode with
      | none => .error (.unmappedKey key)
      | some _ => .ok () := by
  cases hcode : key.evdevCode with
  | none =>
    obtain rfl := Key.evdevCode_eq_none hcode
    simp [Recorder.checkKey, Recorder.keyCode, hd]
  | some code =>
    have hne : key ≠ .unknown := by
      intro hkey
      rw [hkey] at hcode
      cases hcode
    simp [Recorder.checkKey, Recorder.keyCode, Recorder.failure, hd, hne, hm.noneUnmapped,
      hm.working]

theorem checkText (hm : Mirrors d e h) : ∃ error, d.checkText = .error error := by
  cases hd : d.ready with
  | false => exact ⟨.notReady, by simp [Recorder.checkText, hd]⟩
  | true =>
    exact ⟨.unsupported "unicode text injection", by simp [Recorder.checkText, hd, hm.noText]⟩

end Mirrors

/-! ## Steps of the two senders -/

namespace Sender

/-- A sender over the recorder rehearses for a sender over the driver, and with a constant delay
they have come from the given record and journal. -/
structure Rehearsing (delay : KeyDelay) (record : List Recorder.Op) (journal : List Entry)
    (x : Rig (Sender Recorder)) (y : Rig (Sender UinputDriver)) : Prop where
  mirrors : Mirrors x.front.driver y.front.driver y.host
  active : x.front.active = y.front.active
  inForce : x.front.driver.keyDelay = delay
  image : ∃ new, x.front.driver.record = record ++ new ∧
    y.host.journal = journal ++ new.flatMap (·.image delay)

section

variable {delay : KeyDelay} {record : List Recorder.Op} {journal : List Entry} {d : Recorder}
  {e : UinputDriver} {active : Modifier} {x y y' : Host}
  (h : Rehearsing delay record journal ⟨⟨d, active⟩, x⟩ ⟨⟨e, active⟩, y⟩)
include h

/-- What is added to the record has to have its image in the journal. -/
theorem Rehearsing.add (active' : Modifier) (x' : Host) (op : Recorder.Op)
    (hport : y'.uinput.fault = y.uinput.fault)
    (hjournal : y'.journal = y.journal ++ op.image delay) :
    Rehearsing delay record journal ⟨⟨d.add op, active'⟩, x'⟩ ⟨⟨e, active'⟩, y'⟩ := by
  obtain ⟨new, hrecord, himage⟩ := h.image
  dsimp only at hrecord himage
  have hmirrors : Mirrors (d.add op) e y' := by
    refine ⟨h.mirrors.ready, h.mirrors.noText, h.mirrors.noneUnmapped, h.mirrors.working,
      h.mirrors.codes, ?_, h.mirrors.keyDelay⟩
    intro hdevice n
    rw [hport]
    exact h.mirrors.writes hdevice n
  refine ⟨hmirrors, rfl, h.inForce, new ++ [op], ?_, ?_⟩
  · simp [Recorder.add, hrecord]
  · simp [hjournal, himage]

/-- Without an addition to the record the journal may not change either. -/
theorem Rehearsing.refuse (active' : Modifier) (x' : Host)
    (hport : y'.uinput = y.uinput) (hjournal : y'.journal = y.journal) :
    Rehearsing delay record journal ⟨⟨d, active'⟩, x'⟩ ⟨⟨e, active'⟩, y'⟩ := by
  obtain ⟨new, hrecord, himage⟩ := h.image
  have hmirrors : Mirrors d e y' := by
    refine ⟨h.mirrors.ready, h.mirrors.noText, h.mirrors.noneUnmapped, h.mirrors.working,
      h.mirrors.codes, ?_, h.mirrors.keyDelay⟩
    intro hdevice n
    rw [hport]
    exact h.mirrors.writes hdevice n
  refine ⟨hmirrors, rfl, h.inForce, new, hrecord, ?_⟩
  rw [hjournal]
  exact himage

/-- A key is recorded if it would be written, and refused otherwise. -/
theorem Rehearsing.send (key : Key) (down : Bool) (active' : Modifier) :
    let answer := KeyboardDriver.sendKey key down (⟨d, x⟩ : Rig Recorder)
    let answer' := UinputDriver.sendKey key down ⟨e, y⟩
    succeeded answer.1 = succeeded answer'.1 ∧
      Rehearsing delay record journal ⟨⟨answer.2.front, active'⟩, answer.2.host⟩
        ⟨⟨answer'.2.front, active'⟩, answer'.2.host⟩ := by
  intro answer answer'
  cases hready : d.ready with
  | false =>
    have hdevice : e.device = false := h.mirrors.ready.symm.trans hready
    have hanswer : answer = (.error .notReady, ⟨d, x⟩) :=
      Recorder.accept_of_error (Mirrors.checkKey_of_not_ready hready key) _
    have hanswer' : answer' = (.error .notReady, ⟨e, y⟩) := giveUp hdevice
    rw [hanswer, hanswer']
    exact ⟨rfl, h.refuse active' x rfl rfl⟩
  | true =>
    have hdevice : e.device = true := h.mirrors.ready.symm.trans hready
    have hcheck := h.mirrors.checkKey hready key
    have hsend : answer' = _ :=
      UinputDriver.sendKey_eq ⟨hdevice, h.mirrors.codes⟩ (h.mirrors.writes hdevice) key down
    rw [hsend]
    cases hcode : key.evdevCode with
    | none =>
      rw [hcode] at hcheck
      have hanswer : answer = (.error (.unmappedKey key), ⟨d, x⟩) :=
        Recorder.accept_of_error hcheck _
      rw [hanswer]
      exact ⟨rfl, h.refuse active' x rfl rfl⟩
    | some code =>
      rw [hcode] at hcheck
      have hanswer : answer = (.ok (), ⟨d.add (.key key down), x⟩) :=
        Recorder.accept_of_ok hcheck _
      rw [hanswer]
      refine ⟨rfl, h.add active' x (.key key down) rfl ?_⟩
      simp [UinputDriver.wrote, Recorder.Op.image, hcode]

/-- No text is taken, for whatever reason. -/
theorem Rehearsing.refuseText (op : Recorder.Op) :
    let answer := Recorder.accept Recorder.checkText op ⟨d, x⟩
    succeeded answer.1 = false ∧
      Rehearsing delay record journal ⟨⟨answer.2.front, active⟩, answer.2.host⟩
        ⟨⟨e, active⟩, y⟩ := by
  intro answer
  obtain ⟨error, hcheck⟩ := h.mirrors.checkText
  have hanswer : answer = (.error error, ⟨d, x⟩) := Recorder.accept_of_error hcheck op
  rw [hanswer]
  exact ⟨rfl, h⟩

theorem Rehearsing.flush :
    (flush ⟨⟨d, active⟩, x⟩).1 = (flush ⟨⟨e, active⟩, y⟩).1 ∧
      Rehearsing delay record journal (flush ⟨⟨d, active⟩, x⟩).2
        (flush ⟨⟨e, active⟩, y⟩).2 := by
  cases hready : d.ready with
  | false =>
    have hdevice : e.device = false := h.mirrors.ready.symm.trans hready
    have hrecorder : Sender.flush ⟨⟨d, active⟩, x⟩ = (false, ⟨⟨d, active⟩, x⟩) :=
      (flush_eq _).trans (if_neg (by simp [isReady, KeyboardDriver.isReady, hready]))
    have hdriver : Sender.flush ⟨⟨e, active⟩, y⟩ = (false, ⟨⟨e, active⟩, y⟩) :=
      (flush_eq _).trans (if_neg (by simp [isReady, KeyboardDriver.isReady, hdevice]))
    rw [hrecorder, hdriver]
    exact ⟨rfl, h⟩
  | true =>
    have hdevice : e.device = true := h.mirrors.ready.symm.trans hready
    have hrecorder : Sender.flush ⟨⟨d, active⟩, x⟩ = (true, ⟨⟨d.add .flush, active⟩, x⟩) := by
      obtain ⟨ready⟩ := d
      subst hready
      rfl
    have hwrite : KeyboardDriver.flush (⟨e, y⟩ : Rig UinputDriver) =
        (.ok (), ⟨e, UinputDriver.wrote [] y⟩) :=
      UinputDriver.flush_eq ⟨hdevice, h.mirrors.codes⟩ (h.mirrors.writes hdevice)
    have hdriver : Sender.flush ⟨⟨e, active⟩, y⟩ =
        (true, ⟨⟨e, active⟩, UinputDriver.wrote [] y⟩) := by
      have hsender : (⟨e, active⟩ : Sender UinputDriver).isReady = true := hdevice
      rw [flush_eq, if_pos hsender]
      simp only [bind, StateT.bind, drive, hwrite]
      rfl
    rw [hrecorder, hdriver]
    exact ⟨rfl, h.add active x .flush rfl rfl⟩

end

/-- The two senders do the same at every step that does not set the delay. -/
theorem rehearsing_step (delay : KeyDelay) (record : List Recorder.Op) (journal : List Entry) :
    SteadySimulation (Rehearsing delay record journal) := by
  rintro step hstep ⟨⟨d, active⟩, x⟩ ⟨⟨e, active'⟩, y⟩ h
  obtain rfl : active = active' := h.active
  cases step with
  | keyDown key => exact h.send key true _
  | keyUp key => exact h.send key false _
  | delay =>
    have hdelay : e.keyDelay = delay := h.mirrors.keyDelay.symm.trans h.inForce
    refine ⟨rfl, h.add active _ .delay rfl ?_⟩
    rw [← hdelay]
    rfl
  | typeText s => exact h.refuseText _
  | typeScalar c => exact h.refuseText _
  | report message => exact ⟨rfl, h.refuse active _ rfl rfl⟩
  | flush => exact h.flush
  | requestPermissions => exact ⟨h.mirrors.ready, h⟩
  | setKeyDelay micros => exact absurd rfl (hstep micros)

/-! ## Runs of the two senders -/

/-- A sender over the recorder stands in for a sender over the driver. -/
structure StandsIn (x : Rig (Sender Recorder)) (y : Rig (Sender UinputDriver)) : Prop where
  mirrors : Mirrors x.front.driver y.front.driver y.host
  active : x.front.active = y.front.active

variable {x : Rig (Sender Recorder)} {y : Rig (Sender UinputDriver)}

/-- What an operation adds to the record has its image in the journal, with the delay that is in
force at its beginning. -/
theorem StandsIn.perform (h : StandsIn x y) (op : Operation) :
    (perform op x).1 = (perform op y).1 ∧ StandsIn (perform op x).2 (perform op y).2 ∧
      ∃ new, (perform op x).2.front.driver.record = x.front.driver.record ++ new ∧
        (perform op y).2.host.journal =
          y.host.journal ++ new.flatMap (·.image x.front.driver.keyDelay) := by
  -- the delay in force is the same all through an operation, but for the one that sets it
  by_cases hop : ∃ micros, op = .setKeyDelay micros
  · obtain ⟨micros, rfl⟩ := hop
    have hm := h.mirrors
    refine ⟨rfl, ⟨⟨hm.ready, hm.noText, hm.noneUnmapped, hm.working, hm.codes, hm.writes, rfl⟩,
      h.active⟩, [], ?_, ?_⟩
    · exact (List.append_nil _).symm
    · exact (List.append_nil _).symm
  · have hsteady := rehearsing_step x.front.driver.keyDelay x.front.driver.record y.host.journal
    have hstart : Rehearsing x.front.driver.keyDelay x.front.driver.record y.host.journal x y :=
      ⟨h.mirrors, h.active, rfl, [], (List.append_nil _).symm, (List.append_nil _).symm⟩
    obtain ⟨hresult, hfinal⟩ := hsteady.perform (fun micros hop' => hop ⟨micros, hop'⟩) x y hstart
    exact ⟨hresult, ⟨hfinal.mirrors, hfinal.active⟩, hfinal.image⟩

/-- What a run adds to the record, each item with the delay that is in force at that time. An
operation that sets the delay records nothing, and during any other one it is constant. -/
def timed : List Operation → Rig (Sender Recorder) → List (KeyDelay × Recorder.Op)
  | [], _ => []
  | op :: ops, x =>
    let x' := (perform op x).2
    (x'.front.driver.record.drop x.front.driver.record.length).map (x.front.driver.keyDelay, ·) ++
      timed ops x'

/-- The operations give the same results on both sides and leave both with the same account,
readiness and delay, and the journal goes on as the record does. -/
structure Agreement (ops : List Operation) (x : Rig (Sender Recorder))
    (y : Rig (Sender UinputDriver)) : Prop where
  results : (performAll ops x).1 = (performAll ops y).1
  active : (performAll ops x).2.front.active = (performAll ops y).2.front.active
  ready : (performAll ops x).2.front.isReady = (performAll ops y).2.front.isReady
  keyDelay : (performAll ops x).2.front.keyDelay = (performAll ops y).2.front.keyDelay
  record : (performAll ops x).2.front.driver.record =
    x.front.driver.record ++ (timed ops x).map (·.2)
  journal : (performAll ops y).2.host.journal =
    y.host.journal ++ (timed ops x).flatMap fun item => item.2.image item.1

theorem StandsIn.agreement (h : StandsIn x y) (ops : List Operation) : Agreement ops x y := by
  induction ops generalizing x y with
  | nil =>
    exact ⟨rfl, h.active, h.mirrors.ready, h.mirrors.keyDelay, (List.append_nil _).symm,
      (List.append_nil _).symm⟩
  | cons op ops ih =>
    obtain ⟨hresult, hstate, new, hrecord, hjournal⟩ := h.perform op
    have hrest := ih hstate
    have htimed : timed (op :: ops) x =
        new.map (x.front.driver.keyDelay, ·) ++ timed ops (Sender.perform op x).2 := by
      simp [timed, hrecord]
    refine ⟨?_, hrest.active, hrest.ready, hrest.keyDelay, ?_, ?_⟩
    · rw [performAll_cons, performAll_cons, hresult, hrest.results]
    · rw [htimed]
      refine hrest.record.trans ?_
      simp [hrecord, Function.comp_def]
    · rw [htimed]
      refine hrest.journal.trans ?_
      simp [hjournal, List.flatMap_map]

/-- **The rehearsal**: a run over the recorder without support for texts is like the same run over a
driver that was opened with the same delay and whose writes all succeed, and a run over the recorder
that is not ready is like one over a driver without a device. Since any run may be a part of a
longer one, they are alike after every operation. -/
theorem rehearsal (s : SenderSettings) (h : Host) (diagnostic : String) (x : Host)
    (ops : List Operation) :
    let opened := UinputDriver.connect s h
    let real : Rig (Sender UinputDriver) := ⟨{ driver := opened.1 }, opened.2⟩
    (h.uinput.refusal = none → UinputDriver.WritesAll h →
      Agreement ops ⟨{ driver := { Recorder.new with
        textSupported := false, keyDelay := ⟨s.keyDelay⟩ } }, x⟩ real) ∧
    (h.uinput.refusal ≠ none →
      Agreement ops ⟨{ driver := { Recorder.notReady diagnostic with
        keyDelay := ⟨s.keyDelay⟩ } }, x⟩ real) := by
  intro opened real
  constructor
  · intro hr hw
    obtain ⟨hopened, hwrites⟩ := UinputDriver.opened_connect s hr hw
    have hdelay : opened.1.keyDelay = ⟨s.keyDelay⟩ := by
      simp only [opened, UinputDriver.connect, Host.createDevice, hr]
    have hstart : Mirrors { Recorder.new with textSupported := false, keyDelay := ⟨s.keyDelay⟩ }
        opened.1 opened.2 :=
      ⟨hopened.device.symm, rfl, rfl, rfl, hopened.codes, fun _ => hwrites, hdelay.symm⟩
    exact StandsIn.agreement ⟨hstart, rfl⟩ ops
  · intro hr
    obtain ⟨error, hr⟩ := Option.ne_none_iff_exists'.1 hr
    have hopened : opened.1.device = false ∧ opened.1.codes = UinputDriver.codeTable ∧
        opened.1.keyDelay = ⟨s.keyDelay⟩ := by
      simp only [opened, UinputDriver.connect, Host.createDevice, hr, and_self]
    obtain ⟨hdevice, hcodes, hdelay⟩ := hopened
    have hstart : Mirrors { Recorder.notReady diagnostic with keyDelay := ⟨s.keyDelay⟩ }
        opened.1 opened.2 := by
      refine ⟨hdevice.symm, rfl, rfl, rfl, hcodes, ?_, hdelay.symm⟩
      intro hready
      rw [hdevice] at hready
      cases hready
    exact StandsIn.agreement ⟨hstart, rfl⟩ ops

/-- The delay is taken away after the first of two taps. Without a device nothing is pressed, but
the combination without modifiers is waited for. -/
theorem rehearsal_delays :
    let ops : List Operation :=
      [.tap .a, .setKeyDelay 0, .tap .unknown, .combo .capsLock .b, .flush]
    let failed : Host := { uinput := { refusal := some .permissionDenied } }
    let real := performAll ops ⟨{ driver := (UinputDriver.connect {} {}).1 },
      (UinputDriver.connect {} {}).2⟩
    ({} : Host).uinput.refusal = none ∧ UinputDriver.WritesAll {} ∧
      real.1 = [true, true, false, true, true] ∧
      real.2.host.journal = (UinputDriver.connect {} {}).2.journal ++
        [.wrote [⟨1, 30, 1⟩], .slept 1000, .wrote [⟨1, 30, 0⟩], .wrote [⟨1, 48, 1⟩],
          .wrote [⟨1, 48, 0⟩], .wrote []] ∧
      failed.uinput.refusal ≠ none ∧
      (performAll [.combo .capsLock .b] ⟨{ driver := (UinputDriver.connect {} failed).1 },
        (UinputDriver.connect {} failed).2⟩).2.host.journal = [.slept 1000, .slept 1000] := by
  dsimp only
  have hw : UinputDriver.WritesAll {} := fun _ => rfl
  have hopened := (rehearsal {} {} "" {}
    [.tap .a, .setKeyDelay 0, .tap .unknown, .combo .capsLock .b, .flush]).1 rfl hw
  have hfailed := (rehearsal {} { uinput := { refusal := some .permissionDenied } } "" {}
    [.combo .capsLock .b]).2 (by simp)
  refine ⟨rfl, hw, ?_, ?_, by simp, ?_⟩
  · rw [← hopened.results]
    decide +kernel
  · rw [hopened.journal]
    apply congrArg ((UinputDriver.connect {} {}).2.journal ++ ·)
    decide +kernel
  · rw [hfailed.journal]
    decide +kernel

end Sender

end Keystroke
