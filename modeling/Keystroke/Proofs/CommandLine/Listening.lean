import Keystroke.CommandLine.Run
import Keystroke.Proofs.Capture.Evdev
import Keystroke.Proofs.Listener.FirstSession
import Keystroke.Proofs.Listener.Journal

/-!
# Listening from the command line

A run that listens asks its listener for one session, waits and stops it. Both calls are answered,
and listening fails exactly if no keyboard can be opened. The only trace of it in the journal is
that keyboards were polled.

## Main statements

- `EvdevMechanism.opens_polls`: the capture program of Linux leaves nothing but polls.
- `leaves_listened`: nor does listening for some seconds, whatever happens to the input devices.
- `listens_listened`: the listener is started, left to itself and stopped.
- `listen_error`, `listen_ok`: when listening fails, and what it does to the machine.
-/

namespace Keystroke

/-- The keyboards were polled. -/
def Entry.IsPoll (entry : Entry) : Prop := ∃ nodes timeout, entry = .polled nodes timeout

namespace Evdev

/-- To deliver events leaves nothing. -/
theorem leaves_deliverBatch (P : Entry → Prop) (batch : List InputEvent) (t : ModifierTracker) :
    (deliverBatch batch t).Leaves P := by
  induction batch generalizing t with
  | nil =>
    intro b
    cases b <;> trivial
  | cons e rest ih =>
    intro b
    cases b with
    | false => trivial
    | true =>
      simp only [Capture.bind, if_true]
      split <;> exact ih _

theorem leaves_readReady (P : Entry → Prop) (turn : PollTurn) (keyboards : List Keyboard)
    (t : ModifierTracker) : (readReady turn keyboards t).Leaves P := by
  induction keyboards generalizing t with
  | nil => trivial
  | cons kb rest ih =>
    simp only [readReady]
    split
    · exact ih t
    · refine (leaves_deliverBatch P _ t).bind fun tracker => ?_
      cases tracker with
      | none => trivial
      | some t => exact ih t
    · split
      · exact ih t
      · exact (ih t).bind fun _ => trivial

/-- Each turn of the loop is a poll, whether it passes or fails. -/
theorem leaves_loop (dir : String) (timeout : Nat) (script : List PollStep) (k : InputLayer)
    (s : State) : (loop dir timeout script k s).Leaves Entry.IsPoll := by
  induction script generalizing k s with
  | nil => trivial
  | cons step script ih =>
    intro b
    cases b with
    | false => trivial
    | true =>
      refine ⟨⟨_, _, rfl⟩, ?_⟩
      cases step with
      | failed e wait =>
        -- an interrupted poll is repeated, any other failure ends the loop
        change Capture.Leaves Entry.IsPoll (if e = .interrupted then _ else _)
        split
        · exact ih (wait.apply k) _
        · trivial
      | passed turn =>
        refine (leaves_readReady Entry.IsPoll turn _ _).bind fun outcome => ?_
        cases outcome with
        | none => trivial
        | some lost => exact ih _ _

end Evdev

/-- The capture program of Linux leaves nothing but polls. -/
theorem EvdevMechanism.opens_polls : Listener.Opens Entry.IsPoll EvdevMechanism := by
  intro b b' program hopen
  cases hopen
  simp only [EvdevMechanism.program]
  split
  next => exact ⟨by rintro _ ⟨⟩, trivial⟩
  next => exact ⟨by rintro _ ⟨⟩, Evdev.leaves_loop _ _ _ _ _⟩

/-! ## Listening for some seconds -/

namespace CommandLine

open Evdev (openAll)
open Listener (idle)

/-- The listener after some seconds. -/
def awaited (c : EvdevMechanism) (seconds : UInt64) (h : Host) : Listener EvdevMechanism :=
  let running := ((idle c h).ask (.start (some {}))).2
  if seconds = 0 then running else running.settle

/-- The listener when it was given up after that. -/
def listened (c : EvdevMechanism) (seconds : UInt64) (h : Host) : Listener EvdevMechanism :=
  let running := ((idle c h).ask (.start (some {}))).2
  (if seconds = 0 then running else running.settle).close

/-- Listening leaves nothing but polls, whatever happens to the input devices. -/
theorem leaves_listened (c : EvdevMechanism) (seconds : UInt64) (h : Host) :
    (listened c seconds h).Leaves Entry.IsPoll h.journal := by
  have hquiet : (Phase.entered (.start (some {}))).Leaves Entry.IsPoll := by
    refine ⟨?_, nofun⟩
    rintro _ ⟨⟩ n event entry ⟨⟩
  have hstop : (Phase.entered .stop).Leaves Entry.IsPoll := ⟨nofun, nofun⟩
  have hrunning := (Listener.leaves_init Entry.IsPoll c h).ask EvdevMechanism.opens_polls hquiet
  unfold listened
  dsimp only
  split
  · exact hrunning.ask EvdevMechanism.opens_polls hstop
  · exact (hrunning.settle EvdevMechanism.opens_polls).ask EvdevMechanism.opens_polls hstop

/-- Without a keyboard the program reports why, and ends. -/
theorem openSession_error {c : EvdevMechanism} {e : CaptureError}
    (hopen : openAll c.layer c.settings.deviceDir = .error e) :
    CaptureMechanism.openSession c = (.ok (.report (.error e) (.done ())), c) := by
  change (Except.ok c.program, c) = _
  simp only [EvdevMechanism.program, hopen]

/-- With a keyboard the program reports that it captures, and that nobody has to wake it. Then it
delivers events until it is told to end. -/
theorem openSession_ok {c : EvdevMechanism} {keyboards : List Keyboard}
    (hopen : openAll c.layer c.settings.deviceDir = .ok keyboards) :
    ∃ next events, CaptureMechanism.openSession c = (.ok (.report (.ok none) next), c) ∧
      Capture.Plays true next events := by
  change ∃ next events, (Except.ok c.program, c) = _ ∧ Capture.Plays true next events
  simp only [EvdevMechanism.program, hopen]
  exact ⟨_, _, rfl, Evdev.plays_loop _ _ _ _ _ true⟩

/-- The result of what ends with the failure, or well if there is none. -/
def resultOf {ε : Type} : Option ε → Except ε Unit
  | some e => .error e
  | none => .ok ()

/-- Why the listener cannot be started. -/
def listenError? (c : EvdevMechanism) : Option CaptureError :=
  match openAll c.layer c.settings.deviceDir with
  | .error e => some e
  | .ok _ => none

/-- A new listener was asked on the machine `h` for a session, and was stopped after some seconds.
Both calls were answered, the first one so, and the machine is `h'` after that. If there was any
time in between the capture thread has done all that it had to do. -/
inductive Listens (c : EvdevMechanism) (seconds : UInt64) (h : Host)
    (answer : Except CaptureError Unit) (h' : Host) : Prop where
  | intro {running stopped : Listener EvdevMechanism}
      (started : Listener.Reaches ((idle c h).request (.start (some {}))) running)
      (answered : running.callers = [.replied (.started answer)])
      (rests : seconds ≠ 0 → running.move? (.thread 0) = none)
      (ended : Listener.Reaches (running.request .stop) stopped)
      (told : stopped.callers = [.replied (.started answer), .replied .stopped])
      (host : stopped.shared.host = h')

theorem reaches_awaited (c : EvdevMechanism) (seconds : UInt64) (h : Host) :
    Listener.Reaches ((idle c h).request (.start (some {}))) (awaited c seconds h) := by
  unfold awaited
  split
  · exact Listener.reaches_attend _ 0
  · exact Listener.Reaches.trans (Listener.reaches_attend _ 0) (Listener.reaches_settle _)

/-- After a start that failed the listener stays as it is. -/
theorem awaited_of_error {c : EvdevMechanism} {e : CaptureError}
    (hopen : openAll c.layer c.settings.deviceDir = .error e) (seconds : UInt64) (h : Host) :
    awaited c seconds h = Listener.refused c h e {} := by
  unfold awaited
  rw [Listener.ask_start_error {} (openSession_error hopen)]
  dsimp only
  rw [Listener.settle_refused, ite_self]

/-- Otherwise its first session lasts until it is stopped. -/
theorem awaited_of_ok {c : EvdevMechanism} {keyboards : List Keyboard}
    (hopen : openAll c.layer c.settings.deviceDir = .ok keyboards) (seconds : UInt64) (h : Host) :
    ∃ m t events es, awaited c seconds h = Listener.standing c m t ∧
      Listener.Stands {} events m t es ∧
      (seconds ≠ 0 → (Listener.standing c m t).move? (.thread 0) = none) := by
  obtain ⟨next, events, hsession, hplays⟩ := openSession_ok hopen
  obtain ⟨m, t, hask, hstands⟩ := Listener.ask_start_standing (h := h) {} hsession hplays
  unfold awaited
  rw [hask]
  -- without any time the session is stopped as it has begun
  by_cases hs : seconds = 0
  · exact ⟨m, t, events, [], if_pos hs, hstands, fun hne => absurd hs hne⟩
  · obtain ⟨m', t', es', hsettle, hstands', hrest⟩ := Listener.settle_standing c hstands
    exact ⟨m', t', events, es', (if_neg hs).trans hsettle, hstands', fun _ => hrest⟩

theorem listens_of_awaited {c : EvdevMechanism} {seconds : UInt64} {h : Host}
    {l : Listener EvdevMechanism} {answer : Except CaptureError Unit}
    (hl : awaited c seconds h = l) (answered : l.callers = [.replied (.started answer)])
    (rests : seconds ≠ 0 → l.move? (.thread 0) = none)
    (told : l.close.callers = [.replied (.started answer), .replied .stopped]) :
    Listens c seconds h answer (listened c seconds h).shared.host := by
  subst hl
  exact .intro (reaches_awaited c seconds h) answered rests (Listener.reaches_attend _ _) told rfl

/-- **The listener is started, left to itself and stopped.** The start fails exactly if no keyboard
can be opened. -/
theorem listens_listened (c : EvdevMechanism) (seconds : UInt64) (h : Host) :
    Listens c seconds h (resultOf (listenError? c)) (listened c seconds h).shared.host := by
  unfold listenError?
  cases hopen : openAll c.layer c.settings.deviceDir with
  | error e =>
    have hclose := Listener.close_refused c h e {}
    exact listens_of_awaited (awaited_of_error hopen seconds h) rfl (fun _ => rfl) hclose.2
  | ok keyboards =>
    obtain ⟨m, t, events, es, hawaited, hstands, hrest⟩ := awaited_of_ok hopen seconds h
    have hclose := Listener.callers_close_standing c hstands fun _ _ => rfl
    exact listens_of_awaited hawaited rfl hrest hclose

/-- If no keyboard can be opened the machine is as before, but for the report. -/
theorem host_listened_error {c : EvdevMechanism} {seconds : UInt64} {h : Host} {e : CaptureError}
    (hopen : openAll c.layer c.settings.deviceDir = .error e) :
    (listened c seconds h).shared.host = h.report (Listener.startFailed e) := by
  change (awaited c seconds h).close.shared.host = _
  rw [awaited_of_error hopen]
  exact (Listener.close_refused c h e {}).1

/-! ## The action -/

variable {δ : Type}

/-- An action that looks at the stage goes on with it. -/
theorem run_get {α : Type} (next : Stage δ → Action δ α) (s : Stage δ) :
    (get >>= next : Action δ α).run.run s = (next s).run.run s := rfl

/-- An action that changes the stage goes on with the new one. -/
theorem run_modify {α : Type} (f : Stage δ → Stage δ) (next : Action δ α) (s : Stage δ) :
    (modify f >>= fun _ => next : Action δ α).run.run s = next.run.run (f s) := rfl

/-- Listening fails if no keyboard can be opened. -/
theorem listen_error {c : EvdevMechanism} (seconds : UInt64) (s : Stage δ) {e : CaptureError}
    (hopen : openAll c.layer c.settings.deviceDir = .error e) :
    (listen c seconds : Action δ Unit).run.run s =
      (.error (.listener e),
        { s with rig := { s.rig with host := (listened c seconds s.rig.host).shared.host } }) := by
  have hanswer := congrArg Prod.fst
    (Listener.ask_start_error (h := s.rig.host) {} (openSession_error hopen))
  unfold listen
  rw [run_get, run_modify, hanswer]
  rfl

/-- Otherwise there is a session, and what is told of it. -/
theorem listen_ok {c : EvdevMechanism} (seconds : UInt64) (s : Stage δ) {keyboards : List Keyboard}
    (hopen : openAll c.layer c.settings.deviceDir = .ok keyboards) :
    ∃ lines, (listen c seconds : Action δ Unit).run.run s = (.ok (),
      { rig := { s.rig with host := (listened c seconds s.rig.host).shared.host }, lines }) := by
  obtain ⟨next, -, hsession, -⟩ := openSession_ok hopen
  have hanswer := Listener.ask_start_ok (h := s.rig.host) {} hsession
  unfold listen
  rw [run_get, run_modify, hanswer]
  exact ⟨_, rfl⟩

end CommandLine

end Keystroke
