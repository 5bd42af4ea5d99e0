import Keystroke.Listener.Run

/-!
# The first start of a listener

A listener that is used from one place is in one state at a time, so what comes of its first start
can be followed move by move. The start is answered as the program of the session reports at its
beginning.

## Main statements

- `ask_start_ok`: if the program reports that it captures there is a session.
- `ask_start_error`: if it reports an error the caller is told so.
- `close_refused`: to give the listener up after that does nothing to the machine.
-/

namespace Keystroke

/-- To leave no entry changes nothing. -/
theorem Host.recordAll_nil (h : Host) : h.recordAll [] = h := by
  rw [recordAll, List.append_nil]

namespace Listener

variable {β : Type} [CaptureMechanism β] {l l' : Listener β} {c : Nat}

/-- A caller that can move does so. -/
theorem attend_of_caller (hr : l.answer? c = none) (hm : l.move? (.caller c) = some l') :
    l.attend c = l'.attend c := by
  rw [attend, hr]
  simp only [Option.isSome_none, Bool.false_eq_true, if_false]
  split
  next k hk =>
    rw [hm, Option.some.injEq] at hk
    rw [hk]
  next hk =>
    rw [hm] at hk
    cases hk

/-- While the caller has to wait the newest thread moves. -/
theorem attend_of_newest (hr : l.answer? c = none) (hwait : l.move? (.caller c) = none)
    (hm : l.move? l.newest = some l') : l.attend c = l'.attend c := by
  rw [attend, hr]
  simp only [Option.isSome_none, Bool.false_eq_true, if_false]
  split
  next k hk =>
    rw [hwait] at hk
    cases hk
  next =>
    split
    next k hk =>
      rw [hm, Option.some.injEq] at hk
      rw [hk]
    next hk =>
      rw [hm] at hk
      cases hk

/-- Who has an answer waits for nothing. -/
theorem attend_of_answer (hr : (l.answer? c).isSome) : l.attend c = l := by
  rw [attend, if_pos hr]

/-- While the newest thread can move the listener does not settle. -/
theorem settle_of_newest (hm : l.move? l.newest = some l') : l.settle = l'.settle := by
  rw [settle]
  split
  next hk =>
    rw [hm] at hk
    cases hk
  next k hk =>
    rw [hm, Option.some.injEq] at hk
    rw [hk]

/-- It has settled when that thread rests. -/
theorem settle_of_rest (hm : l.move? l.newest = none) : l.settle = l := by
  rw [settle]
  split
  next => rfl
  next k hk =>
    rw [hm] at hk
    cases hk

/-- A new listener on a machine. -/
abbrev idle (b : β) (h : Host) : Listener β := { backend := b, shared := { host := h } }

/-- The listener when the thread for the first session was spawned. -/
def spawned (b : β) (h : Host) (program : Capture Unit) (callback : Callback) : Listener β where
  backend := b
  shared := { flag := true, holder := some 0, host := h }
  threads := [{ stage := .body program, callback }]
  callers := [.awaiting 0]

/-- The first start gets as far as to a thread. -/
theorem attend_start {b b' : β} {h : Host} {program : Capture Unit} (callback : Callback)
    (hopen : CaptureMechanism.openSession b = (.ok program, b')) :
    ((idle b h).request (.start (some callback))).attend 0 =
      (spawned b' h program callback).attend 0 := by
  -- nobody is in the way: the caller takes the lock, finds no session and raises the flag
  rw [attend_of_caller rfl rfl, attend_of_caller rfl rfl, attend_of_caller rfl rfl]
  -- the move that opens the session does not evaluate, as the mechanism is not known
  apply attend_of_caller rfl
  simp only [move?, request, withCaller, withShared, List.getElem?_cons_zero, List.set_cons_zero,
    List.nil_append, Option.bind_eq_bind, Option.bind_some, moveCaller, hopen]
  rfl

/-- A program that reports that it captures lets the start succeed. -/
theorem ask_start_ok {b b' : β} {h : Host} {waker : Option Entry} {next : Capture Unit}
    (callback : Callback)
    (hopen : CaptureMechanism.openSession b = (.ok (.report (.ok waker) next), b')) :
    ((idle b h).ask (.start (some callback))).1 = some (.started (.ok ())) := by
  change (((idle b h).request (.start (some callback))).attend 0).answer? 0 = _
  rw [attend_start callback hopen, attend_of_newest rfl rfl rfl, attend_of_caller rfl rfl,
    attend_of_caller rfl rfl, attend_of_answer rfl]
  rfl

/-- The listener after its first start has failed. -/
def refused (b : β) (h : Host) (e : CaptureError) (callback : Callback) : Listener β where
  backend := b
  shared := { host := h.report (startFailed e) }
  threads := [{ stage := .over false, callback, report := some (.error e) }]
  callers := [.replied (.started (.error e))]

/-- A program that reports an error and ends lets the start fail with that error. -/
theorem ask_start_error {b b' : β} {h : Host} {e : CaptureError} (callback : Callback)
    (hopen : CaptureMechanism.openSession b = (.ok (.report (.error e) (.done ())), b')) :
    (idle b h).ask (.start (some callback)) =
      (some (.started (.error e)), refused b' h e callback) := by
  have hattend : ((idle b h).request (.start (some callback))).attend 0 =
      refused b' (h.recordAll []) e callback := by
    -- the thread reports, and then the caller waits for it to end
    rw [attend_start callback hopen, attend_of_newest rfl rfl rfl, attend_of_caller rfl rfl,
      attend_of_caller rfl rfl, attend_of_newest rfl rfl rfl, attend_of_newest rfl rfl rfl,
      attend_of_newest rfl rfl rfl, attend_of_caller rfl rfl, attend_of_caller rfl rfl,
      attend_of_answer rfl]
    rfl
  change ((((idle b h).request (.start (some callback))).attend 0).answer? 0,
    ((idle b h).request (.start (some callback))).attend 0) = _
  rw [hattend, Host.recordAll_nil]
  rfl

/-- Nothing moves any more after a start has failed. -/
theorem settle_refused (b : β) (h : Host) (e : CaptureError) (callback : Callback) :
    (refused b h e callback).settle = refused b h e callback :=
  settle_of_rest rfl

/-- To give the listener up after that does nothing to the machine, and is answered. -/
theorem close_refused (b : β) (h : Host) (e : CaptureError) (callback : Callback) :
    (refused b h e callback).close.shared.host = h.report (startFailed e) ∧
    (refused b h e callback).close.callers =
      [.replied (.started (.error e)), .replied .stopped] := by
  change (((refused b h e callback).request .stop).attend 1).shared.host = _ ∧
    (((refused b h e callback).request .stop).attend 1).callers = _
  rw [attend_of_caller rfl rfl, attend_of_caller rfl rfl, attend_of_answer rfl]
  exact ⟨rfl, rfl⟩

end Listener

end Keystroke
