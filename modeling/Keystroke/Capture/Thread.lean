import Keystroke.Capture.Callback
import Keystroke.Capture.Program
import Keystroke.Host.Basic

/-!
# Capture threads

A capture thread runs one program and calls one callback. Its moves are as small as what other
threads can see of them: each reads or writes a single part of the memory that the thread shares
with the callers of its listener. A thread that cannot move waits for one of them.
-/

namespace Keystroke

/-- A session of a listener: the thread that captures, and the trace that waking it leaves if it
can be woken. -/
structure Session where
  thread : Nat
  waker : Option Entry := none
  deriving DecidableEq, Repr

/-- What the callers of a listener and its capture threads share. -/
structure Shared where
  /-- Whether the capture thread should keep running; the listener says that it is listening while
  this is set. -/
  flag : Bool := false
  /-- The caller that has locked the session. -/
  holder : Option Nat := none
  session : Option Session := none
  /-- What callbacks noted, oldest first. -/
  heard : List Heard := []
  host : Host := {}

inductive Stage where
  | body (rest : Capture Unit)
  /-- It serves its inbox, has seen the flag set and will take the next event. -/
  | receiving (rest : Capture Unit)
  | calling (acts : List Act) (noted : Heard) (rest : Capture Unit)
  /-- Its program is over; it will lower the flag. -/
  | leaving
  /-- It has lowered the flag and only has to end. -/
  | ending
  | over (panicked : Bool)

structure CaptureThread where
  stage : Stage
  callback : Callback
  /-- What the thread told its starter. -/
  report : Option (Except CaptureError (Option Entry)) := none
  /-- All events that were ever put into the inbox. -/
  inbox : List KeyEvent := []
  taken : Nat := 0
  quit : Bool := false
  calls : Nat := 0
  /-- The entries that the end of the program will leave, latest first. -/
  deferred : List Entry := []

namespace CaptureThread

/-- Whether the program has not ended. -/
def isAlive (t : CaptureThread) : Bool :=
  match t.stage with
  | .body _ | .receiving _ | .calling .. => true
  | .leaving | .ending | .over _ => false

def isOver (t : CaptureThread) : Bool :=
  match t.stage with
  | .over _ => true
  | _ => false

def pending (t : CaptureThread) : List KeyEvent := t.inbox.drop t.taken

def goto (t : CaptureThread) (stage : Stage) : CaptureThread := { t with stage }

/-- The thread that begins to call its callback as number `self`, and goes on with `rest`
afterwards. -/
def call (t : CaptureThread) (self : Nat) (event : KeyEvent) (rest : Capture Unit) :
    CaptureThread :=
  { t with
    stage := .calling (t.callback.react t.calls event).acts
      { thread := self, label := t.callback.label, event } rest
    calls := t.calls + 1 }

/-- The memory after the program of a thread is over. -/
def cleanUp (t : CaptureThread) (m : Shared) : Shared :=
  { m with host := m.host.recordAll t.deferred }

/-- The error that tells a callback that its thread cannot wait for itself. -/
def stopFromCallback : String := "Listener::stop: called from the capture thread; not joined"

def moveBody (self : Nat) (m : Shared) (t : CaptureThread) :
    Capture Unit → Option (Shared × CaptureThread)
  | .done () => some (t.cleanUp m, t.goto .leaving)
  -- after a crash the flag stays as it is
  | .crash => some (t.cleanUp m, t.goto (.over true))
  | .report outcome next =>
    -- the starter hears the first report only
    some (m, { t with stage := .body next, report := t.report.or (some outcome) })
  | .record entry next => some ({ m with host := m.host.record entry }, t.goto (.body next))
  | .defer entry next => some (m, { t with stage := .body next, deferred := entry :: t.deferred })
  | .running next => some (m, t.goto (.body (next m.flag)))
  | .deliver event next => some (m, t.call self event next)
  | .quitting next => some (m, t.goto (.body (next t.quit)))
  | .postQuit next => some (m, { t with stage := .body next, quit := true })
  -- these two move only when somebody else has moved
  | .idle next => if m.flag then none else some (m, t.goto (.body next))
  | .awaitQuit next => if t.quit then some (m, t.goto (.body next)) else none
  | .serve next => some (m, t.goto (if m.flag then .receiving next else .body next))

/-- A move within the callback. A start of the own listener is answered while the own session is
live and nobody has locked it; otherwise the thread waits for itself. -/
def moveCall (self : Nat) (m : Shared) (t : CaptureThread) (noted : Heard) (rest : Capture Unit) :
    List Act → Option (Shared × CaptureThread)
  | [] => some (m, t.goto (.body rest))
  | .start :: acts =>
    if m.holder.isNone && m.flag && m.session.any (·.thread == self) then
      some (m, t.goto (.calling acts { noted with started := some true } rest))
    else none
  | .cause entry :: acts =>
    some ({ m with host := m.host.record entry }, t.goto (.calling acts noted rest))
  | .stop :: acts =>
    some ({ m with host := m.host.report stopFromCallback, flag := false },
      t.goto (.calling acts noted rest))
  | .look :: acts => some (m, t.goto (.calling acts { noted with listening := some m.flag } rest))
  | .note :: acts =>
    some ({ m with heard := m.heard ++ [noted] }, t.goto (.calling acts noted rest))
  -- the rest of the call is lost, and so is that of the program
  | .panic :: _ => some (t.cleanUp m, t.goto (.over true))

/-- The next move of the thread with number `self`, if it can move. -/
def move? (self : Nat) (m : Shared) (t : CaptureThread) : Option (Shared × CaptureThread) :=
  match t.stage with
  | .body p => t.moveBody self m p
  | .receiving rest =>
    match t.pending with
    -- the flag was up when it was looked at; that it is down by now makes no difference
    | event :: _ => some (m, { t with taken := t.taken + 1 }.call self event (.serve rest))
    | [] => if m.flag then none else some (m, t.goto (.body rest))
  | .calling acts noted rest => t.moveCall self m noted rest acts
  | .leaving => some ({ m with flag := false }, t.goto .ending)
  | .ending => some (m, t.goto (.over false))
  | .over _ => none

/-! ## Moves come to an end -/

/-- How far the thread is from its end: whether its program is over, what is left of it, what is
in the inbox, and where it is between two effects. -/
def distance (t : CaptureThread) : Nat × Capture Unit × Nat × Nat :=
  match t.stage with
  | .body p => (2, p, t.pending.length, 2)
  | .receiving rest => (2, .serve rest, t.pending.length, 1)
  | .calling acts _ rest => (2, rest, t.pending.length, acts.length + 3)
  | .leaving => (1, .done (), 0, 1)
  | .ending => (1, .done (), 0, 0)
  | .over _ => (0, .done (), 0, 0)

open Capture (Follows)

/-- The order of distances. -/
abbrev Closer (d e : Nat × Capture Unit × Nat × Nat) : Prop := WellFoundedRelation.rel d e

theorem closer_of_lt {a b : Nat} {d e : Capture Unit × Nat × Nat} (h : a < b) :
    Closer (a, d) (b, e) := Prod.Lex.left _ _ h

theorem closer_of_follows {a : Nat} {p q : Capture Unit} {d e : Nat × Nat} (h : Follows p q) :
    Closer (a, p, d) (a, q, e) := Prod.Lex.right _ (Prod.Lex.left _ _ h)

theorem closer_of_pending {a i j : Nat} {p : Capture Unit} {r s : Nat} (h : i < j) :
    Closer (a, p, i, r) (a, p, j, s) := Prod.Lex.right _ (Prod.Lex.right _ (Prod.Lex.left _ _ h))

theorem closer_of_stage {a i : Nat} {p : Capture Unit} {r s : Nat} (h : r < s) :
    Closer (a, p, i, r) (a, p, i, s) := Prod.Lex.right _ (Prod.Lex.right _ (Prod.Lex.right _ h))

variable {self : Nat} {m m' : Shared} {t t' : CaptureThread}

theorem closer_of_moveBody {p : Capture Unit} (hp : t.stage = .body p)
    (h : t.moveBody self m p = some (m', t')) : Closer t'.distance t.distance := by
  -- most effects are followed by what is left of the program
  cases p <;> simp only [moveBody] at h
  case done | crash =>
    cases h
    simp only [distance, goto, hp]
    exact closer_of_lt (by decide)
  case idle | awaitQuit =>
    split at h <;> cases h
    simp only [distance, goto, hp]
    exact closer_of_follows (by constructor)
  case serve next =>
    cases h
    cases m.flag <;> simp only [distance, goto, hp]
    · exact closer_of_follows (by constructor)
    · exact closer_of_stage (by decide)
  all_goals
    cases h
    simp only [distance, goto, call, hp]
    exact closer_of_follows (by constructor)

theorem closer_of_moveCall {acts : List Act} {noted : Heard} {rest : Capture Unit}
    (hs : t.stage = .calling acts noted rest)
    (h : t.moveCall self m noted rest acts = some (m', t')) : Closer t'.distance t.distance := by
  match acts with
  | [] =>
    cases h
    simp only [distance, goto, hs]
    exact closer_of_stage (by simp)
  | .start :: acts =>
    simp only [moveCall] at h
    split at h <;> cases h
    simp only [distance, goto, hs]
    exact closer_of_stage (by simp)
  | .panic :: acts =>
    cases h
    simp only [distance, goto, hs]
    exact closer_of_lt (by decide)
  | .cause _ :: acts | .stop :: acts | .look :: acts | .note :: acts =>
    cases h
    simp only [distance, goto, hs]
    exact closer_of_stage (by simp)

/-- A move brings a thread closer to its end. -/
theorem closer_of_move? (h : t.move? self m = some (m', t')) : Closer t'.distance t.distance := by
  unfold move? at h
  split at h
  next p hs => exact closer_of_moveBody hs h
  next rest hs =>
    split at h
    next event later hp =>
      -- the program is where it was, but the inbox holds one event less
      cases h
      simp only [distance, call, hs]
      apply closer_of_pending
      simp only [pending] at hp ⊢
      have : (t.inbox.drop (t.taken + 1)) = later := by
        rw [← List.drop_drop, hp]; rfl
      rw [this, hp]; simp
    next =>
      split at h <;> cases h
      simp only [distance, goto, hs]
      exact closer_of_follows (.serve rest)
  next acts noted rest hs => exact closer_of_moveCall hs h
  next hs =>
    cases h
    simp only [distance, goto, hs]
    exact closer_of_stage (by decide)
  next hs =>
    cases h
    simp only [distance, goto, hs]
    exact closer_of_lt (by decide)
  next => cases h

end CaptureThread

end Keystroke
