import Keystroke.Backend
import Keystroke.Capture.Thread

/-!
# The listener

A listener owns a capture mechanism and has at most one session of it, whose thread calls the
callback. Any number of callers may use the listener at once. What a caller does is cut into moves
like those of the capture threads, and any order of all their moves may happen.

A start is over only when the hook is known to be installed or to have failed; a stop is over only
when the thread of the session is. Both hold the lock of the session all the while.
-/

namespace Keystroke

class CaptureMechanism (β : Type) where
  kind : β → Backend
  /-- The program of a new session, unless it is refused without a thread. -/
  openSession : β → Except CaptureError (Capture Unit) × β
  /-- Takes note that the thread with a given number captures now. -/
  install : Nat → β → β := fun _ b => b
  /-- The thread into whose inbox events can be put from outside. -/
  inlet : β → Option Nat := fun _ => none
  /-- Makes the mechanism refuse further sessions or accept them again, if it can be told to. -/
  setFailing : Bool → β → β := fun _ b => b

inductive Call where
  | start (callback : Option Callback)
  | stop
  | isListening
  | inject (event : KeyEvent)
  | setFailing (failing : Bool)

inductive Reply where
  | started (outcome : Except CaptureError Unit)
  | stopped
  | listening (b : Bool)
  | injected (accepted : Bool)
  | set

inductive Purpose where
  /-- To start another one, since it has ended already. -/
  | restart (callback : Callback)
  | stop

/-- Where a caller is. From `looking` on, and until it is replied to, it holds the lock. -/
inductive Phase where
  | entered (call : Call)
  /-- Is there a session, and is the flag set? -/
  | looking (callback : Callback)
  /-- Has its thread ended? -/
  | probing (callback : Callback)
  | clearing (session : Session) (purpose : Purpose)
  | waking (session : Session) (purpose : Purpose)
  | joining (session : Session) (purpose : Purpose)
  | raising (callback : Callback)
  | spawning (callback : Callback)
  | awaiting (thread : Nat)
  /-- Lowers the flag after a failure of the thread. -/
  | dropping (thread : Nat) (error : CaptureError)
  /-- Waits for its end. -/
  | collecting (thread : Nat) (error : CaptureError)
  | failing (error : CaptureError)
  | installing (thread : Nat) (waker : Option Entry)
  | lowering
  | replied (reply : Reply)

/-- A listener with all its callers and all its capture threads, past ones included. A caller or a
thread is named by its place in the list. -/
structure Listener (β : Type) where
  backend : β
  shared : Shared := {}
  threads : List CaptureThread := []
  callers : List Phase := []

namespace Listener

variable {β : Type}

def withShared (l : Listener β) (m : Shared) : Listener β := { l with shared := m }

def withThread (l : Listener β) (n : Nat) (t : CaptureThread) : Listener β :=
  { l with threads := l.threads.set n t }

/-- The listener with one more thread, which begins its program. -/
def spawn (l : Listener β) (program : Capture Unit) (callback : Callback) : Listener β :=
  { l with threads := l.threads ++ [{ stage := .body program, callback : CaptureThread }] }

def withCaller (l : Listener β) (c : Nat) (phase : Phase) : Listener β :=
  { l with callers := l.callers.set c phase }

/-- The listener after a caller was told something. -/
def reply (l : Listener β) (c : Nat) (r : Reply) : Listener β := l.withCaller c (.replied r)

def unlock (l : Listener β) : Listener β := l.withShared { l.shared with holder := none }

def isOver (l : Listener β) (n : Nat) : Bool := l.threads[n]?.all (·.isOver)

/-- The error that tells that there was nothing to call. -/
def nullCallback : String := "Listener::start: callback must not be null"

/-- The error that tells why there is no session. -/
def startFailed (e : CaptureError) : String := "Listener::start: " ++ e.message

/-- The listener after a caller took the session away in order to end it. -/
def takeSession (l : Listener β) (c : Nat) (s : Session) (purpose : Purpose) : Listener β :=
  (l.withShared { l.shared with session := none }).withCaller c (.clearing s purpose)

variable [CaptureMechanism β]

def enter (l : Listener β) (c : Nat) : Call → Option (Listener β)
  | .start none =>
    -- without a callback the lock is not even asked for
    some ((l.withShared { l.shared with host := l.shared.host.report nullCallback }).reply c
      (.started (.error .missingCallback)))
  | .start (some callback) =>
    if l.shared.holder.isNone then
      some ((l.withShared { l.shared with holder := some c }).withCaller c (.looking callback))
    else none
  | .stop =>
    if l.shared.holder.isNone then
      -- to take the session away is part of taking the lock: nobody else can look in between
      let locked := l.withShared { l.shared with holder := some c }
      match l.shared.session with
      | some s => some (locked.takeSession c s .stop)
      | none => some (locked.withCaller c .lowering)
    else none
  | .isListening => some (l.reply c (.listening l.shared.flag))
  | .inject event =>
    match CaptureMechanism.inlet l.backend with
    | none => some (l.reply c (.injected false))
    | some n =>
      match l.threads[n]? with
      | none => some (l.reply c (.injected false))
      | some t =>
        -- the inbox is gone when the program is over
        if t.isAlive then
          some ((l.withThread n { t with inbox := t.inbox ++ [event] }).reply c (.injected true))
        else some (l.reply c (.injected false))
  | .setFailing failing =>
    some ({ l with backend := CaptureMechanism.setFailing failing l.backend }.reply c .set)

def moveCaller (l : Listener β) (c : Nat) : Phase → Option (Listener β)
  | .entered call => l.enter c call
  | .looking callback =>
    match l.shared.session with
    | none => some (l.withCaller c (.raising callback))
    | some s =>
      -- a session whose flag is down has ended, or is about to end by itself
      if l.shared.flag then some (l.withCaller c (.probing callback))
      else some (l.takeSession c s (.restart callback))
  | .probing callback =>
    match l.shared.session with
    | none => some (l.withCaller c (.raising callback))
    | some s =>
      if l.isOver s.thread then some (l.takeSession c s (.restart callback))
      -- the session is kept, and the new callback is dropped
      else some (l.unlock.reply c (.started (.ok ())))
  | .clearing s purpose =>
    some ((l.withShared { l.shared with flag := false }).withCaller c (.waking s purpose))
  | .waking s purpose =>
    match s.waker with
    | none => some (l.withCaller c (.joining s purpose))
    | some trace =>
      let woken := match l.threads[s.thread]? with
        | some t => l.withThread s.thread { t with quit := true }
        | none => l
      some ((woken.withShared { l.shared with host := l.shared.host.record trace }).withCaller c
        (.joining s purpose))
  | .joining s purpose =>
    if l.isOver s.thread then
      match purpose with
      | .restart callback => some (l.withCaller c (.raising callback))
      | .stop => some (l.withCaller c .lowering)
    else none
  | .raising callback =>
    -- the flag is up before there is a thread that could look at it
    some ((l.withShared { l.shared with flag := true }).withCaller c (.spawning callback))
  | .spawning callback =>
    match CaptureMechanism.openSession l.backend with
    | (.error e, backend) => some ({ l with backend }.withCaller c (.failing e))
    | (.ok program, backend) =>
      some (({ l with backend }.spawn program callback).withCaller c (.awaiting l.threads.length))
  | .awaiting n =>
    match l.threads[n]? with
    | none => some (l.withCaller c (.failing .silentStartup))
    | some t =>
      match t.report with
      | some (.ok waker) => some (l.withCaller c (.installing n waker))
      | some (.error e) => some (l.withCaller c (.dropping n e))
      -- a program that is over can report no more
      | none => if t.isAlive then none else some (l.withCaller c (.dropping n .silentStartup))
  | .dropping n e =>
    some ((l.withShared { l.shared with flag := false }).withCaller c (.collecting n e))
  | .collecting n e => if l.isOver n then some (l.withCaller c (.failing e)) else none
  | .failing e =>
    some ((l.withShared { l.shared with
      flag := false, holder := none, host := l.shared.host.report (startFailed e) }).reply c
        (.started (.error e)))
  | .installing n waker =>
    some (({ l with backend := CaptureMechanism.install n l.backend }.withShared { l.shared with
      session := some ⟨n, waker⟩, holder := none }).reply c (.started (.ok ())))
  | .lowering =>
    some ((l.withShared { l.shared with flag := false, holder := none }).reply c .stopped)
  | .replied _ => none

inductive Mover where
  | caller (c : Nat)
  | thread (n : Nat)
  deriving DecidableEq, Repr

def move? (l : Listener β) : Mover → Option (Listener β)
  | .caller c => l.callers[c]? >>= l.moveCaller c
  | .thread n =>
    match l.threads[n]? with
    | none => none
    -- a thread knows nothing of the callers but what is in the shared memory
    | some t => (t.move? n l.shared).map fun (m, t) => (l.withShared m).withThread n t

def request (l : Listener β) (call : Call) : Listener β :=
  { l with callers := l.callers ++ [.entered call] }

/-- The listener `l'` can come to be from `l` by requests and moves in some order. -/
inductive Reaches : Listener β → Listener β → Prop where
  | refl (l : Listener β) : Reaches l l
  | request {l l' : Listener β} (call : Call) (h : Reaches l l') : Reaches l (l'.request call)
  | move {l l' l'' : Listener β} (mover : Mover) (h : Reaches l l')
      (hm : l'.move? mover = some l'') : Reaches l l''

/-- The states of a listener that was made with a given mechanism on a given machine. -/
def Reachable (b : β) (h : Host) (l : Listener β) : Prop :=
  Reaches { backend := b, shared := { host := h } } l

end Listener

end Keystroke
