import Keystroke.Capture.Error
import Keystroke.Event
import Keystroke.Host.Journal

/-!
# Capture programs

What a capture thread does, one effect at a time. A program reports whether its hook is installed,
looks at the flag that keeps it running, and delivers key events. It learns about the rest of the
world only through the flag, through what is put into its inbox, and through the request to quit;
everything else, such as the events that will come in, is part of the program.
-/

namespace Keystroke

/-- A program for a capture thread that ends with a result. -/
inductive Capture (α : Type) where
  | done (result : α)
  /-- Breaks off without having cleaned up. -/
  | crash
  /-- Tells the starter that the hook is installed, with the trace that waking the thread will
  leave if it can be woken, or that there is none. Only the first report counts. -/
  | report (outcome : Except CaptureError (Option Entry)) (next : Capture α)
  | record (entry : Entry) (next : Capture α)
  /-- Leaves an entry in the journal when the program is over, however it ends. -/
  | defer (entry : Entry) (next : Capture α)
  | running (next : Bool → Capture α)
  | deliver (event : KeyEvent) (next : Capture α)
  | quitting (next : Bool → Capture α)
  | postQuit (next : Capture α)
  /-- Waits until the thread should not keep running. -/
  | idle (next : Capture α)
  | awaitQuit (next : Capture α)
  /-- Delivers what comes into the inbox while the thread should keep running. -/
  | serve (next : Capture α)

namespace Capture

variable {α β γ : Type}

/-- Goes on after the end of a program. -/
protected def bind (p : Capture α) (f : α → Capture β) : Capture β :=
  match p with
  | done a => f a
  | crash => crash
  | report outcome next => report outcome (next.bind f)
  | record entry next => record entry (next.bind f)
  | defer entry next => defer entry (next.bind f)
  | running next => running fun b => (next b).bind f
  | deliver event next => deliver event (next.bind f)
  | quitting next => quitting fun b => (next b).bind f
  | postQuit next => postQuit (next.bind f)
  | idle next => idle (next.bind f)
  | awaitQuit next => awaitQuit (next.bind f)
  | serve next => serve (next.bind f)

instance : Monad Capture where
  pure := done
  bind := Capture.bind

@[simp] theorem pure_eq (a : α) : (pure a : Capture α) = done a := rfl

@[simp] theorem bind_eq (p : Capture α) (f : α → Capture β) : p >>= f = p.bind f := rfl

protected theorem bind_done (p : Capture α) : p.bind done = p := by
  induction p with
  | running next ih => exact congrArg running (funext ih)
  | quitting next ih => exact congrArg quitting (funext ih)
  | _ => simp_all [Capture.bind]

protected theorem bind_assoc (p : Capture α) (f : α → Capture β) (g : β → Capture γ) :
    (p.bind f).bind g = p.bind fun a => (f a).bind g := by
  induction p with
  | running next ih => exact congrArg running (funext ih)
  | quitting next ih => exact congrArg quitting (funext ih)
  | _ => simp_all [Capture.bind]

instance : LawfulMonad Capture :=
  LawfulMonad.mk' Capture Capture.bind_done (fun _ _ => rfl) Capture.bind_assoc

def isRunning : Capture Bool := running done

def isQuitting : Capture Bool := quitting done

def leave (entry : Entry) : Capture Unit := record entry (done ())

def send (event : KeyEvent) : Capture Unit := deliver event (done ())

/-- Delivers events in order and says whether all were delivered; it gives up as soon as the thread
should not keep running. -/
def sendWhileRunning : List KeyEvent → Capture Bool
  | [] => isRunning
  | event :: rest => do
    if ← isRunning then
      send event
      sendWhileRunning rest
    else return false

/-! ## What follows -/

/-- The program `q` is what follows the first effect of `p`. -/
inductive Follows : Capture α → Capture α → Prop where
  | report (outcome next) : Follows next (report outcome next)
  | record (entry next) : Follows next (record entry next)
  | defer (entry next) : Follows next (defer entry next)
  | running (next b) : Follows (next b) (running next)
  | deliver (event next) : Follows next (deliver event next)
  | quitting (next b) : Follows (next b) (quitting next)
  | postQuit (next) : Follows next (postQuit next)
  | idle (next) : Follows next (idle next)
  | awaitQuit (next) : Follows next (awaitQuit next)
  | serve (next) : Follows next (serve next)

/-- A program cannot go on forever. -/
theorem acc_follows (p : Capture α) : Acc Follows p := by
  induction p with
  | done | crash => constructor; intro q h; cases h
  | running next ih | quitting next ih => constructor; intro q h; cases h; exact ih _
  | report _ _ ih | record _ _ ih | defer _ _ ih | deliver _ _ ih =>
    constructor; intro q h; cases h; exact ih
  | postQuit _ ih | idle _ ih | awaitQuit _ ih | serve _ ih =>
    constructor; intro q h; cases h; exact ih

instance : WellFoundedRelation (Capture α) := ⟨Follows, ⟨acc_follows⟩⟩

end Capture

end Keystroke
