import Keystroke.Driver.Scripted
import Keystroke.Proofs.Sender.Operation

/-!
# Drivers with a log

Any driver can be given a log of the calls that it gets, each with whether it succeeded. The log is
there for proofs to speak of; it has no influence on what the driver does.

## Main statements

- `erase_performAll`: a sender over a driver with a log does what it does over the driver itself.
-/

namespace Keystroke

/-- A driver together with the calls that it got, oldest first, and whether they succeeded. -/
structure Logged (δ : Type) where
  inner : δ
  log : List (Scripted.Call × Bool) := []

namespace Logged

variable {δ α : Type} [KeyboardDriver δ]

/-- Lets the driver do something, and notes what is to be noted of the result. -/
def noting (note : α → List (Scripted.Call × Bool)) (act : StateM (Rig δ) α) :
    StateM (Rig (Logged δ)) α := fun r =>
  let (a, r') := act ⟨r.front.inner, r.host⟩
  (a, ⟨{ inner := r'.front, log := r.front.log ++ note a }, r'.host⟩)

/-- Lets the driver answer a call. -/
def answer (call : Scripted.Call) (act : StateM (Rig δ) DriverResult) :
    StateM (Rig (Logged δ)) DriverResult :=
  noting (fun result => [(call, Sender.succeeded result)]) act

instance : KeyboardDriver (Logged δ) where
  backend := KeyboardDriver.backend δ
  released := { inner := KeyboardDriver.released }
  capabilities d := KeyboardDriver.capabilities d.inner
  isReady d := KeyboardDriver.isReady d.inner
  keyCode d key := KeyboardDriver.keyCode d.inner key
  keyDelay d := KeyboardDriver.keyDelay d.inner
  setKeyDelay delay d := { d with inner := KeyboardDriver.setKeyDelay delay d.inner }
  diagnostic d := KeyboardDriver.diagnostic d.inner
  requestPermissions := noting (fun _ => []) KeyboardDriver.requestPermissions
  sendKey key down := answer (.sendKey key down) (KeyboardDriver.sendKey key down)
  typeText s := answer (.typeText s) (KeyboardDriver.typeText s)
  typeChar c := answer (.typeChar c) (KeyboardDriver.typeChar c)
  flush := answer .flush KeyboardDriver.flush
  delay := noting (fun _ => [(.delay, true)]) KeyboardDriver.delay
  close d h := KeyboardDriver.close d.inner h

end Logged

namespace Sender

variable {δ : Type} [KeyboardDriver δ]

/-- The sender and the machine without the log. -/
def erase (r : Rig (Sender (Logged δ))) : Rig (Sender δ) :=
  ⟨{ driver := r.front.driver.inner, active := r.front.active }, r.host⟩

theorem simulation_erase :
    Simulation fun (x : Rig (Sender (Logged δ))) (y : Rig (Sender δ)) => erase x = y := by
  rintro step x y rfl
  cases step with
  | flush =>
    -- the only step that looks at the driver before it acts
    have hready : (erase x).front.isReady = x.front.isReady := rfl
    simp only [Step.run, flush_eq, hready]
    cases x.front.isReady <;> exact ⟨rfl, rfl⟩
  | _ => exact ⟨rfl, rfl⟩

/-- The log has no influence on a run of a sender. -/
theorem erase_performAll (ops : List Operation) (r : Rig (Sender (Logged δ))) :
    performAll ops (erase r) = ((performAll ops r).1, erase (performAll ops r).2) := by
  obtain ⟨hresult, hstate⟩ := simulation_erase.performAll ops r (erase r) rfl
  exact Prod.ext hresult.symm hstate.symm

end Sender

end Keystroke
