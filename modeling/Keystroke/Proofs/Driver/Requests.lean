import Keystroke.Proofs.Sender.Operation

/-!
# Requests to a driver

All that can be asked of a driver, as data. A sender asks its driver for at most one thing at each
step, and what it does besides is to keep its account and to report numbers that are no characters.
So what a driver and its machine keep while the driver is asked for something they keep under the
operations of a sender too.

## Main statements

- `Keeps.bind`: what two actions keep, they keep one after the other.
- `keeps_perform_of_requests`: what the requests of an operation keep is kept by the operation.
-/

namespace Keystroke

/-! ## What actions keep -/

section Keeps

variable {σ α β : Type} {I : σ → Prop}

/-- An action keeps a property of the state. -/
def Keeps (I : σ → Prop) (act : StateM σ α) : Prop := ∀ s, I s → I (act s).2

theorem Keeps.pure (a : α) : Keeps I (pure a) := fun _ h => h

theorem Keeps.bind {act : StateM σ α} {next : α → StateM σ β} (h : Keeps I act)
    (hnext : ∀ a, Keeps I (next a)) : Keeps I (act >>= next) :=
  fun s hs => hnext _ _ (h s hs)

theorem Keeps.get : Keeps I get := fun _ h => h

theorem Keeps.modify {f : σ → σ} (h : ∀ s, I s → I (f s)) : Keeps I (modify f) := h

theorem Keeps.ite {c : Prop} [Decidable c] {act act' : StateM σ α} (h : Keeps I act)
    (h' : Keeps I act') : Keeps I (if c then act else act') := by
  split
  · exact h
  · exact h'

end Keeps

/-! ## Requests -/

/-- What can be asked of a driver. -/
inductive Request where
  | sendKey (key : Key) (down : Bool)
  | typeText (s : String)
  | typeChar (c : Char)
  | flush
  | delay
  | requestPermissions
  | setKeyDelay (d : KeyDelay)
  deriving DecidableEq, Repr

variable {δ : Type} [KeyboardDriver δ]

/-- Lets the driver do what it is asked for, whatever comes of it. -/
def Request.run : Request → StateM (Rig δ) Unit
  | sendKey key down => do let _ ← KeyboardDriver.sendKey key down
  | typeText s => do let _ ← KeyboardDriver.typeText s
  | typeChar c => do let _ ← KeyboardDriver.typeChar c
  | flush => do let _ ← KeyboardDriver.flush
  | delay => KeyboardDriver.delay
  | requestPermissions => do let _ ← KeyboardDriver.requestPermissions
  | setKeyDelay d => modify fun r => { r with front := KeyboardDriver.setKeyDelay d r.front }

/-- What is kept when something is sent, when time passes and when the delay is set is kept by every
request but the one for permissions. -/
theorem Request.keeps_run {J : Rig δ → Prop} {request : Request}
    (hkey : ∀ key down, Keeps J (KeyboardDriver.sendKey key down))
    (htext : ∀ s, Keeps J (KeyboardDriver.typeText s))
    (hchar : ∀ c, Keeps J (KeyboardDriver.typeChar c)) (hflush : Keeps J KeyboardDriver.flush)
    (hdelay : Keeps J KeyboardDriver.delay)
    (hset : ∀ d r, J r → J { r with front := KeyboardDriver.setKeyDelay d r.front })
    (h : request ≠ .requestPermissions) : Keeps J request.run := by
  cases request with
  | sendKey key down => exact (hkey key down).bind fun _ => Keeps.pure _
  | typeText s => exact (htext s).bind fun _ => Keeps.pure _
  | typeChar c => exact (hchar c).bind fun _ => Keeps.pure _
  | flush => exact hflush.bind fun _ => Keeps.pure _
  | delay => exact hdelay
  | requestPermissions => exact absurd rfl h
  | setKeyDelay d => exact Keeps.modify (hset d)

omit [KeyboardDriver δ] in
/-- The driver of a sender, and the machine. -/
def Rig.inner (r : Rig (Sender δ)) : Rig δ := ⟨r.front.driver, r.host⟩

namespace Sender

/-- What a step asks the driver for. -/
def Step.request? : Step → Option Request
  | keyDown key => some (.sendKey key true)
  | keyUp key => some (.sendKey key false)
  | delay => some .delay
  | typeText s => some (.typeText s)
  | typeScalar c => some (.typeChar c)
  | report _ => none
  | flush => some .flush
  | requestPermissions => some .requestPermissions
  | setKeyDelay micros => some (.setKeyDelay ⟨micros⟩)

variable {J : Rig δ → Prop}

/-- What is kept by the request of a step, or by the report that it makes, is kept by the step. -/
theorem keeps_step {step : Step}
    (hrequest : ∀ request, step.request? = some request → Keeps J request.run)
    (hreport : ∀ message, step = .report message → Keeps J (Rig.report message)) :
    Keeps (fun r : Rig (Sender δ) => J r.inner) step.run := by
  intro r hr
  cases step with
  | report message => exact hreport message rfl _ hr
  | flush =>
    -- a driver that is not ready is not even asked
    change J (flush r).2.inner
    rw [flush_eq]
    split
    · exact hrequest .flush rfl _ hr
    · exact hr
  | _ => exact hrequest _ rfl _ hr

/-- What the requests of an operation keep, and its report if it makes one, is kept by the
operation. -/
theorem keeps_perform_of_requests {op : Operation}
    (hrequest : ∀ request ∈ op.steps.filterMap Step.request?, Keeps J request.run)
    (hreport : ∀ message, Step.report message ∈ op.steps → Keeps J (Rig.report message)) :
    Keeps (fun r : Rig (Sender δ) => J r.inner) (perform op) := by
  intro r hr
  refine keeps_perform (I := fun r => J r.inner) (fun step hstep => ?_) hr
  apply keeps_step
  · intro request hsome
    exact hrequest request (List.mem_filterMap.2 ⟨step, hstep, hsome⟩)
  · rintro message rfl
    exact hreport message hstep

end Sender

end Keystroke
