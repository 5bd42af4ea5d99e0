import Keystroke.Capture.Thread

/-!
# Runs of a capture thread

A run of a capture thread is made of its own moves and of what others do in between. They may change
the memory that is shared with the thread and put something into it, but as long as the thread has
not ended nobody raises the flag. A run lists the events with which the callback was called.

## Main statements

- `move?_frame`: a thread never touches the lock or the session, and it never raises the flag.
- `Runs.calls_eq`: a run lists an event for each call of the callback.
- `Runs.keeps_down`: once the flag is down it stays so until the thread has ended.
-/

namespace Keystroke

namespace CaptureThread

/-! ## What a move leaves alone -/

/-- The thread without what others put into it. Only its own moves change the rest. -/
def inner (t : CaptureThread) : CaptureThread := { t with inbox := [], quit := false }

variable {self : Nat} {m m' : Shared} {t t' : CaptureThread}

theorem stage_eq_of_inner_eq (h : t'.inner = t.inner) : t'.stage = t.stage := by
  have hs : t'.inner.stage = t.inner.stage := congrArg stage h
  exact hs

theorem callback_eq_of_inner_eq (h : t'.inner = t.inner) : t'.callback = t.callback := by
  have hc : t'.inner.callback = t.inner.callback := congrArg callback h
  exact hc

theorem isOver_eq_of_inner_eq (h : t'.inner = t.inner) : t'.isOver = t.isOver := by
  simp only [isOver, stage_eq_of_inner_eq h]

theorem calls_eq_of_inner_eq (h : t'.inner = t.inner) : t'.calls = t.calls := by
  have hc : t'.inner.calls = t.inner.calls := congrArg calls h
  exact hc

/-- The memory after a move of a thread: the lock and the session are as before, and the flag was
not raised. -/
structure Frame (m m' : Shared) : Prop where
  holder : m'.holder = m.holder
  session : m'.session = m.session
  flag : m'.flag = true → m.flag = true

theorem Frame.refl (m : Shared) : Frame m m := ⟨rfl, rfl, id⟩

theorem frame_of_moveBody {p : Capture Unit} (h : t.moveBody self m p = some (m', t')) :
    Frame m m' := by
  cases p <;> simp only [moveBody] at h
  case idle | awaitQuit =>
    split at h <;> cases h
    exact Frame.refl m
  all_goals
    cases h
    exact ⟨rfl, rfl, id⟩

theorem frame_of_moveCall {acts : List Act} {noted : Heard} {rest : Capture Unit}
    (h : t.moveCall self m noted rest acts = some (m', t')) : Frame m m' := by
  cases acts with
  | nil => cases h; exact Frame.refl m
  | cons act acts =>
    cases act with
    | start =>
      simp only [moveCall] at h
      split at h <;> cases h
      exact Frame.refl m
    | stop => cases h; exact ⟨rfl, rfl, fun h => by cases h⟩
    | cause | look | note | panic => cases h; exact ⟨rfl, rfl, id⟩

/-- A capture thread never touches the lock or the session, and it never raises the flag. -/
theorem move?_frame (h : t.move? self m = some (m', t')) : Frame m m' := by
  unfold move? at h
  split at h
  next => exact frame_of_moveBody h
  next =>
    split at h
    next => cases h; exact Frame.refl m
    next => split at h <;> cases h; exact Frame.refl m
  next => exact frame_of_moveCall h
  next => cases h; exact ⟨rfl, rfl, nofun⟩
  next => cases h; exact Frame.refl m
  next => cases h

/-- A thread that has ended does not move. -/
theorem move?_of_isOver (h : t.isOver = true) : t.move? self m = none := by
  cases hs : t.stage <;> simp_all [isOver, move?]

theorem isOver_of_move? (h : t.move? self m = some (m', t')) : t.isOver = false := by
  cases ho : t.isOver with
  | false => rfl
  | true => rw [move?_of_isOver ho] at h; cases h

/-! ## Runs -/

/-- The event with which the next move of a thread calls the callback, if it does. -/
def invocation (t : CaptureThread) : List KeyEvent :=
  match t.stage with
  | .body (.deliver event _) => [event]
  | .receiving _ => t.pending.take 1
  | _ => []

/-- The thread `self` comes from one state to another and calls the callback with the given events
in order. -/
inductive Runs (self : Nat) :
    Shared → CaptureThread → List KeyEvent → Shared → CaptureThread → Prop where
  | refl (m : Shared) (t : CaptureThread) : Runs self m t [] m t
  | move {m₀ m m' : Shared} {t₀ t t' : CaptureThread} {es} (h : Runs self m₀ t₀ es m t)
      (hm : t.move? self m = some (m', t')) : Runs self m₀ t₀ (es ++ t.invocation) m' t'
  | others {m₀ m m' : Shared} {t₀ t t' : CaptureThread} {es} (h : Runs self m₀ t₀ es m t)
      (hi : t'.inner = t.inner) (hf : t.isOver = false → m'.flag = true → m.flag = true) :
      Runs self m₀ t₀ es m' t'

theorem Runs.trans {m₁ m₂ m₃ : Shared} {t₁ t₂ t₃ : CaptureThread} {es es' : List KeyEvent}
    (h : Runs self m₁ t₁ es m₂ t₂) (h' : Runs self m₂ t₂ es' m₃ t₃) :
    Runs self m₁ t₁ (es ++ es') m₃ t₃ := by
  induction h' with
  | refl => simpa using h
  | move _ hm ih =>
    rw [← List.append_assoc]
    exact .move (ih h) hm
  | others _ hi hf ih => exact .others (ih h) hi hf

theorem Runs.of_move? (hm : t.move? self m = some (m', t')) : Runs self m t t.invocation m' t' := by
  simpa using Runs.move (.refl m t) hm

/-- What the moves of the thread and the doings of others keep holds at the end of a run. -/
theorem Runs.keeps {I : Shared → CaptureThread → List KeyEvent → Prop}
    (hmove : ∀ m t es m' t', I m t es → t.move? self m = some (m', t') →
      I m' t' (es ++ t.invocation))
    (hothers : ∀ m t es m' t', I m t es → t'.inner = t.inner →
      (t.isOver = false → m'.flag = true → m.flag = true) → I m' t' es)
    {es : List KeyEvent} (h : Runs self m t es m' t') (hi : I m t []) : I m' t' es := by
  induction h with
  | refl => exact hi
  | move _ hm ih => exact hmove _ _ _ _ _ (ih hi) hm
  | others _ hin hf ih => exact hothers _ _ _ _ _ (ih hi) hin hf

theorem calls_of_moveBody {p : Capture Unit} (hs : t.stage = .body p)
    (h : t.moveBody self m p = some (m', t')) :
    t'.callback = t.callback ∧ t'.calls = t.calls + t.invocation.length := by
  cases p <;> simp only [moveBody] at h
  case idle | awaitQuit =>
    split at h <;> cases h
    simp [invocation, hs, goto]
  all_goals
    cases h
    simp [invocation, hs, goto, call]

theorem calls_of_moveCall {acts : List Act} {noted : Heard} {rest : Capture Unit}
    (h : t.moveCall self m noted rest acts = some (m', t')) :
    t'.callback = t.callback ∧ t'.calls = t.calls := by
  cases acts with
  | nil => cases h; exact ⟨rfl, rfl⟩
  | cons act acts =>
    cases act with
    | start =>
      simp only [moveCall] at h
      split at h <;> cases h
      exact ⟨rfl, rfl⟩
    | stop | cause | look | note | panic => cases h; exact ⟨rfl, rfl⟩

/-- A thread keeps its callback, and counts the calls of it. -/
theorem calls_of_move? (h : t.move? self m = some (m', t')) :
    t'.callback = t.callback ∧ t'.calls = t.calls + t.invocation.length := by
  unfold move? at h
  split at h
  next p hs => exact calls_of_moveBody hs h
  next rest hs =>
    split at h
    next event later hp =>
      cases h
      simp [invocation, hs, hp, call]
    next hp =>
      split at h <;> cases h
      simp [invocation, hs, hp, goto]
  next acts noted rest hs => simpa [invocation, hs] using calls_of_moveCall h
  next hs => cases h; simp [invocation, hs, goto]
  next hs => cases h; simp [invocation, hs, goto]
  next => cases h

/-- A run lists an event for each call of the callback, which is the same all the time. -/
theorem Runs.calls_eq {es : List KeyEvent} (h : Runs self m t es m' t') :
    t'.callback = t.callback ∧ t'.calls = t.calls + es.length := by
  refine h.keeps (I := fun _ u es => u.callback = t.callback ∧ u.calls = t.calls + es.length)
    ?_ ?_ ⟨rfl, rfl⟩
  · intro m u es m' u' hu hm
    have hm := calls_of_move? hm
    simp only [List.length_append]
    exact ⟨hm.1.trans hu.1, by rw [hm.2, hu.2, Nat.add_assoc]⟩
  · intro m u es m' u' hu hi _
    exact ⟨(callback_eq_of_inner_eq hi).trans hu.1, (calls_eq_of_inner_eq hi).trans hu.2⟩

/-- Once the flag is down it stays so until the thread has ended. -/
theorem Runs.keeps_down {es : List KeyEvent} (h : Runs self m t es m' t')
    (hf : t.isOver = false → m.flag = false) (ho : t'.isOver = false) : m'.flag = false := by
  refine h.keeps (I := fun m t _ => t.isOver = false → m.flag = false) ?_ ?_ hf ho
  · -- a thread that moves has not ended yet, so the flag was down before
    intro m t _ m' t' hf hm _
    have hdown := hf (isOver_of_move? hm)
    have hflag := (move?_frame hm).flag
    rw [hdown] at hflag
    simpa using hflag
  · intro m t _ m' t' hf hi hothers ho
    rw [isOver_eq_of_inner_eq hi] at ho
    have hflag := hothers ho
    rw [hf ho] at hflag
    simpa using hflag

end CaptureThread

end Keystroke
