import Keystroke.Proofs.Capture.Runs

/-!
# Programs that heed the flag

A program heeds the flag if it looks at it before each event that it delivers, and delivers nothing
more once it has seen the flag down. Then the events that it has to deliver reach the callback in
order and each of them once, whatever the callback does and others do meanwhile; after a call in
which the callback stops the listener there is no further one.

The program is known only by the events that it delivers while the flag is up (`Plays`), so the
same argument serves every mechanism.

## Main statements

- `heeding_of_runs`: what is known of a thread at any point of any run.
- `delivers_of_plays`: a program that plays some events delivers them.
-/

namespace Keystroke

namespace Capture

variable {α : Type}

/-- The program calls no callback, whatever it sees. -/
inductive Silent : Capture α → Prop where
  | done (a) : Silent (done a)
  | record (entry) {next} (h : Silent next) : Silent (record entry next)
  | defer (entry) {next} (h : Silent next) : Silent (defer entry next)
  | running {next} (h : ∀ b, Silent (next b)) : Silent (running next)
  | idle {next} (h : Silent next) : Silent (idle next)

/-- The program delivers the events in order while the flag is up, and none once it has seen the
flag down. It looks at the flag before it delivers an event, unless it has just done so. -/
inductive Plays : Bool → Capture α → List KeyEvent → Prop where
  | done (c a) : Plays c (done a) []
  | report (outcome) {c next es} (h : Plays c next es) : Plays c (report outcome next) es
  | record (entry) {c next es} (h : Plays c next es) : Plays c (record entry next) es
  | defer (entry) {c next es} (h : Plays c next es) : Plays c (defer entry next) es
  | running (c) {next es} (down : Silent (next false)) (up : Plays true (next true) es) :
      Plays c (running next) es
  | deliver (e) {next es} (h : Plays false next es) : Plays true (deliver e next) (e :: es)
  | idle (c) {next} (h : Silent next) : Plays c (idle next) []

end Capture

namespace CaptureThread

open Capture (Silent Plays)

/-- A thread at the beginning of a program. -/
def begin (p : Capture Unit) (callback : Callback) : CaptureThread := { stage := .body p, callback }

/-- Whether the program of the thread is over, or waits for nothing but the flag. -/
def isSpent (t : CaptureThread) : Bool :=
  match t.stage with
  | .leaving | .body (.idle _) => true
  | _ => false

end CaptureThread

/-- The callback stopped its listener in one of the calls with the given events. -/
def Callback.HasStopped (callback : Callback) (es : List KeyEvent) : Prop :=
  ∃ i e, es[i]? = some e ∧ (callback.react i e).stops = true

namespace Capture

open CaptureThread (Runs)

/-- A program delivers the events, whatever the callback does and whoever lowers the flag when. -/
structure Delivers (p : Capture Unit) (events : List KeyEvent) : Prop where
  /-- The callback is called with the events in order, without gap or repetition. -/
  ordered {self m callback es m' t'} : Runs self m (.begin p callback) es m' t' → es <+: events
  /-- It was called with all of them when the flag was never lowered and the program is spent. -/
  complete {self m callback es m' t'} : Runs self m (.begin p callback) es m' t' →
    m'.flag = true → t'.isSpent = true → es = events
  /-- A call in which it stops the listener is the last one. -/
  stopped {self m callback es m' t'} : Runs self m (.begin p callback) es m' t' →
    ∀ i e, es[i]? = some e → (callback.react i e).stops = true → es.length = i + 1
  /-- While the flag is up the thread can go on by itself, unless the callback breaks or blocks it,
  until the callback was called with all events or has stopped the listener. -/
  live {self m callback es m' t'} : Runs self m (.begin p callback) es m' t' →
    (∀ i e, (callback.react i e).starts = false ∧ (callback.react i e).panics = false) →
    m'.flag = true → t'.isAlive = true → ∃ es' m'' t'', Runs self m' t' es' m'' t'' ∧
      (es ++ es' = events ∨ callback.HasStopped (es ++ es'))

end Capture

/-! ## The invariant -/

namespace CaptureThread

open Capture (Silent Plays)

variable {callback : Callback} {events es : List KeyEvent} {flag : Bool}

/-- What is known of a stage when the callback was called with `es`: what is left to be delivered,
and that nothing will be once the callback has stopped the listener. -/
inductive StageHeeds (callback : Callback) (events es : List KeyEvent) (flag : Bool) :
    Stage → Prop where
  | playing {c p rest} (hp : Plays c p rest) (he : es ++ rest = events)
      (hs : callback.HasStopped es → c = false ∧ flag = false) :
      StageHeeds callback events es flag (.body p)
  | silent {p} (hp : Silent p) (he : es <+: events) (hf : flag = false) :
      StageHeeds callback events es flag (.body p)
  | calling {acts noted p rest e} (hp : Plays false p rest) (he : es ++ rest = events)
      (hl : es.getLast? = some e) (ha : acts <:+ (callback.react (es.length - 1) e).acts)
      (hs : callback.HasStopped es → Act.stop ∈ acts ∨ flag = false) :
      StageHeeds callback events es flag (.calling acts noted p)
  | leaving (he : es <+: events) (hf : flag = true → es = events) :
      StageHeeds callback events es flag .leaving
  | ending (he : es <+: events) : StageHeeds callback events es flag .ending
  | ended (panicked) (he : es <+: events) : StageHeeds callback events es flag (.over panicked)

/-- What is known of a thread when its callback was called with `es`. -/
structure Heeding (callback : Callback) (events : List KeyEvent) (m : Shared) (t : CaptureThread)
    (es : List KeyEvent) : Prop where
  uses : t.callback = callback
  calls : t.calls = es.length
  stage : StageHeeds callback events es m.flag t.stage
  stopped : ∀ i e, es[i]? = some e → (callback.react i e).stops = true → es.length = i + 1

theorem StageHeeds.ordered {stage : Stage} (h : StageHeeds callback events es flag stage) :
    es <+: events := by
  cases h with
  | playing _ he _ | calling _ he _ _ _ => exact ⟨_, he⟩
  | silent _ he _ | leaving he _ | ending he | ended _ he => exact he

/-- Nothing is lost from what is known of a stage when the flag goes down. -/
theorem StageHeeds.lower {stage : Stage} {flag' : Bool}
    (h : StageHeeds callback events es flag stage) (hf : flag' = true → flag = true) :
    StageHeeds callback events es flag' stage := by
  have hdown : flag = false → flag' = false := by
    cases flag' with
    | false => exact fun _ => rfl
    | true => intro h; rw [hf rfl] at h; cases h
  cases h with
  | playing hp he hs => exact .playing hp he fun h => ⟨(hs h).1, hdown (hs h).2⟩
  | silent hp he hf => exact .silent hp he (hdown hf)
  | calling hp he hl ha hs => exact .calling hp he hl ha fun h => (hs h).imp_right hdown
  | leaving he hall => exact .leaving he fun h => hall (hf h)
  | ending he => exact .ending he
  | ended panicked he => exact .ended panicked he

theorem mem_acts_stop {r : Reaction} : Act.stop ∈ r.acts ↔ r.stops = true := by
  cases hs : r.starts <;> cases ht : r.stops <;> cases hp : r.panics <;>
    simp [Reaction.acts, hs, ht, hp]

theorem mem_acts_start {r : Reaction} : Act.start ∈ r.acts ↔ r.starts = true := by
  cases hs : r.starts <;> cases ht : r.stops <;> cases hp : r.panics <;>
    simp [Reaction.acts, hs, ht, hp]

theorem mem_acts_panic {r : Reaction} : Act.panic ∈ r.acts ↔ r.panics = true := by
  cases hs : r.starts <;> cases ht : r.stops <;> cases hp : r.panics <;>
    simp [Reaction.acts, hs, ht, hp]

theorem getElem?_concat {e e' : KeyEvent} {i : Nat} (h : (es ++ [e])[i]? = some e') :
    es[i]? = some e' ∨ i = es.length ∧ e' = e := by
  rcases Nat.lt_or_ge i es.length with hlt | hge
  · rw [List.getElem?_append_left hlt] at h
    exact .inl h
  · have hi : i = es.length := by
      have hlt := (List.getElem?_eq_some_iff.1 h).1
      simp only [List.length_append, List.length_singleton] at hlt
      omega
    subst hi
    simp only [List.getElem?_concat_length, Option.some.injEq] at h
    exact .inr ⟨rfl, h.symm⟩

section Step

variable {self : Nat} {m m' : Shared} {t t' : CaptureThread}

/-- The invariant after a step in which the callback was not called. -/
theorem Heeding.quiet (h : Heeding callback events m t es) (hu : t'.callback = t.callback)
    (hc : t'.calls = t.calls) (hs : StageHeeds callback events es m'.flag t'.stage) :
    Heeding callback events m' t' es :=
  ⟨hu.trans h.uses, hc.trans h.calls, hs, h.stopped⟩

/-- The invariant after the callback was called. -/
theorem heeding_of_call (h : Heeding callback events m t es) {e : KeyEvent} {p : Capture Unit}
    {rest : List KeyEvent} (hp : Plays false p rest) (he : es ++ e :: rest = events)
    (hs : ¬ callback.HasStopped es) :
    Heeding callback events m (t.call self e p) (es ++ [e]) := by
  have hacts : (t.callback.react t.calls e).acts =
      (callback.react ((es ++ [e]).length - 1) e).acts := by
    simp [h.uses, h.calls]
  refine ⟨h.uses, ?_, ?_, ?_⟩
  · simp [call, h.calls]
  · -- a stop in this call is still among its acts, and there was none before it
    refine .calling (e := e) hp (by simpa using he) (by simp) ?_ fun hstop => .inl ?_
    · exact hacts ▸ List.suffix_rfl
    · obtain ⟨i, e', he', hstop⟩ := hstop
      rw [mem_acts_stop, h.uses, h.calls]
      rcases getElem?_concat he' with hi | ⟨rfl, rfl⟩
      · exact absurd ⟨i, e', hi, hstop⟩ hs
      · exact hstop
  · intro i e' he' hstop
    rcases getElem?_concat he' with hi | ⟨rfl, rfl⟩
    · exact absurd ⟨i, e', hi, hstop⟩ hs
    · simp

/-- A move in the program keeps the invariant. -/
theorem heeding_of_moveBody {p : Capture Unit} (hs : t.stage = .body p)
    (h : Heeding callback events m t es) (hm : t.moveBody self m p = some (m', t')) :
    Heeding callback events m' t' (es ++ t.invocation) := by
  have hstage := h.stage
  rw [hs] at hstage
  simp only [invocation, hs]
  cases hstage with
  | playing hp he hstop =>
    cases hp with
    | deliver e hp =>
      -- it has just seen the flag up, so the callback has not stopped the listener
      cases hm
      exact heeding_of_call h hp he fun h => absurd (hstop h).1 (by simp)
    | running c down up =>
      cases hm
      rw [List.append_nil]
      refine h.quiet rfl rfl ?_
      -- from here on it is playing or silent, as the flag says
      cases hf : m.flag with
      | true => exact .playing up he fun h => absurd (hstop h).2 (by simp [hf])
      | false => exact .silent down ⟨_, he⟩ rfl
    | idle c hp =>
      simp only [moveBody] at hm
      split at hm <;> cases hm
      next hf =>
        rw [List.append_nil]
        exact h.quiet rfl rfl (.silent hp ⟨_, he⟩ (Bool.eq_false_iff.2 hf))
    | done c a =>
      cases hm
      rw [List.append_nil] at he ⊢
      exact h.quiet rfl rfl (.leaving ⟨[], by simpa using he⟩ fun _ => he)
    | report | record | defer =>
      cases hm
      rw [List.append_nil]
      exact h.quiet rfl rfl (.playing ‹_› he hstop)
  | silent hp he hf =>
    -- no effect of a silent program calls the callback
    cases hp with
    | running hp =>
      cases hm
      rw [List.append_nil]
      exact h.quiet rfl rfl (.silent (hp _) he hf)
    | idle hp =>
      simp only [moveBody] at hm
      split at hm <;> cases hm
      rw [List.append_nil]
      exact h.quiet rfl rfl (.silent hp he hf)
    | done a =>
      cases hm
      rw [List.append_nil]
      exact h.quiet rfl rfl (.leaving he fun h => by
        simp only [cleanUp, hf] at h
        cases h)
    | record | defer =>
      cases hm
      rw [List.append_nil]
      exact h.quiet rfl rfl (.silent ‹_› he hf)

/-- A move in the callback keeps the invariant. -/
theorem heeding_of_moveCall {acts : List Act} {noted : Heard} {p : Capture Unit}
    (hs : t.stage = .calling acts noted p) (h : Heeding callback events m t es)
    (hm : t.moveCall self m noted p acts = some (m', t')) :
    Heeding callback events m' t' es := by
  have hstage := h.stage
  rw [hs] at hstage
  cases hstage with
  | calling hp he hl ha hstop =>
    cases acts with
    | nil =>
      -- the call is over: if there was a stop in it the flag is down by now
      cases hm
      exact h.quiet rfl rfl (.playing hp he fun h => ⟨rfl, by simpa using hstop h⟩)
    | cons act acts =>
      have ha' := List.IsSuffix.trans (List.suffix_cons act acts) ha
      cases act with
      | start =>
        simp only [moveCall] at hm
        split at hm <;> cases hm
        exact h.quiet rfl rfl (.calling hp he hl ha' fun h => by simpa using hstop h)
      | stop =>
        cases hm
        exact h.quiet rfl rfl (.calling hp he hl ha' fun _ => .inr rfl)
      | cause | look | note =>
        cases hm
        exact h.quiet rfl rfl (.calling hp he hl ha' fun h => by simpa using hstop h)
      | panic =>
        cases hm
        exact h.quiet rfl rfl (.ended true ⟨_, he⟩)

theorem heeding_of_move? (h : Heeding callback events m t es)
    (hm : t.move? self m = some (m', t')) :
    Heeding callback events m' t' (es ++ t.invocation) := by
  have hstage := h.stage
  unfold move? at hm
  split at hm
  next p hs => exact heeding_of_moveBody hs h hm
  next p hs =>
    -- a program that plays known events does not serve an inbox
    rw [hs] at hstage
    cases hstage
  next acts noted p hs => simpa [invocation, hs] using heeding_of_moveCall hs h hm
  next hs =>
    cases hm
    simp only [invocation, hs, List.append_nil]
    exact h.quiet rfl rfl (.ending hstage.ordered)
  next hs =>
    cases hm
    simp only [invocation, hs, List.append_nil]
    exact h.quiet rfl rfl (.ended false hstage.ordered)
  next => cases hm

theorem heeding_of_others (h : Heeding callback events m t es) (hi : t'.inner = t.inner)
    (hf : t.isOver = false → m'.flag = true → m.flag = true) :
    Heeding callback events m' t' es := by
  refine h.quiet (callback_eq_of_inner_eq hi) (calls_eq_of_inner_eq hi) ?_
  rw [stage_eq_of_inner_eq hi]
  cases ho : t.isOver with
  | false => exact h.stage.lower (hf ho)
  | true =>
    -- the flag may have been raised for another thread
    have hstage := h.stage
    cases hs : t.stage with
    | body | receiving | calling | leaving | ending => simp [isOver, hs] at ho
    | _ => exact .ended _ h.stage.ordered

end Step

/-- What is known of a thread with a program that plays some events, at any point of any run. -/
theorem heeding_of_runs {self : Nat} {m m' : Shared} {t' : CaptureThread} {p : Capture Unit}
    {c : Bool} (hp : Plays c p events) (h : Runs self m (begin p callback) es m' t') :
    Heeding callback events m' t' es := by
  have hstart : Heeding callback events m (begin p callback) [] := by
    refine ⟨rfl, rfl, .playing hp rfl ?_, by simp⟩
    rintro ⟨i, e, he, -⟩
    simp at he
  refine h.keeps (fun m t es m' t' h hm => ?_) (fun m t es m' t' h hi hf => ?_) hstart
  · exact heeding_of_move? h hm
  · exact heeding_of_others h hi hf

/-! ## Going on -/

section Live

variable {self : Nat} {m : Shared} {t : CaptureThread}

theorem Heeding.complete (h : Heeding callback events m t es) (hf : m.flag = true)
    (ht : t.isSpent = true) : es = events := by
  have hstage := h.stage
  unfold isSpent at ht
  split at ht
  next hs =>
    rw [hs] at hstage
    cases hstage with
    | leaving _ hall => exact hall hf
  next p hs =>
    rw [hs] at hstage
    cases hstage with
    | playing hp he _ => cases hp; simpa using he
    | silent _ _ hdown => rw [hf] at hdown; cases hdown
  next => cases ht

/-- While the flag is up, a thread whose program is not over either has delivered all events, or is
in a call in which the callback stops the listener, or can move and leaves the flag up. -/
theorem Heeding.move? (h : Heeding callback events m t es) (self : Nat) (hf : m.flag = true)
    (ha : t.isAlive = true)
    (hc : ∀ i e, (callback.react i e).starts = false ∧ (callback.react i e).panics = false) :
    es = events ∨ callback.HasStopped es ∨
      ∃ m' t', t.move? self m = some (m', t') ∧ m'.flag = true ∧ t'.isAlive = true := by
  have hstage := h.stage
  cases hs : t.stage with
  | body p =>
    rw [hs] at hstage
    cases hstage with
    | silent hp he hdown => rw [hf] at hdown; cases hdown
    | playing hp he hstop =>
      cases hp with
      | done | idle => exact .inl (by simpa using he)
      | _ =>
        simp only [CaptureThread.move?, hs, moveBody]
        exact .inr (.inr ⟨_, _, rfl, hf, rfl⟩)
  | calling acts noted p =>
    rw [hs] at hstage
    cases hstage with
    | calling hp he hl hacts hstop =>
      rw [List.getLast?_eq_getElem?] at hl
      cases acts with
      | nil =>
        simp only [CaptureThread.move?, hs, moveCall]
        exact .inr (.inr ⟨_, _, rfl, hf, rfl⟩)
      | cons act acts =>
        have hmem := hacts.subset List.mem_cons_self
        cases act with
        | start => rw [mem_acts_start, (hc _ _).1] at hmem; cases hmem
        | panic => rw [mem_acts_panic, (hc _ _).2] at hmem; cases hmem
        | stop =>
          -- the stop belongs to the last call
          exact .inr (.inl ⟨_, _, hl, mem_acts_stop.1 hmem⟩)
        | cause | look | note =>
          simp only [CaptureThread.move?, hs, moveCall]
          exact .inr (.inr ⟨_, _, rfl, hf, rfl⟩)
  | receiving p => rw [hs] at hstage; cases hstage
  | _ => simp [isAlive, hs] at ha

theorem Heeding.live (h : Heeding callback events m t es) (hf : m.flag = true)
    (ha : t.isAlive = true)
    (hc : ∀ i e, (callback.react i e).starts = false ∧ (callback.react i e).panics = false) :
    ∃ es' m' t', Runs self m t es' m' t' ∧
      (es ++ es' = events ∨ callback.HasStopped (es ++ es')) := by
  -- by induction on how far the thread is from its end
  generalize hd : t.distance = d
  induction d using WellFounded.induction (r := Closer) WellFoundedRelation.wf
    generalizing m t es with
  | _ d ih =>
  rcases h.move? self hf ha hc with hall | hstop | ⟨m', t', hm, hf', ha'⟩
  · exact ⟨[], m, t, .refl m t, .inl (by simpa using hall)⟩
  · exact ⟨[], m, t, .refl m t, .inr (by simpa using hstop)⟩
  · obtain ⟨es', m'', t'', hr, hend⟩ :=
      ih _ (hd ▸ closer_of_move? hm) (heeding_of_move? h hm) hf' ha' rfl
    refine ⟨t.invocation ++ es', m'', t'', (Runs.of_move? hm).trans hr, ?_⟩
    rwa [← List.append_assoc]

end Live

end CaptureThread

/-! ## Delivery -/

namespace Capture

open CaptureThread

/-- **Delivery**: a program that plays some events delivers them. -/
theorem delivers_of_plays {p : Capture Unit} {c : Bool} {events : List KeyEvent}
    (hp : Plays c p events) : p.Delivers events where
  ordered h := (heeding_of_runs hp h).stage.ordered
  complete h hf ht := (heeding_of_runs hp h).complete hf ht
  stopped h := (heeding_of_runs hp h).stopped
  live h hc hf ha := (heeding_of_runs hp h).live hf ha hc

end Capture

end Keystroke
