import Keystroke.Proofs.Capture.Traces
import Keystroke.Proofs.Listener.Barrier

/-!
# What a listener leaves in the journal

Only programs, callbacks and those who wake a thread leave something in the journal. What they leave
can be read off the program, the callback and the waker, so a property of the entries is carried
along by all of them.

## Main statements

- `Capture.Leaves.bind`: what a program leaves that goes on as another one.
- `CaptureThread.Leaves.move`: a thread leaves what its program and its callback leave.
- `Listener.Leaves.move`: every entry that is left by a move has the property.
- `Listener.Leaves.ask`, `Listener.Leaves.settle`: likewise for what is asked from one place.
-/

namespace Keystroke

variable {P : Entry → Prop}

/-! ## Programs and callbacks -/

namespace Capture

variable {α β : Type}

/-- Whatever the program leaves in the journal has the property, and so has the trace of whoever
wakes its thread. -/
def Leaves (P : Entry → Prop) : Capture α → Prop
  | .done _ | .crash => True
  | .report outcome next => (∀ entry, outcome = .ok (some entry) → P entry) ∧ next.Leaves P
  | .record entry next | .defer entry next => P entry ∧ next.Leaves P
  | .running next | .quitting next => ∀ b, (next b).Leaves P
  | .deliver _ next | .postQuit next | .idle next | .awaitQuit next | .serve next => next.Leaves P

/-- What a program leaves that goes on as another one. -/
theorem Leaves.bind {p : Capture α} {f : α → Capture β} (h : p.Leaves P)
    (hf : ∀ a, (f a).Leaves P) : (p.bind f).Leaves P := by
  induction p with
  | done a => exact hf a
  | crash => trivial
  | report _ _ ih | record _ _ ih | defer _ _ ih => exact ⟨h.1, ih h.2⟩
  | running _ ih | quitting _ ih => exact fun b => ih b (h b)
  | deliver _ _ ih | postQuit _ ih | idle _ ih | awaitQuit _ ih | serve _ ih => exact ih h

end Capture

/-- Whatever the callback causes has the property. -/
def Callback.Leaves (P : Entry → Prop) (callback : Callback) : Prop :=
  ∀ n event, ∀ entry ∈ (callback.react n event).causes, P entry

/-! ## Threads -/

/-- Whatever is left from the stage on has the property. -/
def Stage.Leaves (P : Entry → Prop) : Stage → Prop
  | .body rest | .receiving rest => rest.Leaves P
  | .calling acts _ rest => (∀ entry, .cause entry ∈ acts → P entry) ∧ rest.Leaves P
  | .leaving | .ending | .over _ => True

/-- Whatever the thread will leave in the journal has the property. -/
structure CaptureThread.Leaves (P : Entry → Prop) (t : CaptureThread) : Prop where
  stage : t.stage.Leaves P
  callback : t.callback.Leaves P
  deferred : ∀ entry ∈ t.deferred, P entry
  waker : ∀ entry, t.report = some (.ok (some entry)) → P entry

theorem Reaction.cause_mem_acts {r : Reaction} {entry : Entry} :
    .cause entry ∈ r.acts ↔ entry ∈ r.causes := by
  simp only [acts]
  cases r.starts <;> cases r.stops <;> cases r.panics <;> simp

namespace CaptureThread

variable {self : Nat} {m m' : Shared} {t t' : CaptureThread}

theorem Leaves.congr (h : t.Leaves P) (hi : t'.inner = t.inner) : t'.Leaves P where
  stage := (stage_eq_of_inner_eq hi).symm ▸ h.stage
  callback := (callback_eq_of_inner_eq hi).symm ▸ h.callback
  deferred := by
    have hdeferred : t'.inner.deferred = t.inner.deferred := congrArg CaptureThread.deferred hi
    exact fun entry hentry => h.deferred entry (hdeferred ▸ hentry)
  waker := by
    have hreport : t'.inner.report = t.inner.report := congrArg CaptureThread.report hi
    exact fun entry hentry => h.waker entry (hreport ▸ hentry)

theorem Leaves.goto (h : t.Leaves P) {stage : Stage} (hstage : stage.Leaves P) :
    (t.goto stage).Leaves P :=
  ⟨hstage, h.callback, h.deferred, h.waker⟩

theorem Leaves.call (h : t.Leaves P) (event : KeyEvent) {rest : Capture Unit}
    (hrest : rest.Leaves P) : (t.call self event rest).Leaves P where
  stage := ⟨fun entry hentry => h.callback _ _ entry (Reaction.cause_mem_acts.1 hentry), hrest⟩
  callback := h.callback
  deferred := h.deferred
  waker := h.waker

theorem Leaves.moveBody (h : t.Leaves P) {p : Capture Unit} (hp : p.Leaves P)
    (hm : t.moveBody self m p = some (m', t')) : t'.Leaves P := by
  cases p <;> simp only [CaptureThread.moveBody] at hm
  case idle | awaitQuit =>
    split at hm <;> cases hm
    exact h.goto hp
  case serve =>
    cases hm
    cases m.flag <;> exact h.goto hp
  case done | crash =>
    cases hm
    exact h.goto trivial
  case record =>
    cases hm
    exact h.goto hp.2
  case running | quitting =>
    cases hm
    exact h.goto (hp _)
  case deliver =>
    cases hm
    exact h.call _ hp
  case postQuit =>
    cases hm
    exact ⟨hp, h.callback, h.deferred, h.waker⟩
  case defer =>
    cases hm
    exact ⟨hp.2, h.callback, List.forall_mem_cons.2 ⟨hp.1, h.deferred⟩, h.waker⟩
  case report =>
    cases hm
    refine ⟨hp.2, h.callback, h.deferred, fun entry hentry => ?_⟩
    -- only the first report counts
    cases hr : t.report with
    | none =>
      rw [hr] at hentry
      exact hp.1 entry (Option.some.inj hentry)
    | some outcome =>
      rw [hr] at hentry
      exact h.waker entry (hr.trans hentry)

theorem Leaves.moveCall (h : t.Leaves P) {acts : List Act} {noted : Heard} {rest : Capture Unit}
    (hs : (Stage.calling acts noted rest).Leaves P)
    (hm : t.moveCall self m noted rest acts = some (m', t')) : t'.Leaves P := by
  obtain ⟨hacts, hrest⟩ := hs
  cases acts with
  | nil =>
    cases hm
    exact h.goto hrest
  | cons act acts =>
    have hlater : ∀ noted, (Stage.calling acts noted rest).Leaves P :=
      fun _ => ⟨fun entry hentry => hacts entry (List.mem_cons_of_mem _ hentry), hrest⟩
    cases act with
    | start =>
      simp only [CaptureThread.moveCall] at hm
      split at hm <;> cases hm
      exact h.goto (hlater _)
    | cause | stop | look | note =>
      cases hm
      exact h.goto (hlater _)
    | panic =>
      cases hm
      exact h.goto trivial

theorem Leaves.of_deeds (h : t.Leaves P) {entry : Entry}
    (hentry : entry ∈ (t.deeds m).filterMap Deed.entry?) : P entry := by
  have hstage := h.stage
  unfold deeds at hentry
  split at hentry
  case h_4 entry' next hs =>
    obtain rfl : entry = entry' := by simpa [Deed.entry?] using hentry
    rw [hs] at hstage
    exact hstage.1
  case h_8 act acts noted rest hs =>
    rw [hs] at hstage
    cases act with
    | cause entry' =>
      obtain rfl : entry = entry' := by simpa [Act.deeds, Deed.entry?] using hentry
      exact hstage.1 entry List.mem_cons_self
    | _ => simp [Act.deeds, Deed.entry?] at hentry
  all_goals
    try split at hentry
    all_goals simp [Deed.entry?] at hentry

/-- A thread leaves what its program and its callback leave. -/
theorem Leaves.move (h : t.Leaves P) (hm : t.move? self m = some (m', t')) :
    t'.Leaves P ∧ ∃ es, m'.host.journal = m.host.journal ++ es ∧ ∀ entry ∈ es, P entry := by
  constructor
  case left =>
    have hstage := h.stage
    unfold move? at hm
    split at hm
    next p hs =>
      rw [hs] at hstage
      exact h.moveBody hstage hm
    next rest hs =>
      rw [hs] at hstage
      split at hm
      · cases hm
        have htaken : ({ t with taken := t.taken + 1 } : CaptureThread).Leaves P :=
          ⟨h.stage, h.callback, h.deferred, h.waker⟩
        exact htaken.call _ hstage
      · split at hm <;> cases hm
        exact h.goto hstage
    next acts noted rest hs =>
      rw [hs] at hstage
      exact h.moveCall hstage hm
    next =>
      cases hm
      exact h.goto trivial
    next =>
      cases hm
      exact h.goto trivial
    next => cases hm
  case right =>
    refine ⟨_, (journal_of_move? hm).trans (List.append_assoc _ _ _), ?_⟩
    intro entry hentry
    rcases List.mem_append.1 hentry with hdeed | hdeferred
    · exact h.of_deeds hdeed
    · split at hdeferred
      · exact h.deferred entry hdeferred
      · cases hdeferred

end CaptureThread

/-! ## Callers -/

/-- The trace that the caller will leave if it wakes the thread of its session. -/
def Phase.waker? : Phase → Option Entry
  | .clearing s _ | .waking s _ | .joining s _ => s.waker
  | .installing _ waker => waker
  | _ => none

/-- Whatever the callback that a caller has brought leaves has the property, and so has the trace
that the caller leaves itself. -/
structure Phase.Leaves (P : Entry → Prop) (p : Phase) : Prop where
  callback : ∀ callback, p.callback? = some callback → callback.Leaves P
  waker : ∀ entry, p.waker? = some entry → P entry

namespace Listener

variable {β : Type}

/-- Every entry in the journal after those given has the property, and so will have those that are
left by whatever is known to the listener. -/
structure Leaves (P : Entry → Prop) (before : List Entry) (l : Listener β) : Prop where
  journal : ∃ es, l.shared.host.journal = before ++ es ∧ ∀ entry ∈ es, P entry
  threads : ∀ (n : Nat) (t : CaptureThread), l.threads[n]? = some t → t.Leaves P
  callers : ∀ (c : Nat) (p : Phase), l.callers[c]? = some p → p.Leaves P
  session : ∀ s, l.shared.session = some s → ∀ entry, s.waker = some entry → P entry

theorem leaves_init (P : Entry → Prop) (b : β) (h : Host) :
    Leaves P h.journal ({ backend := b, shared := { host := h } } : Listener β) where
  journal := ⟨[], (List.append_nil _).symm, List.forall_mem_nil _⟩
  threads n t ht := by simp at ht
  callers c p hc := by simp at hc
  session s hs := by cases hs

section Turn

variable {c : Nat} {m m' : Shared} {ts ts' : List CaptureThread} {p p' : Phase}

/-- A caller gets the waker of a thread from the session or from the thread. -/
theorem Turn.waker? (turn : Turn c m ts p m' ts' p') {entry : Entry}
    (h : p'.waker? = some entry) : p.waker? = some entry ∨
      (∃ s, m.session = some s ∧ s.waker = some entry) ∨
        ∃ (n : Nat) (t : CaptureThread), ts[n]? = some t ∧ t.report = some (.ok (some entry)) := by
  cases turn with
  | take _ hs => exact .inr (.inl ⟨_, hs, h⟩)
  | lookStale hs | probeStale hs => exact .inr (.inl ⟨_, hs, h⟩)
  | ready hn hr =>
    obtain rfl : _ = some entry := h
    exact .inr (.inr ⟨_, _, hn, hr⟩)
  | clear | wake => exact .inl h
  | _ => cases h

/-- The session is as it was, or the caller has installed it. -/
theorem Turn.session_waker (turn : Turn c m ts p m' ts' p') {s : Session}
    (h : m'.session = some s) : m.session = some s ∨ p.waker? = s.waker := by
  cases turn with
  | install n waker =>
    cases h
    exact .inr rfl
  | _ => simp_all

end Turn

variable [CaptureMechanism β] {l l' : Listener β} {c : Nat} {before : List Entry}

theorem journal_of_enter {call : Call} (hm : l.enter c call = some l') :
    l'.shared.host.journal = l.shared.host.journal := by
  match call with
  | .start none => cases hm; rfl
  | .start (some callback) =>
    simp only [enter] at hm
    split at hm <;> cases hm
    rfl
  | .stop =>
    simp only [enter] at hm
    split at hm
    · split at hm <;> cases hm <;> rfl
    · cases hm
  | .isListening => cases hm; rfl
  | .inject event =>
    simp only [enter] at hm
    split at hm
    · cases hm; rfl
    · split at hm
      · cases hm; rfl
      · split at hm <;> cases hm <;> rfl
  | .setFailing failing => cases hm; rfl

/-- Only a caller that wakes a thread leaves something in the journal. -/
theorem journal_of_moveCaller {p : Phase} (hm : l.moveCaller c p = some l') :
    ∃ es, l'.shared.host.journal = l.shared.host.journal ++ es ∧
      ∀ entry ∈ es, p.waker? = some entry := by
  have hnothing : l'.shared.host.journal = l.shared.host.journal →
      ∃ es, l'.shared.host.journal = l.shared.host.journal ++ es ∧
        ∀ entry ∈ es, p.waker? = some entry :=
    fun h => ⟨[], h.trans (List.append_nil _).symm, List.forall_mem_nil _⟩
  cases p with
  | entered call => exact hnothing (journal_of_enter hm)
  | waking s purpose =>
    simp only [moveCaller] at hm
    split at hm
    next => cases hm; exact hnothing rfl
    next trace hwaker =>
      cases hm
      refine ⟨[trace], ?_, fun entry hentry => ?_⟩
      · cases l.threads[s.thread]? <;> rfl
      · rw [List.mem_singleton.1 hentry]
        exact hwaker
  | looking | probing =>
    simp only [moveCaller] at hm
    split at hm
    · cases hm; exact hnothing rfl
    · split at hm <;> cases hm <;> exact hnothing rfl
  | joining s purpose =>
    simp only [moveCaller] at hm
    split at hm
    · split at hm <;> cases hm <;> exact hnothing rfl
    · cases hm
  | spawning callback =>
    simp only [moveCaller] at hm
    split at hm <;> cases hm <;> exact hnothing rfl
  | awaiting n =>
    simp only [moveCaller] at hm
    split at hm
    · cases hm; exact hnothing rfl
    · split at hm
      · cases hm; exact hnothing rfl
      · cases hm; exact hnothing rfl
      · split at hm <;> cases hm; exact hnothing rfl
  | collecting n e =>
    simp only [moveCaller] at hm
    split at hm <;> cases hm
    exact hnothing rfl
  | replied r => cases hm
  | clearing | raising | dropping | failing | installing | lowering =>
    cases hm; exact hnothing rfl

/-- The thread that a caller spawns has a program of the mechanism. -/
theorem spawned_of_moveCaller {callback : Callback}
    (hm : l.moveCaller c (.spawning callback) = some l') : l'.threads = l.threads ∨
      ∃ program backend, CaptureMechanism.openSession l.backend = (.ok program, backend) ∧
        l'.threads = l.threads ++ [{ stage := .body program, callback }] := by
  simp only [moveCaller] at hm
  split at hm
  next => cases hm; exact .inl rfl
  next program backend hopen => cases hm; exact .inr ⟨program, backend, hopen, rfl⟩

/-- The programs of a mechanism leave what has the property. -/
def Opens (P : Entry → Prop) (β : Type) [CaptureMechanism β] : Prop :=
  ∀ (b b' : β) (program : Capture Unit),
    CaptureMechanism.openSession b = (.ok program, b') → program.Leaves P

theorem Leaves.caller (h : Leaves P before l) (hopens : Opens P β) {p : Phase}
    (hc : l.callers[c]? = some p) (hm : l.moveCaller c p = some l') : Leaves P before l' := by
  obtain ⟨p', hcs, turn⟩ := turn_of_moveCaller hm
  have hp := h.callers c p hc
  constructor
  case journal =>
    obtain ⟨es, hes, hP⟩ := h.journal
    obtain ⟨es', hes', hwaker⟩ := journal_of_moveCaller hm
    refine ⟨es ++ es', by rw [hes', hes, List.append_assoc], ?_⟩
    exact List.forall_mem_append.2 ⟨hP, fun entry hentry => hp.waker entry (hwaker entry hentry)⟩
  case threads =>
    intro n t' ht'
    obtain ⟨t, ht, hi⟩ | ⟨⟨callback, rfl⟩, rfl, -⟩ := turn.thread ht'
    · exact (h.threads n t ht).congr hi
    · obtain hts | ⟨program, backend, hopen, hts⟩ := spawned_of_moveCaller hm
      · exact h.threads _ t' (hts ▸ ht')
      · rw [hts, List.getElem?_concat_length, Option.some.injEq] at ht'
        subst ht'
        -- the new thread has the program of the mechanism and the callback of the caller
        exact ⟨hopens _ _ _ hopen, hp.callback callback rfl, List.forall_mem_nil _, nofun⟩
  case callers =>
    intro k q hk
    rw [hcs, List.getElem?_set] at hk
    split at hk
    next =>
      split at hk <;> cases hk
      refine ⟨fun callback hq => hp.callback callback (turn.callback? hq), fun entry hq => ?_⟩
      obtain hbefore | ⟨s, hs, hentry⟩ | ⟨n, t, ht, hentry⟩ := turn.waker? hq
      · exact hp.waker entry hbefore
      · exact h.session s hs entry hentry
      · exact (h.threads n t ht).waker entry hentry
    next => exact h.callers k q hk
  case session =>
    intro s hs entry hentry
    obtain hsame | hinstalled := turn.session_waker hs
    · exact h.session s hsame entry hentry
    · exact hp.waker entry (hinstalled.trans hentry)

/-- Every entry that is left by a move has the property. -/
theorem Leaves.move (h : Leaves P before l) (hopens : Opens P β) {mover : Mover}
    (hm : l.move? mover = some l') : Leaves P before l' := by
  cases mover with
  | caller c =>
    simp only [move?, Option.bind_eq_bind, Option.bind_eq_some_iff] at hm
    obtain ⟨p, hc, hm⟩ := hm
    exact h.caller hopens hc hm
  | thread n =>
    obtain ⟨c, p, p', hmover, -⟩ | ⟨k, t, t', hmover, ht, hcs, hts, hm⟩ := move?_cases hm
    · cases hmover
    cases hmover
    obtain ⟨ht', es', hes', hP'⟩ := (h.threads n t ht).move hm
    constructor
    case journal =>
      obtain ⟨es, hes, hP⟩ := h.journal
      exact ⟨es ++ es', by rw [hes', hes, List.append_assoc],
        List.forall_mem_append.2 ⟨hP, hP'⟩⟩
    case threads =>
      intro k u hu
      rw [hts, List.getElem?_set] at hu
      split at hu
      next =>
        split at hu <;> cases hu
        exact ht'
      next => exact h.threads k u hu
    case callers => exact fun k q hk => h.callers k q (hcs ▸ hk)
    case session =>
      have hframe := CaptureThread.move?_frame hm
      exact fun s hs => h.session s (hframe.session ▸ hs)

omit [CaptureMechanism β] in
theorem Leaves.request (h : Leaves P before l) {call : Call}
    (hcall : (Phase.entered call).Leaves P) : Leaves P before (l.request call) where
  journal := h.journal
  threads := h.threads
  callers := by
    intro c p hc
    rw [getElem?_callers_request] at hc
    split at hc
    next =>
      cases hc
      exact hcall
    next => exact h.callers c p hc
  session := h.session

theorem Leaves.settle (h : Leaves P before l) (hopens : Opens P β) : Leaves P before l.settle := by
  fun_induction Listener.settle l with
  | case1 l hm => exact h
  | case2 l l' hm ih => exact ih (h.move hopens hm)

theorem Leaves.attend (h : Leaves P before l) (hopens : Opens P β) (c : Nat) :
    Leaves P before (l.attend c) := by
  fun_induction Listener.attend l c with
  | case1 l hr => exact h
  | case2 l hr l' hm ih => exact ih (h.move hopens hm)
  | case3 l hr hm l' hm' ih => exact ih (h.move hopens hm')
  | case4 l hr hm hm' => exact h

theorem Leaves.ask (h : Leaves P before l) (hopens : Opens P β) {call : Call}
    (hcall : (Phase.entered call).Leaves P) : Leaves P before (l.ask call).2 :=
  (h.request hcall).attend hopens _

end Listener

end Keystroke
