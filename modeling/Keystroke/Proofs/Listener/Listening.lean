import Keystroke.Capture.Queue
import Keystroke.Proofs.Listener.Sessions

/-!
# Whether a listener is listening

A listener says that it is listening while the flag is up which it shares with its capture thread.
A thread whose program comes to its end lowers the flag itself, and a caller that stops a session or
sees it fail does so as well. A thread that panics lowers nothing: what is left of the program, and
the lowering of the flag behind it, is lost together with the call of the callback.

## Main statements

- `lowered_of_reachable`: a thread that only has to end has left the flag down.
- `listening_after_end`: after the end of a thread a listener listens if and only if the thread has
  panicked while the flag was up, until a caller lowers the flag or starts a new session.
- `listening_after_panic`: a session whose callback panicked is over, and the listener listens.
-/

namespace Keystroke

/-! ## The last moves of a thread -/

namespace CaptureThread

variable {self : Nat} {m m' : Shared} {t t' : CaptureThread}

/-- The end of a program is at best the beginning of the end of its thread; a crash is the end, and
does nothing to the flag. -/
theorem end_of_moveBody {p : Capture Unit} (h : t.moveBody self m p = some (m', t')) :
    t'.stage ≠ .ending ∧ ∀ panicked, t'.stage = .over panicked →
      panicked = true ∧ m'.flag = m.flag := by
  cases p <;> simp only [moveBody] at h
  case idle | awaitQuit =>
    split at h <;> cases h
    simp [goto]
  case crash =>
    cases h
    simp [goto, cleanUp]
  case serve =>
    cases h
    cases m.flag <;> simp [goto]
  all_goals
    cases h
    simp [goto, call]

/-- A panic of the callback is the end of the thread, and does nothing to the flag. -/
theorem end_of_moveCall {acts : List Act} {noted : Heard} {rest : Capture Unit}
    (h : t.moveCall self m noted rest acts = some (m', t')) :
    t'.stage ≠ .ending ∧ ∀ panicked, t'.stage = .over panicked →
      panicked = true ∧ m'.flag = m.flag := by
  cases acts with
  | nil =>
    cases h
    simp [goto]
  | cons act acts =>
    cases act with
    | start =>
      simp only [moveCall] at h
      split at h <;> cases h
      simp [goto]
    | cause | stop | look | note =>
      cases h
      simp [goto]
    | panic =>
      cases h
      simp [goto, cleanUp]

/-- A thread that only has to end has just lowered the flag. -/
theorem flag_of_move?_ending (h : t.move? self m = some (m', t')) (hs : t'.stage = .ending) :
    m'.flag = false := by
  unfold move? at h
  split at h
  next => exact absurd hs (end_of_moveBody h).1
  next =>
    split at h
    · cases h
      cases hs
    · split at h <;> cases h
      cases hs
  next => exact absurd hs (end_of_moveCall h).1
  next =>
    cases h
    rfl
  next =>
    cases h
    cases hs
  next => cases h

/-- The last move of a thread leaves the flag as it is, and unless it is a panic it comes after the
lowering of the flag. -/
theorem flag_of_move?_over {panicked : Bool} (h : t.move? self m = some (m', t'))
    (hs : t'.stage = .over panicked) :
    m'.flag = m.flag ∧ (panicked = false → t.stage = .ending) := by
  unfold move? at h
  split at h
  next =>
    obtain ⟨rfl, hf⟩ := (end_of_moveBody h).2 panicked hs
    exact ⟨hf, nofun⟩
  next =>
    split at h
    · cases h
      cases hs
    · split at h <;> cases h
      cases hs
  next =>
    obtain ⟨rfl, hf⟩ := (end_of_moveCall h).2 panicked hs
    exact ⟨hf, nofun⟩
  next =>
    cases h
    cases hs
  next hending =>
    cases h
    exact ⟨rfl, fun _ => hending⟩
  next => cases h

end CaptureThread

/-! ## The flag after the last move -/

/-- Whether a caller at the phase has raised the flag for a session that has no thread. -/
def Phase.raised : Phase → Bool
  | .spawning _ | .failing _ => true
  | _ => false

/-- Whether the next turn of a caller at the phase lowers the flag. -/
def Phase.lowers : Phase → Bool
  | .clearing .. | .dropping .. | .failing _ | .lowering => true
  | _ => false

namespace Listener

variable {β : Type}

theorem Turn.lowers {c : Nat} {m m' : Shared} {ts ts' : List CaptureThread} {p p' : Phase}
    (turn : Turn c m ts p m' ts' p') (hf : m.flag = true) (hf' : m'.flag = false) :
    p.lowers = true := by
  cases turn <;> simp_all [Phase.lowers]

/-- A caller that has raised the flag for a session goes on to spawn a thread, or is told that there
will be none, and then the flag is down. -/
theorem Turn.raised {c : Nat} {m m' : Shared} {ts ts' : List CaptureThread} {p p' : Phase}
    (turn : Turn c m ts p m' ts' p') (hp : p.raised = true) :
    p'.raised = true ∨ ts.length < ts'.length ∨ m'.flag = false := by
  cases turn <;> simp_all [Phase.raised]

theorem Turn.spawning_of_raising {c : Nat} {m m' : Shared} {ts ts' : List CaptureThread}
    {p' : Phase} {callback : Callback} (turn : Turn c m ts (.raising callback) m' ts' p') :
    p' = .spawning callback := by
  cases turn
  rfl

theorem Turn.raising_of_spawning {c : Nat} {m m' : Shared} {ts ts' : List CaptureThread}
    {p : Phase} {callback : Callback} (turn : Turn c m ts p m' ts' (.spawning callback)) :
    p = .raising callback := by
  cases turn
  rfl

/-- A turn of a caller brings no thread near its end. -/
theorem Turn.ending {c : Nat} {m m' : Shared} {ts ts' : List CaptureThread} {p p' : Phase}
    (turn : Turn c m ts p m' ts' p') {n : Nat} {t' : CaptureThread} (ht : ts'[n]? = some t')
    (hs : t'.stage = .ending) : ∃ t, ts[n]? = some t ∧ t.stage = .ending := by
  obtain ⟨t, hts, hi⟩ | ⟨⟨callback, rfl⟩, rfl, rfl⟩ := turn.thread ht
  · exact ⟨t, hts, (CaptureThread.stage_eq_of_inner_eq hi).symm.trans hs⟩
  · -- a new thread has yet to begin its program
    cases turn with
    | spawn callback program =>
      rw [List.getElem?_concat_length, Option.some.injEq] at ht
      subst ht
      cases hs

/-- Threads that only have to end have left the flag down. -/
def Lowered (l : Listener β) : Prop :=
  ∀ (n : Nat) (t : CaptureThread), l.threads[n]? = some t → t.stage = .ending →
    l.shared.flag = false

variable [CaptureMechanism β] {l l' l₁ l₂ : Listener β}

theorem lowered_of_move? (hl : Coherent l) {mover : Mover} (hm : l.move? mover = some l')
    (h : Lowered l) : Lowered l' := by
  intro n t' ht' hs
  obtain ⟨c, p, p', rfl, hc, hcs, turn⟩ | ⟨k, u, u', rfl, hu, hcs, hts, hm⟩ := move?_cases hm
  · obtain ⟨t, ht, hs⟩ := turn.ending ht' hs
    have ho : t.isOver = false := by simp [CaptureThread.isOver, hs]
    apply Bool.eq_false_iff.2
    intro hf
    -- nobody raises the flag as long as the thread is there
    have hraised := raises_of_turn hl hc turn ht ho hf
    rw [h n t ht hs] at hraised
    cases hraised
  · by_cases hk : k = n
    · have hlt : n < l.threads.length := hk ▸ (List.getElem?_eq_some_iff.1 hu).1
      rw [hts, hk, List.getElem?_set_self hlt, Option.some.injEq] at ht'
      exact CaptureThread.flag_of_move?_ending hm (ht' ▸ hs)
    · rw [hts, List.getElem?_set_ne hk] at ht'
      apply Bool.eq_false_iff.2
      intro hf
      have hraised := (CaptureThread.move?_frame hm).flag hf
      rw [h n t' ht' hs] at hraised
      cases hraised

/-- A thread that only has to end has left the flag down. -/
theorem lowered_of_reachable {b : β} {h : Host} (hr : Reachable b h l) : Lowered l := by
  refine Reaches.keeps_of_coherent (fun _ _ hk => hk)
    (fun _ _ _ hk hm hi => lowered_of_move? hk hm hi) hr (coherent_init b h) ?_
  intro n t ht
  simp at ht

/-- The last move of a thread leaves the flag up if and only if it is a panic, and the flag was up
before it. -/
theorem flag_of_end {b : β} {h : Host} (hr : Reachable b h l) {n : Nat}
    (hm : l.move? (.thread n) = some l₁) {t₁ : CaptureThread} (ht₁ : l₁.threads[n]? = some t₁)
    {panicked : Bool} (hs : t₁.stage = .over panicked) :
    l₁.shared.flag = (panicked && l.shared.flag) := by
  obtain ⟨c, p, p', hmover, -⟩ | ⟨k, t, t', hmover, ht, -, hts, hm⟩ := move?_cases hm
  · cases hmover
  · cases hmover
    have hlt : n < l.threads.length := (List.getElem?_eq_some_iff.1 ht).1
    rw [hts, List.getElem?_set_self hlt, Option.some.injEq] at ht₁
    subst ht₁
    obtain ⟨hf, hending⟩ := CaptureThread.flag_of_move?_over hm hs
    rw [hf]
    cases panicked with
    | true => rfl
    | false => exact lowered_of_reachable hr n t ht (hending rfl)

/-! ## Sessions started since -/

theorem Reaches.length_threads_le (h : Reaches l l') : l.threads.length ≤ l'.threads.length :=
  h.keeps (I := fun k => l.threads.length ≤ k.threads.length) (fun _ _ hk => hk)
    (fun _ _ _ hk hm => Nat.le_trans hk (length_threads_le_of_move? hm)) (Nat.le_refl _)

/-- On the way from `l` to `l'` the caller `c` has raised the flag for a new session. -/
def RaisedSince (l : Listener β) (c : Nat) (l' : Listener β) : Prop :=
  ∃ (callback : Callback) (k k' : Listener β), Reaches l k ∧
    k.callers[c]? = some (.raising callback) ∧ k.move? (.caller c) = some k' ∧ Reaches k' l'

/-- Since `l` a new session was started: a caller has raised the flag for it, and a thread was
spawned, or the caller has still to see whether there will be one. -/
def StartedSince (l l' : Listener β) : Prop :=
  ∃ c, RaisedSince l c l' ∧ (l.threads.length < l'.threads.length ∨
    ∃ p, l'.callers[c]? = some p ∧ p.raised = true)

theorem RaisedSince.move {c : Nat} (h : RaisedSince l₁ c l) {mover : Mover}
    (hm : l.move? mover = some l') : RaisedSince l₁ c l' := by
  obtain ⟨callback, k, k', hk, hc, hraise, hk'⟩ := h
  exact ⟨callback, k, k', hk, hc, hraise, .move mover hk' hm⟩

theorem RaisedSince.request {c : Nat} (h : RaisedSince l₁ c l) (call : Call) :
    RaisedSince l₁ c (l.request call) := by
  obtain ⟨callback, k, k', hk, hc, hraise, hk'⟩ := h
  exact ⟨callback, k, k', hk, hc, hraise, .request call hk'⟩

/-- What is known since `l₁`: the flag is up only because it was so, or on account of a new session;
new threads belong to new sessions; and a caller that is about to spawn one has raised the flag. -/
structure Since (l₁ l : Listener β) : Prop where
  reaches : Reaches l₁ l
  flag : l.shared.flag = true → l₁.shared.flag = true ∨ StartedSince l₁ l
  threads : l₁.threads.length < l.threads.length → StartedSince l₁ l
  spawning : ∀ (c : Nat) (callback : Callback), l.callers[c]? = some (.spawning callback) →
    RaisedSince l₁ c l

theorem since_refl (h : ∀ (c : Nat) (callback : Callback),
    l₁.callers[c]? ≠ some (.spawning callback)) : Since l₁ l₁ :=
  ⟨.refl l₁, .inl, fun hlt => absurd hlt (Nat.lt_irrefl _), fun c callback hc =>
    absurd hc (h c callback)⟩

theorem StartedSince.request (h : StartedSince l₁ l) (call : Call) :
    StartedSince l₁ (l.request call) := by
  obtain ⟨c, hraised, hstate⟩ := h
  refine ⟨c, hraised.request call, hstate.imp_right ?_⟩
  rintro ⟨p, hc, hp⟩
  have hne : c ≠ l.callers.length := Nat.ne_of_lt (List.getElem?_eq_some_iff.1 hc).1
  exact ⟨p, by rw [getElem?_callers_request, if_neg hne, hc], hp⟩

theorem Since.request (h : Since l₁ l) (call : Call) : Since l₁ (l.request call) where
  reaches := .request call h.reaches
  flag hf := (h.flag hf).imp_right (·.request call)
  threads hlt := (h.threads hlt).request call
  spawning c callback hc := by
    rw [getElem?_callers_request] at hc
    split at hc
    · cases hc
    · exact (h.spawning c callback hc).request call

/-- A new session stays one, unless the caller who raised the flag for it was told that there will
be no thread; then the flag is down. -/
theorem StartedSince.move (h : StartedSince l₁ l) {mover : Mover}
    (hm : l.move? mover = some l') (hf : l'.shared.flag = true) : StartedSince l₁ l' := by
  obtain ⟨c, hraised, hlt | ⟨p, hc, hp⟩⟩ := h
  · exact ⟨c, hraised.move hm, .inl (Nat.lt_of_lt_of_le hlt (length_threads_le_of_move? hm))⟩
  · have hle : l₁.threads.length ≤ l.threads.length := by
      obtain ⟨-, k, k', hk, -, hraise, hk'⟩ := hraised
      exact Reaches.length_threads_le (.trans hk (.trans (.move _ (.refl k) hraise) hk'))
    by_cases hmover : mover = .caller c
    · subst hmover
      obtain ⟨p', hc', turn⟩ := turn_of_move? hm hc
      rcases turn.raised hp with hp' | hlt | hdown
      · exact ⟨c, hraised.move hm, .inr ⟨p', hc', hp'⟩⟩
      · exact ⟨c, hraised.move hm, .inl (Nat.lt_of_le_of_lt hle hlt)⟩
      · rw [hdown] at hf
        cases hf
    · exact ⟨c, hraised.move hm, .inr ⟨p, by rw [phase_of_others hm hmover, hc], hp⟩⟩

theorem raisedSince_of_raising (hr : Reaches l₁ l) {c : Nat} {callback : Callback}
    (hc : l.callers[c]? = some (.raising callback)) (hm : l.move? (.caller c) = some l') :
    RaisedSince l₁ c l' :=
  ⟨callback, l, l', hr, hc, hm, .refl l'⟩

theorem Since.move (h : Since l₁ l) {mover : Mover} (hm : l.move? mover = some l') :
    Since l₁ l' where
  reaches := .move mover h.reaches hm
  flag hf := by
    obtain ⟨c, p, p', rfl, hc, hcs, turn⟩ | ⟨n, t, t', rfl, ht, hcs, hts, hmt⟩ := move?_cases hm
    · cases hup : l.shared.flag with
      | true => exact (h.flag hup).imp_right (·.move hm hf)
      | false =>
        -- the flag was raised by this turn
        obtain ⟨callback, rfl⟩ := raised_of_turn turn hup hf
        obtain ⟨p'', hc', turn'⟩ := turn_of_move? hm hc
        refine .inr ⟨c, raisedSince_of_raising h.reaches hc hm, .inr ⟨p'', hc', ?_⟩⟩
        rw [turn'.spawning_of_raising]
        rfl
    · exact (h.flag ((CaptureThread.move?_frame hmt).flag hf)).imp_right (·.move hm hf)
  threads hlt := by
    rcases Nat.lt_or_ge l₁.threads.length l.threads.length with hbefore | hge
    · obtain ⟨c, hraised, -⟩ := h.threads hbefore
      exact ⟨c, hraised.move hm, .inl hlt⟩
    · -- the thread was spawned by this turn
      obtain ⟨c, callback, -, rfl, hc, -⟩ := spawner_of_move? hm (Nat.lt_of_le_of_lt hge hlt)
      exact ⟨c, (h.spawning c callback hc).move hm, .inl hlt⟩
  spawning c callback hc' := by
    by_cases hmover : mover = .caller c
    · subst hmover
      obtain ⟨k, p, p', hcaller, hc, hcs, turn⟩ | ⟨n, t, t', hcaller, -⟩ := move?_cases hm
      · cases hcaller
        have hlt : c < l.callers.length := (List.getElem?_eq_some_iff.1 hc).1
        rw [hcs, List.getElem?_set_self hlt, Option.some.injEq] at hc'
        subst hc'
        exact raisedSince_of_raising h.reaches (turn.raising_of_spawning ▸ hc) hm
      · cases hcaller
    · rw [phase_of_others hm hmover] at hc'
      exact (h.spawning c callback hc').move hm

theorem since_of_reaches (h : ∀ (c : Nat) (callback : Callback),
    l₁.callers[c]? ≠ some (.spawning callback)) (hr : Reaches l₁ l) : Since l₁ l :=
  hr.keeps (fun _ call hk => hk.request call) (fun _ _ _ hk hm => hk.move hm) (since_refl h)

/-! ## After the end of a thread -/

/-- Who asks whether the listener is listening is told at once whether the flag is up. -/
theorem move?_of_isListening {c : Nat} (hc : l.callers[c]? = some (.entered .isListening)) :
    ∃ l', l.move? (.caller c) = some l' ∧
      l'.callers[c]? = some (.replied (.listening l.shared.flag)) := by
  have hlt : c < l.callers.length := (List.getElem?_eq_some_iff.1 hc).1
  have hm : l.move? (.caller c) = some (l.reply c (.listening l.shared.flag)) := by
    simp only [move?, hc, Option.bind_eq_bind, Option.bind_some, moveCaller, enter]
  exact ⟨_, hm, List.getElem?_set_self hlt⟩

/-- The last move of a thread is made while all others have ended, and nobody is about to spawn a
new one. -/
theorem idle_of_end (hl : Coherent l) {n : Nat} (hm : l.move? (.thread n) = some l₁)
    {t₁ : CaptureThread} (ht₁ : l₁.threads[n]? = some t₁) (ho : t₁.isOver = true) :
    (∀ (k : Nat) (t : CaptureThread), l₁.threads[k]? = some t → t.isOver = true) ∧
      ∀ (c : Nat) (callback : Callback), l₁.callers[c]? ≠ some (.spawning callback) := by
  obtain ⟨c, p, p', hmover, -⟩ | ⟨k, t, t', hmover, ht, hcs, hts, hmt⟩ := move?_cases hm
  · cases hmover
  · cases hmover
    have hto : t.isOver = false := CaptureThread.isOver_of_move? hmt
    constructor
    · intro k u hu
      by_cases hk : k = n
      · rw [hk, ht₁, Option.some.injEq] at hu
        exact hu ▸ ho
      · rw [hts, List.getElem?_set_ne (Ne.symm hk)] at hu
        cases huo : u.isOver with
        | true => rfl
        | false => exact absurd (hl.eq_of_not_isOver hu ht huo hto) hk
    · intro c callback hc
      rw [hcs] at hc
      have hover := hl.isOver_of_watched hc rfl rfl ht
      rw [hto] at hover
      cases hover

/-- What is known of a listener after the last move of a thread, which leads from `l` to `l₁`. -/
structure AfterEnd (l l₁ : Listener β) (panicked : Bool) : Prop where
  /-- The flag is up if and only if the thread has panicked while it was up. -/
  flag : l₁.shared.flag = (panicked && l.shared.flag)
  /-- Whoever asks, at any time before a new session is started, is told at once whether the
  listener is listening; it is not, unless the thread has panicked while the flag was up. -/
  answer : ∀ (l₂ : Listener β) (c : Nat), Reaches l₁ l₂ → ¬ StartedSince l₁ l₂ →
    l₂.callers[c]? = some (.entered .isListening) →
    ∃ l₃ listening, l₂.move? (.caller c) = some l₃ ∧
      l₃.callers[c]? = some (.replied (.listening listening)) ∧
      (listening = true → panicked = true ∧ l.shared.flag = true)
  /-- A flag that is still up is lowered by nothing but a caller that ends the session, or has been
  refused a new one. -/
  lasting : ∀ (l₂ l₃ : Listener β) (mover : Mover), Reaches l₁ l₂ → ¬ StartedSince l₁ l₂ →
    l₂.shared.flag = true → l₂.move? mover = some l₃ → l₃.shared.flag = false →
    ∃ c p, mover = .caller c ∧ l₂.callers[c]? = some p ∧ p.lowers = true

/-- **Listening ends with the session, unless the callback panics**: after the last move of a thread
a listener is listening if and only if that move was a panic while it was listening, and this can
change only by a caller. -/
theorem listening_after_end {b : β} {h : Host} (hr : Reachable b h l) {n : Nat}
    (hm : l.move? (.thread n) = some l₁) {t₁ : CaptureThread} (ht₁ : l₁.threads[n]? = some t₁)
    {panicked : Bool} (hs : t₁.stage = .over panicked) : AfterEnd l l₁ panicked := by
  have hl : Coherent l := coherent_of_reachable hr
  have ho : t₁.isOver = true := by simp [CaptureThread.isOver, hs]
  have hflag := flag_of_end hr hm ht₁ hs
  obtain ⟨hover, hspawning⟩ := idle_of_end hl hm ht₁ ho
  constructor
  case flag => exact hflag
  case answer =>
    intro l₂ c hr₂ hnew hc
    obtain ⟨l₃, hm₃, hc₃⟩ := move?_of_isListening hc
    refine ⟨l₃, _, hm₃, hc₃, fun hup => ?_⟩
    rcases (since_of_reaches hspawning hr₂).flag hup with hup₁ | hstarted
    · rwa [hflag, Bool.and_eq_true] at hup₁
    · exact absurd hstarted hnew
  case lasting =>
    intro l₂ l₃ mover hr₂ hnew hup hm₃ hdown
    obtain ⟨c, p, p', rfl, hc, -, turn⟩ | ⟨k, u, u', rfl, hu, -, -, hmu⟩ := move?_cases hm₃
    · exact ⟨c, p, rfl, hc, turn.lowers hup hdown⟩
    · -- without a new session there are the old threads only, which do not move
      have hlt : k < l₁.threads.length := by
        refine Nat.lt_of_not_le fun hle => hnew ((since_of_reaches hspawning hr₂).threads ?_)
        exact Nat.lt_of_le_of_lt hle (List.getElem?_eq_some_iff.1 hu).1
      have hold := List.getElem?_eq_getElem hlt
      obtain ⟨u₂, hu₂, hi⟩ := hr₂.keeps_over hold (hover k _ hold)
      rw [hu, Option.some.injEq] at hu₂
      have huo := CaptureThread.isOver_of_move? hmu
      rw [hu₂, CaptureThread.isOver_eq_of_inner_eq hi, hover k _ hold] at huo
      cases huo

/-- The moves of a caller that starts a session, and of the thread of the session until it has
reported. -/
def movesToStarted : List Mover :=
  List.replicate 4 (.caller 0) ++ [.thread 0, .caller 0, .caller 0]

/-- A session that ends by itself at once: when its thread makes its last move, the listener is not
listening, and says so to everybody who asks before a new session is started. -/
theorem listening_after_end_shortLived :
    ∃ l l₁ : Listener ScriptedMechanism,
      (request { backend := {} } (.start (some {}))).follow
        (movesToStarted ++ List.replicate 3 (.thread 0)) = some l ∧
      l.move? (.thread 0) = some l₁ ∧ l₁.isOver 0 = true ∧ l₁.shared.flag = false ∧
      ∀ l₂ c, Reaches l₁ l₂ → ¬ StartedSince l₁ l₂ →
        l₂.callers[c]? = some (.entered .isListening) →
        ∃ l₃, l₂.move? (.caller c) = some l₃ ∧
          l₃.callers[c]? = some (.replied (.listening false)) := by
  have hl : (request { backend := ({} : ScriptedMechanism) } (.start (some {}))).follow
      (movesToStarted ++ List.replicate 3 (.thread 0)) = some _ := rfl
  have hr : Reachable ({} : ScriptedMechanism) {} _ :=
    .trans (.request _ (.refl _)) (reaches_of_follow _ hl)
  have hend := listening_after_end hr (n := 0) rfl rfl rfl
  refine ⟨_, _, hl, rfl, rfl, hend.flag, fun l₂ c hr₂ hnew hc => ?_⟩
  obtain ⟨l₃, listening, hm₃, hc₃, hlistening⟩ := hend.answer l₂ c hr₂ hnew hc
  cases listening with
  | false => exact ⟨l₃, hm₃, hc₃⟩
  | true => cases (hlistening rfl).1

/-- A listener that was told to start, with a callback that panics. -/
def panicking : Listener QueueMechanism :=
  request { backend := {} } (.start (some { react := fun _ _ => { panics := true } }))

/-- The moves of a caller that puts an event into the inbox, and of the thread until it is about to
panic in its callback. -/
def movesToPanic : List Mover :=
  .caller 1 :: List.replicate 3 (.thread 0)

/-- A session whose callback panicked: its thread has ended and nobody has started another one since
then, and yet who asks is told that the listener is listening. -/
theorem listening_after_panic :
    ∃ l l₁ l₂ : Listener QueueMechanism,
      Reachable panicking.backend {} l ∧ l.move? (.thread 0) = some l₁ ∧ l₁.isOver 0 = true ∧
      ¬ StartedSince l₁ l₁ ∧ l₁.callers[2]? = some (.entered .isListening) ∧
      l₁.move? (.caller 2) = some l₂ ∧
      l₂.callers[2]? = some (.replied (.listening true)) := by
  have hstarted : panicking.follow movesToStarted = some _ := rfl
  have hr : Reachable panicking.backend {} _ :=
    .trans (.request _ (.refl _)) (reaches_of_follow _ hstarted)
  have hpanic := (hr.request (.inject (.of .a ∅ true))).request .isListening
  have hr' := hpanic.trans (reaches_of_follow movesToPanic rfl)
  refine ⟨_, _, _, hr', rfl, rfl, ?_, rfl, rfl, rfl⟩
  rintro ⟨c, -, hlt | ⟨p, hc, hp⟩⟩
  · exact absurd hlt (Nat.lt_irrefl _)
  · match c with
    | 0 | 1 | 2 =>
      cases hc
      cases hp
    | c + 3 => cases hc

end Listener

end Keystroke
