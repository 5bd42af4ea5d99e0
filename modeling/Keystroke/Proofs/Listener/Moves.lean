import Keystroke.Listener.Run
import Keystroke.Proofs.Capture.Runs

/-!
# What a move can do

Every proof about the orders in which the moves of a listener happen has to know what a single move
changes. This is said here once: `Turn` lists the moves of a caller by what they do to the memory,
to the threads and to the caller's phase, and `move?_frame` says what a capture thread leaves alone.
What a `Turn` leaves open, the mechanism and what callers put into threads, is said by `Touches`.
Later proofs go by the cases of these and never look into the moves again.

## Main statements

- `turn_of_moveCaller`: each move of a caller is one of the listed ones.
- `touches_of_moveCaller`: what it does to the mechanism, and which thread it puts something into.
- `CaptureThread.move?_frame`: a capture thread never touches the lock or the session, and it never
  raises the flag.
- `Reaches.keeps`: what requests and moves keep holds in all states that can come to be.
-/

namespace Keystroke

/-! ## Callers -/

/-- Whether a call has to lock the session. -/
def Call.locks : Call → Bool
  | .start (some _) | .stop => true
  | _ => false

/-- The callback of the session that is to begin when the old one has ended. -/
def Purpose.callback? : Purpose → Option Callback
  | .restart callback => some callback
  | .stop => none

/-- The callback that a caller at the phase has brought and that has no thread yet. -/
def Phase.callback? : Phase → Option Callback
  | .entered (.start callback) => callback
  | .looking callback | .probing callback | .raising callback | .spawning callback => some callback
  | .clearing _ purpose | .waking _ purpose | .joining _ purpose => purpose.callback?
  | _ => none

namespace Listener

variable {β : Type}

/-- The threads differ at most in what others put into them. -/
def Undisturbed (ts ts' : List CaptureThread) : Prop :=
  ts'.map (·.inner) = ts.map (·.inner)

/-- Whether the thread with a given number has ended or never began. -/
def Ended (ts : List CaptureThread) (n : Nat) : Prop := ts[n]?.all (·.isOver) = true

/-- A move of the caller `c`: what it makes of the memory `m` and the threads `ts`, and from which
phase to which it leads. -/
inductive Turn (c : Nat) (m : Shared) (ts : List CaptureThread) :
    Phase → Shared → List CaptureThread → Phase → Prop where
  -- entering
  | answer {call ts'} (hcall : call.locks = false) (host : Host) (hts : Undisturbed ts ts')
      (r : Reply) : Turn c m ts (.entered call) { m with host } ts' (.replied r)
  | lock (free : m.holder = none) (callback) : Turn c m ts (.entered (.start (some callback)))
      { m with holder := some c } ts (.looking callback)
  | take (free : m.holder = none) {s} (hs : m.session = some s) : Turn c m ts (.entered .stop)
      { m with holder := some c, session := none } ts (.clearing s .stop)
  | idle (free : m.holder = none) (hs : m.session = none) : Turn c m ts (.entered .stop)
      { m with holder := some c } ts .lowering
  -- looking for a session
  | lookNone (hs : m.session = none) (callback) : Turn c m ts (.looking callback)
      m ts (.raising callback)
  | lookLive {s} (hs : m.session = some s) (hf : m.flag = true) (callback) :
      Turn c m ts (.looking callback) m ts (.probing callback)
  | lookStale {s} (hs : m.session = some s) (hf : m.flag = false) (callback) :
      Turn c m ts (.looking callback) { m with session := none } ts
        (.clearing s (.restart callback))
  | probeNone (hs : m.session = none) (callback) : Turn c m ts (.probing callback)
      m ts (.raising callback)
  | probeStale {s} (hs : m.session = some s) (ended : Ended ts s.thread) (callback) :
      Turn c m ts (.probing callback) { m with session := none } ts
        (.clearing s (.restart callback))
  | keep {s} (hs : m.session = some s) (live : ¬ Ended ts s.thread) (callback) :
      Turn c m ts (.probing callback) { m with holder := none } ts (.replied (.started (.ok ())))
  -- ending a session
  | clear (s purpose) : Turn c m ts (.clearing s purpose) { m with flag := false } ts
      (.waking s purpose)
  | wake {ts'} (host : Host) (hts : Undisturbed ts ts') (s purpose) :
      Turn c m ts (.waking s purpose) { m with host } ts' (.joining s purpose)
  | joinRestart {s} (ended : Ended ts s.thread) (callback) :
      Turn c m ts (.joining s (.restart callback)) m ts (.raising callback)
  | joinStop {s} (ended : Ended ts s.thread) : Turn c m ts (.joining s .stop) m ts .lowering
  -- beginning a session
  | raise (callback) : Turn c m ts (.raising callback) { m with flag := true } ts
      (.spawning callback)
  | refused (callback e) : Turn c m ts (.spawning callback) m ts (.failing e)
  | spawn (callback program) : Turn c m ts (.spawning callback) m
      (ts ++ [{ stage := .body program, callback }]) (.awaiting ts.length)
  | absent {n} (hn : ts[n]? = none) : Turn c m ts (.awaiting n) m ts (.failing .silentStartup)
  | ready {n t waker} (hn : ts[n]? = some t) (hr : t.report = some (.ok waker)) :
      Turn c m ts (.awaiting n) m ts (.installing n waker)
  | failed {n t e} (hn : ts[n]? = some t) (hr : t.report = some (.error e)) :
      Turn c m ts (.awaiting n) m ts (.dropping n e)
  | silent {n t} (hn : ts[n]? = some t) (hr : t.report = none) (ha : t.isAlive = false) :
      Turn c m ts (.awaiting n) m ts (.dropping n .silentStartup)
  | drop (n e) : Turn c m ts (.dropping n e) { m with flag := false } ts (.collecting n e)
  | collect {n} (ended : Ended ts n) (e) : Turn c m ts (.collecting n e) m ts (.failing e)
  -- leaving
  | fail (host : Host) (e) : Turn c m ts (.failing e)
      { m with flag := false, holder := none, host } ts (.replied (.started (.error e)))
  | install (n waker) : Turn c m ts (.installing n waker)
      { m with session := some ⟨n, waker⟩, holder := none } ts (.replied (.started (.ok ())))
  | lower : Turn c m ts .lowering { m with flag := false, holder := none } ts (.replied .stopped)

theorem Undisturbed.refl (ts : List CaptureThread) : Undisturbed ts ts := rfl

theorem map_set_of_eq {α γ : Type} {f : α → γ} {xs : List α} {n : Nat} {x y : α}
    (hx : xs[n]? = some x) (h : f y = f x) : (xs.set n y).map f = xs.map f := by
  have hn : (xs.map f)[n]? = some (f x) := by simp [hx]
  obtain ⟨hlt, hget⟩ := List.getElem?_eq_some_iff.1 hn
  rw [List.map_set, h, ← hget, List.set_getElem_self]

theorem undisturbed_set {ts : List CaptureThread} {n : Nat} {t t' : CaptureThread}
    (ht : ts[n]? = some t) (h : t'.inner = t.inner) : Undisturbed ts (ts.set n t') :=
  map_set_of_eq ht h

/-- A thread before others put something into some threads, and the same thread after it. -/
theorem Undisturbed.getElem? {ts ts' : List CaptureThread} (h : Undisturbed ts ts') (n : Nat) :
    ts'[n]?.map (·.inner) = ts[n]?.map (·.inner) := by
  rw [← List.getElem?_map, ← List.getElem?_map, h]

/-- `Ended` is what a caller asks about a thread. -/
theorem isOver_iff {l : Listener β} {n : Nat} : l.isOver n = true ↔ Ended l.threads n := Iff.rfl

variable [CaptureMechanism β] {l l' : Listener β} {c : Nat}

theorem turn_of_enter {call : Call} (h : l.enter c call = some l') :
    ∃ p, l'.callers = l.callers.set c p ∧
      Turn c l.shared l.threads (.entered call) l'.shared l'.threads p := by
  match call with
  | .start none =>
    -- refused before the lock is asked for
    cases h
    exact ⟨_, rfl, .answer rfl _ (.refl _) _⟩
  | .start (some callback) =>
    simp only [enter] at h
    split at h
    next free => cases h; exact ⟨_, rfl, .lock (Option.isNone_iff_eq_none.1 free) callback⟩
    next => cases h
  | .stop =>
    simp only [enter] at h
    split at h
    next free =>
      have free := Option.isNone_iff_eq_none.1 free
      split at h
      next s hs => cases h; exact ⟨_, rfl, .take free hs⟩
      next hs => cases h; exact ⟨_, rfl, .idle free hs⟩
    next => cases h
  | .isListening => cases h; exact ⟨_, rfl, .answer rfl l.shared.host (.refl _) _⟩
  | .inject event =>
    simp only [enter] at h
    split at h
    next => cases h; exact ⟨_, rfl, .answer rfl l.shared.host (.refl _) _⟩
    next n _ =>
      split at h
      next => cases h; exact ⟨_, rfl, .answer rfl l.shared.host (.refl _) _⟩
      next t ht =>
        split at h <;> cases h
        · -- the inbox is not part of what is inside a thread
          refine ⟨_, rfl, .answer rfl l.shared.host ?_ _⟩
          exact undisturbed_set ht rfl
        · exact ⟨_, rfl, .answer rfl l.shared.host (.refl _) _⟩
  | .setFailing failing => cases h; exact ⟨_, rfl, .answer rfl l.shared.host (.refl _) _⟩

/-- Each move of a caller is one of the listed ones. -/
theorem turn_of_moveCaller {p : Phase} (h : l.moveCaller c p = some l') :
    ∃ p', l'.callers = l.callers.set c p' ∧
      Turn c l.shared l.threads p l'.shared l'.threads p' := by
  cases p with
  | entered call => exact turn_of_enter h
  | looking callback =>
    simp only [moveCaller] at h
    split at h
    next hs => cases h; exact ⟨_, rfl, .lookNone hs callback⟩
    next s hs =>
      split at h
      next hf => cases h; exact ⟨_, rfl, .lookLive hs hf callback⟩
      next hf => cases h; exact ⟨_, rfl, .lookStale hs (Bool.eq_false_iff.2 hf) callback⟩
  | probing callback =>
    simp only [moveCaller] at h
    split at h
    next hs => cases h; exact ⟨_, rfl, .probeNone hs callback⟩
    next s hs =>
      split at h
      next ended => cases h; exact ⟨_, rfl, .probeStale hs (isOver_iff.1 ended) callback⟩
      next live => cases h; exact ⟨_, rfl, .keep hs (mt isOver_iff.2 live) callback⟩
  | clearing s purpose => cases h; exact ⟨_, rfl, .clear s purpose⟩
  | waking s purpose =>
    simp only [moveCaller] at h
    split at h
    next => cases h; exact ⟨_, rfl, .wake l.shared.host (.refl _) s purpose⟩
    next trace _ =>
      cases h
      cases ht : l.threads[s.thread]? with
      | none => exact ⟨_, rfl, .wake (l.shared.host.record trace) (.refl _) s purpose⟩
      | some t =>
        -- nor is the request to quit
        refine ⟨_, rfl, .wake (l.shared.host.record trace) ?_ s purpose⟩
        exact undisturbed_set ht rfl
  | joining s purpose =>
    simp only [moveCaller] at h
    split at h
    next ended =>
      split at h <;> cases h
      · exact ⟨_, rfl, .joinRestart (isOver_iff.1 ended) _⟩
      · exact ⟨_, rfl, .joinStop (isOver_iff.1 ended)⟩
    next => cases h
  | raising callback => cases h; exact ⟨_, rfl, .raise callback⟩
  | spawning callback =>
    simp only [moveCaller] at h
    split at h
    next e _ _ => cases h; exact ⟨_, rfl, .refused callback e⟩
    next program _ _ => cases h; exact ⟨_, rfl, .spawn callback program⟩
  | awaiting n =>
    simp only [moveCaller] at h
    split at h
    next hn => cases h; exact ⟨_, rfl, .absent hn⟩
    next t hn =>
      split at h
      next waker hr => cases h; exact ⟨_, rfl, .ready hn hr⟩
      next e hr => cases h; exact ⟨_, rfl, .failed hn hr⟩
      next hr =>
        split at h <;> cases h
        next ha => exact ⟨_, rfl, .silent hn hr (Bool.eq_false_iff.2 ha)⟩
  | dropping n e => cases h; exact ⟨_, rfl, .drop n e⟩
  | collecting n e =>
    simp only [moveCaller] at h
    split at h <;> cases h
    next ended => exact ⟨_, rfl, .collect (isOver_iff.1 ended) e⟩
  | failing e => cases h; exact ⟨_, rfl, .fail _ e⟩
  | installing n waker => cases h; exact ⟨_, rfl, .install n waker⟩
  | lowering => cases h; exact ⟨_, rfl, .lower⟩
  | replied r => cases h

/-- A move of a caller at a phase: what it makes of the mechanism `b` and of the threads `ts`. -/
inductive Touches (b : β) (ts : List CaptureThread) : Phase → β → List CaptureThread → Prop where
  | nothing (p : Phase) : Touches b ts p b ts
  | inject {n t} (ht : ts[n]? = some t) (event : KeyEvent) : Touches b ts (.entered (.inject event))
      b (ts.set n { t with inbox := t.inbox ++ [event] })
  | setFailing (failing : Bool) : Touches b ts (.entered (.setFailing failing))
      (CaptureMechanism.setFailing failing b) ts
  | wake {s t} (ht : ts[s.thread]? = some t) (purpose : Purpose) : Touches b ts (.waking s purpose)
      b (ts.set s.thread { t with quit := true })
  | refused {e b'} (hopen : CaptureMechanism.openSession b = (.error e, b'))
      (callback : Callback) : Touches b ts (.spawning callback) b' ts
  | spawn {program b'} (hopen : CaptureMechanism.openSession b = (.ok program, b'))
      (callback : Callback) : Touches b ts (.spawning callback) b'
      (ts ++ [{ stage := .body program, callback }])
  | install (n : Nat) (waker : Option Entry) : Touches b ts (.installing n waker)
      (CaptureMechanism.install n b) ts

theorem touches_of_enter {call : Call} (h : l.enter c call = some l') :
    Touches l.backend l.threads (.entered call) l'.backend l'.threads := by
  match call with
  | .start none | .isListening =>
    cases h
    exact .nothing _
  | .start (some callback) =>
    simp only [enter] at h
    split at h <;> cases h
    exact .nothing _
  | .stop =>
    simp only [enter] at h
    split at h
    · split at h <;> cases h <;> exact .nothing _
    · cases h
  | .inject event =>
    simp only [enter] at h
    split at h
    · cases h
      exact .nothing _
    · split at h
      · cases h
        exact .nothing _
      next t ht =>
        split at h <;> cases h
        · exact .inject ht event
        · exact .nothing _
  | .setFailing failing =>
    cases h
    exact .setFailing failing

theorem touches_of_moveCaller {p : Phase} (h : l.moveCaller c p = some l') :
    Touches l.backend l.threads p l'.backend l'.threads := by
  cases p with
  | entered call => exact touches_of_enter h
  | looking | probing =>
    simp only [moveCaller] at h
    split at h
    · cases h
      exact .nothing _
    · split at h <;> cases h <;> exact .nothing _
  | waking s purpose =>
    simp only [moveCaller] at h
    split at h <;> cases h
    · exact .nothing _
    · cases ht : l.threads[s.thread]? with
      | none => exact .nothing _
      | some t => exact .wake ht purpose
  | joining s purpose =>
    simp only [moveCaller] at h
    split at h
    · split at h <;> cases h <;> exact .nothing _
    · cases h
  | spawning callback =>
    simp only [moveCaller] at h
    split at h
    next hopen => cases h; exact .refused hopen callback
    next hopen => cases h; exact .spawn hopen callback
  | awaiting n =>
    simp only [moveCaller] at h
    split at h
    · cases h
      exact .nothing _
    · split at h
      · cases h
        exact .nothing _
      · cases h
        exact .nothing _
      · split at h <;> cases h
        exact .nothing _
  | collecting n e =>
    simp only [moveCaller] at h
    split at h <;> cases h
    exact .nothing _
  | installing n waker =>
    cases h
    exact .install n waker
  | replied r => cases h
  | clearing | raising | dropping | failing | lowering =>
    cases h
    exact .nothing _

/-! ## All moves -/

/-- A move is either a turn of a caller, or a move of a thread, which no caller takes part in. -/
theorem move?_cases {mover : Mover} (h : l.move? mover = some l') :
    (∃ c p p', mover = .caller c ∧ l.callers[c]? = some p ∧ l'.callers = l.callers.set c p' ∧
      Turn c l.shared l.threads p l'.shared l'.threads p') ∨
    ∃ n t t', mover = .thread n ∧ l.threads[n]? = some t ∧ l'.callers = l.callers ∧
      l'.threads = l.threads.set n t' ∧ t.move? n l.shared = some (l'.shared, t') := by
  cases mover with
  | caller c =>
    simp only [move?, Option.bind_eq_bind, Option.bind_eq_some_iff] at h
    obtain ⟨p, hc, hm⟩ := h
    obtain ⟨p', hcs, turn⟩ := turn_of_moveCaller hm
    exact .inl ⟨c, p, p', rfl, hc, hcs, turn⟩
  | thread n =>
    simp only [move?] at h
    split at h
    next => cases h
    next t ht =>
      obtain ⟨⟨m, t'⟩, hm, rfl⟩ := Option.map_eq_some_iff.1 h
      exact .inr ⟨n, t, t', rfl, ht, rfl, rfl, hm⟩

/-- The listener after some moves in order, if all of them can be made. -/
def follow (l : Listener β) : List Mover → Option (Listener β)
  | [] => some l
  | mover :: rest => (l.move? mover).bind (follow · rest)

theorem reaches_of_follow (movers : List Mover) (h : l.follow movers = some l') : Reaches l l' := by
  induction movers generalizing l with
  | nil => cases h; exact .refl _
  | cons mover rest ih =>
    obtain ⟨k, hm, hk⟩ := Option.bind_eq_some_iff.1 h
    exact Reaches.trans (.move mover (.refl l) hm) (ih hk)

/-- What requests and moves keep holds in all states that can come to be. -/
theorem Reaches.keeps {I : Listener β → Prop} (hreq : ∀ l call, I l → I (l.request call))
    (hmove : ∀ l l' mover, I l → l.move? mover = some l' → I l') (h : Reaches l l') (hl : I l) :
    I l' := by
  induction h with
  | refl => exact hl
  | request call _ ih => exact hreq _ call ih
  | move mover _ hm ih => exact hmove _ _ mover ih hm

/-- Every thread that a turn of a caller leaves behind was there before, unless the turn is the
spawning of it. -/
theorem Turn.thread {m m' : Shared} {ts ts' : List CaptureThread} {p p' : Phase}
    (turn : Turn c m ts p m' ts' p') {n : Nat} {t' : CaptureThread} (ht : ts'[n]? = some t') :
    (∃ t, ts[n]? = some t ∧ t'.inner = t.inner) ∨
      (∃ callback, p = .spawning callback) ∧ n = ts.length ∧ p' = .awaiting n := by
  have same : Undisturbed ts ts' → ∃ t, ts[n]? = some t ∧ t'.inner = t.inner := by
    intro hu
    have hn := hu.getElem? n
    rw [ht, Option.map_some, eq_comm, Option.map_eq_some_iff] at hn
    obtain ⟨t, hts, hinner⟩ := hn
    exact ⟨t, hts, hinner.symm⟩
  cases turn with
  | answer _ _ hts _ => exact .inl (same hts)
  | wake _ hts => exact .inl (same hts)
  | spawn callback program =>
    -- the new thread comes last, and the others keep their places
    rcases Nat.lt_trichotomy n ts.length with hlt | rfl | hgt
    · rw [List.getElem?_append_left hlt] at ht
      exact .inl ⟨t', ht, rfl⟩
    · exact .inr ⟨⟨callback, rfl⟩, rfl, rfl⟩
    · rw [List.getElem?_eq_none (by simpa [Nat.succ_le_iff] using hgt)] at ht
      cases ht
  | _ => exact .inl (same (.refl ts))

/-- A turn of a caller changes no thread but for what others put into it. -/
theorem Turn.keeps_thread {m m' : Shared} {ts ts' : List CaptureThread} {p p' : Phase}
    (turn : Turn c m ts p m' ts' p') {n : Nat} {t : CaptureThread} (ht : ts[n]? = some t) :
    ∃ t', ts'[n]? = some t' ∧ t'.inner = t.inner := by
  have same : Undisturbed ts ts' → ∃ t', ts'[n]? = some t' ∧ t'.inner = t.inner := by
    intro hu
    have hn := hu.getElem? n
    rwa [ht, Option.map_some, Option.map_eq_some_iff] at hn
  cases turn with
  | answer _ _ hts _ => exact same hts
  | wake _ hts => exact same hts
  | spawn callback program =>
    obtain ⟨hlt, -⟩ := List.getElem?_eq_some_iff.1 ht
    exact ⟨t, by rw [List.getElem?_append_left hlt, ht], rfl⟩
  | _ => exact same (.refl ts)

/-- A turn brings no callback but the one that was there. -/
theorem Turn.callback? {m m' : Shared} {ts ts' : List CaptureThread} {p p' : Phase}
    (turn : Turn c m ts p m' ts' p') {callback : Callback}
    (h : p'.callback? = some callback) : p.callback? = some callback := by
  cases turn <;> simp_all [Phase.callback?, Purpose.callback?]

theorem Turn.length_le {m m' : Shared} {ts ts' : List CaptureThread} {p p' : Phase}
    (turn : Turn c m ts p m' ts' p') : ts.length ≤ ts'.length := by
  refine Nat.le_of_not_lt fun hlt => ?_
  obtain ⟨t', ht', -⟩ := turn.keeps_thread (List.getElem?_eq_getElem hlt)
  rw [List.getElem?_eq_none (Nat.le_refl _)] at ht'
  cases ht'

/-- A thread that has ended stays as it is, whatever moves. -/
theorem move?_keeps_over {mover : Mover} (h : l.move? mover = some l') {n : Nat}
    {t : CaptureThread} (ht : l.threads[n]? = some t) (ho : t.isOver = true) :
    ∃ t', l'.threads[n]? = some t' ∧ t'.inner = t.inner := by
  obtain ⟨c, p, p', rfl, hc, hcs, turn⟩ | ⟨k, u, u', rfl, hk, -, hts, hm⟩ := move?_cases h
  · exact turn.keeps_thread ht
  · -- the thread that moves is another one, since this one has no move
    have hne : k ≠ n := by
      rintro rfl
      rw [hk, Option.some.injEq] at ht
      have := CaptureThread.isOver_of_move? hm
      rw [ht, ho] at this
      cases this
    exact ⟨t, by rw [hts, List.getElem?_set_ne hne, ht], rfl⟩

/-- A thread that has ended stays as it is in all states that can come to be. -/
theorem Reaches.keeps_over (h : Reaches l l') {n : Nat} {t : CaptureThread}
    (ht : l.threads[n]? = some t) (ho : t.isOver = true) :
    ∃ t', l'.threads[n]? = some t' ∧ t'.inner = t.inner := by
  refine h.keeps (I := fun k => ∃ u, k.threads[n]? = some u ∧ u.inner = t.inner)
    (fun _ _ hk => hk) (fun k k' mover hk hm => ?_) ⟨t, ht, rfl⟩
  obtain ⟨u, hu, hinner⟩ := hk
  obtain ⟨u', hu', hinner'⟩ :=
    move?_keeps_over hm hu (by rw [CaptureThread.isOver_eq_of_inner_eq hinner, ho])
  exact ⟨u', hu', hinner'.trans hinner⟩

end Listener

end Keystroke
