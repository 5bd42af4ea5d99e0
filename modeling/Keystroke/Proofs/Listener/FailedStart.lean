import Keystroke.Proofs.Listener.Handshake

/-!
# Starts that fail

If a mechanism cannot capture, each of its sessions ends as soon as its thread has said why. A
listener over such a mechanism never has a session, whatever its callers do and in whatever order
all of them and the threads move. Every start is told the reason; it may have to wait for other
callers and for its thread, but nothing that happens in between can keep it from its answer.

## Main statements

- `barren_of_reachable`: the states of a listener over such a mechanism.
- `exists_replied`: who holds the lock can be brought to his answer, whatever he has asked for.
- `start_in_vain`: what comes of a start.
-/

namespace Keystroke

/-- All sessions of the mechanism fail for the same reason, and it stays like that. -/
structure Refusing {β : Type} [CaptureMechanism β] (b : β) (e : CaptureError) : Prop where
  opens : CaptureMechanism.openSession b = (.ok (.report (.error e) (.done ())), b)
  installs : ∀ n, CaptureMechanism.install n b = b
  sets : ∀ failing, CaptureMechanism.setFailing failing b = b

/-! ## Threads -/

/-- Where a thread is that reports an error and ends, and what it has reported by then. -/
inductive Failing (e : CaptureError) : Stage → Option Answer → Prop where
  | beginning : Failing e (.body (.report (.error e) (.done ()))) none
  | done : Failing e (.body (.done ())) (some (.error e))
  | leaving : Failing e .leaving (some (.error e))
  | ending : Failing e .ending (some (.error e))
  | ended : Failing e (.over false) (some (.error e))

namespace CaptureThread

variable {e : CaptureError} {self : Nat} {m m' : Shared} {t t' : CaptureThread}

theorem failing_of_move? (hf : Failing e t.stage t.report)
    (hm : t.move? self m = some (m', t')) : Failing e t'.stage t'.report := by
  generalize hstage : t.stage = stage at hf
  generalize hreport : t.report = report at hf
  cases hf <;> simp only [move?, hstage] at hm
  case beginning =>
    cases hm
    simp only [hreport]
    exact .done
  case done =>
    cases hm
    simp only [goto, hreport]
    exact .leaving
  case leaving =>
    cases hm
    simp only [goto, hreport]
    exact .ending
  case ending =>
    cases hm
    simp only [goto, hreport]
    exact .ended
  case ended => cases hm

/-- Nothing holds up such a thread. -/
theorem exists_move_of_failing (hf : Failing e t.stage t.report) (ho : t.isOver = false)
    (self : Nat) (m : Shared) : ∃ m' t', t.move? self m = some (m', t') := by
  generalize hstage : t.stage = stage at hf
  generalize t.report = report at hf
  cases hf with
  | ended => simp [isOver, hstage] at ho
  | _ =>
    simp only [move?, hstage]
    exact ⟨_, _, rfl⟩

/-- It never reports that it captures. -/
theorem not_ok_of_failing (hf : Failing e t.stage t.report) (waker : Option Entry) :
    t.report ≠ some (.ok waker) := by
  intro hr
  rw [hr] at hf
  generalize t.stage = stage at hf
  cases hf

theorem eq_of_failing {e' : CaptureError} (hf : Failing e t.stage t.report)
    (hr : t.report = some (.error e')) : e' = e := by
  rw [hr] at hf
  generalize t.stage = stage at hf
  cases hf <;> rfl

/-- As long as it has not reported its program goes on. -/
theorem isAlive_of_failing (hf : Failing e t.stage t.report) (hr : t.report = none) :
    t.isAlive = true := by
  generalize hstage : t.stage = stage at hf
  rw [hr] at hf
  cases hf
  simp [isAlive, hstage]

theorem failing_of_inner_eq (hf : Failing e t.stage t.report) (hi : t'.inner = t.inner) :
    Failing e t'.stage t'.report := by
  rwa [stage_eq_of_inner_eq hi, report_eq_of_inner_eq hi]

end CaptureThread

/-! ## Callers -/

/-- Where a caller is that wants to start a session, and is told why there is none. -/
inductive Phase.Starting (e : CaptureError) : Phase → Prop where
  | entered (callback : Callback) : Starting e (.entered (.start (some callback)))
  | looking (callback : Callback) : Starting e (.looking callback)
  | raising (callback : Callback) : Starting e (.raising callback)
  | spawning (callback : Callback) : Starting e (.spawning callback)
  | awaiting (n : Nat) : Starting e (.awaiting n)
  | dropping (n : Nat) : Starting e (.dropping n e)
  | collecting (n : Nat) : Starting e (.collecting n e)
  | failing : Starting e (.failing e)
  | replied : Starting e (.replied (.started (.error e)))

/-- Where any caller is as long as there is no session. -/
inductive Phase.Vain (e : CaptureError) : Phase → Prop where
  | starting {p : Phase} (h : p.Starting e) : Vain e p
  | entered {call : Call} (h : ∀ callback, call ≠ .start (some callback)) : Vain e (.entered call)
  | lowering : Vain e .lowering
  | replied (r : Reply) : Vain e (.replied r)

namespace Listener

variable {e : CaptureError}

section Turn

variable {c : Nat} {m m' : Shared} {ts ts' : List CaptureThread} {p p' : Phase}

theorem Turn.starting (turn : Turn c m ts p m' ts' p') (hs : m.session = none)
    (hts : ∀ t ∈ ts, Failing e t.stage t.report)
    (hknown : ∀ n, p.watched none = some n → n < ts.length)
    (hspawned : ∀ callback, p = .spawning callback → ts.length < ts'.length) (hp : p.Starting e) :
    p'.Starting e ∧ m'.session = none := by
  cases hp with
  | entered callback =>
    cases turn with
    | answer hcall => cases hcall
    | lock => exact ⟨.looking callback, hs⟩
  | looking callback =>
    cases turn with
    | lookNone => exact ⟨.raising callback, hs⟩
    | lookLive hsome | lookStale hsome =>
      rw [hs] at hsome
      cases hsome
  | raising callback =>
    cases turn
    exact ⟨.spawning callback, hs⟩
  | spawning callback =>
    cases turn with
    | refused => exact absurd (hspawned callback rfl) (Nat.lt_irrefl _)
    | spawn => exact ⟨.awaiting _, hs⟩
  | awaiting n =>
    cases turn with
    | absent hn =>
      have hlt := hknown n rfl
      rw [List.getElem?_eq_none_iff] at hn
      omega
    | ready hn hr =>
      exact absurd hr (CaptureThread.not_ok_of_failing (hts _ (List.mem_of_getElem? hn)) _)
    | failed hn hr =>
      obtain rfl := CaptureThread.eq_of_failing (hts _ (List.mem_of_getElem? hn)) hr
      exact ⟨.dropping n, hs⟩
    | silent hn hr ha =>
      have halive := CaptureThread.isAlive_of_failing (hts _ (List.mem_of_getElem? hn)) hr
      rw [ha] at halive
      cases halive
  | dropping n =>
    cases turn
    exact ⟨.collecting n, hs⟩
  | collecting n =>
    cases turn
    exact ⟨.failing, hs⟩
  | failing =>
    cases turn
    exact ⟨.replied, hs⟩
  | replied => cases turn

/-- Without a session there is none to be ended either. -/
theorem Turn.vain (turn : Turn c m ts p m' ts' p') (hs : m.session = none)
    (hts : ∀ t ∈ ts, Failing e t.stage t.report)
    (hknown : ∀ n, p.watched none = some n → n < ts.length)
    (hspawned : ∀ callback, p = .spawning callback → ts.length < ts'.length) (hp : p.Vain e) :
    p'.Vain e ∧ m'.session = none := by
  cases hp with
  | starting hp =>
    obtain ⟨hp', hs'⟩ := turn.starting hs hts hknown hspawned hp
    exact ⟨.starting hp', hs'⟩
  | entered hcall =>
    cases turn with
    | answer => exact ⟨.replied _, hs⟩
    | lock _ callback => exact absurd rfl (hcall callback)
    | take _ hsome =>
      rw [hs] at hsome
      cases hsome
    | idle => exact ⟨.lowering, hs⟩
  | lowering =>
    cases turn
    exact ⟨.replied _, hs⟩
  | replied => cases turn

/-- A caller that wants to start a session is told something only when it has lowered the flag. -/
theorem Turn.eq_failing {r : Reply} (turn : Turn c m ts p m' ts' (.replied r))
    (hp : p.Starting e) : p = .failing e := by
  cases hp with
  | entered =>
    cases turn with
    | answer hcall => cases hcall
  | failing => rfl
  | _ => cases turn

end Turn

variable {β : Type} {b : β} {l l' : Listener β}

/-- A state of a listener over a mechanism that cannot capture. -/
structure Barren (b : β) (e : CaptureError) (l : Listener β) : Prop where
  backend : l.backend = b
  session : l.shared.session = none
  threads : ∀ t ∈ l.threads, Failing e t.stage t.report
  callers : ∀ p ∈ l.callers, p.Vain e

theorem barren_init (b : β) (e : CaptureError) (h : Host) :
    Barren b e { backend := b, shared := { host := h } } where
  backend := rfl
  session := rfl
  threads := List.forall_mem_nil _
  callers := List.forall_mem_nil _

theorem barren_request (hl : Barren b e l) (call : Call) : Barren b e (l.request call) where
  backend := hl.backend
  session := hl.session
  threads := hl.threads
  callers := by
    refine List.forall_mem_append.2 ⟨hl.callers, List.forall_mem_singleton.2 ?_⟩
    -- a caller that has only come wants to start a session, or it does not
    by_cases hcall : ∃ callback, call = .start (some callback)
    · obtain ⟨callback, rfl⟩ := hcall
      exact .starting (.entered callback)
    · exact .entered fun callback heq => hcall ⟨callback, heq⟩

theorem Barren.withCaller (hl : Barren b e l) (c : Nat) {p : Phase} (hp : p.Vain e) :
    Barren b e (l.withCaller c p) where
  backend := hl.backend
  session := hl.session
  threads := hl.threads
  callers q hq := by
    rcases List.mem_or_eq_of_mem_set hq with hq | rfl
    · exact hl.callers q hq
    · exact hp

/-- A thread that has just been spawned is going to fail. -/
theorem Barren.spawn (hl : Barren b e l) (callback : Callback) :
    Barren b e (l.spawn (.report (.error e) (.done ())) callback) where
  backend := hl.backend
  session := hl.session
  threads := List.forall_mem_append.2 ⟨hl.threads, List.forall_mem_singleton.2 .beginning⟩
  callers := hl.callers

variable [CaptureMechanism β]

/-- Whatever a caller does to a mechanism that cannot capture, it stays like that. -/
theorem Touches.backend_eq {b' : β} {ts ts' : List CaptureThread} {p : Phase}
    (touches : Touches b ts p b' ts') (hb : Refusing b e) : b' = b := by
  cases touches with
  | nothing | inject | wake => rfl
  | setFailing failing => exact hb.sets failing
  | refused hopen =>
    rw [hb.opens] at hopen
    cases hopen
  | spawn hopen =>
    rw [hb.opens] at hopen
    cases hopen
    rfl
  | install n => exact hb.installs n

/-- A caller that spawns a thread gets one that fails. -/
theorem move?_of_spawning (hb : Refusing l.backend e) {c : Nat} {callback : Callback}
    (hc : l.callers[c]? = some (.spawning callback)) :
    l.move? (.caller c) = some ((l.spawn (.report (.error e) (.done ())) callback).withCaller c
      (.awaiting l.threads.length)) := by
  simp only [move?, hc, Option.bind_eq_bind, Option.bind_some, moveCaller, hb.opens]

/-- A move of a thread has nothing to do with the mechanism. -/
theorem backend_of_move?_thread {n : Nat} (hm : l.move? (.thread n) = some l') :
    l'.backend = l.backend := by
  simp only [move?] at hm
  split at hm
  · cases hm
  · obtain ⟨⟨m, t⟩, -, rfl⟩ := Option.map_eq_some_iff.1 hm
    rfl

theorem barren_of_moveCaller (hb : Refusing b e) (hl : Barren b e l) (hk : Known l) {c : Nat}
    (hm : l.move? (.caller c) = some l') : Barren b e l' := by
  obtain ⟨p, p', hc, -, hcs, hmove, turn, -⟩ := phases_of_move? hm
  have hbackend : l'.backend = b :=
    ((touches_of_moveCaller hmove).backend_eq (hl.backend ▸ hb)).trans hl.backend
  by_cases hspawning : ∃ callback, p = .spawning callback
  · obtain ⟨callback, rfl⟩ := hspawning
    rw [move?_of_spawning (hl.backend ▸ hb) hc] at hm
    cases hm
    exact (hl.spawn callback).withCaller c (.starting (.awaiting _))
  · have hp := hl.callers p (List.mem_of_getElem? hc)
    obtain ⟨hp', hs'⟩ := turn.vain hl.session hl.threads (fun n => hk.callers c p n hc)
      (fun callback heq => absurd ⟨callback, heq⟩ hspawning) hp
    refine ⟨hbackend, hs', fun t ht => ?_, fun q hq => ?_⟩
    · obtain ⟨n, hn⟩ := List.getElem?_of_mem ht
      obtain ⟨u, hu, hi⟩ | ⟨hspawning', -⟩ := turn.thread hn
      · exact CaptureThread.failing_of_inner_eq (hl.threads u (List.mem_of_getElem? hu)) hi
      · exact absurd hspawning' hspawning
    · rw [hcs] at hq
      rcases List.mem_or_eq_of_mem_set hq with hq | rfl
      · exact hl.callers q hq
      · exact hp'

theorem barren_of_moveThread (hl : Barren b e l) {n : Nat} (hm : l.move? (.thread n) = some l') :
    Barren b e l' := by
  have hbackend := (backend_of_move?_thread hm).trans hl.backend
  obtain ⟨c, p, p', hmover, -⟩ | ⟨j, t, t', hmover, ht, hcs, hts, hm⟩ := move?_cases hm
  · cases hmover
  · refine ⟨hbackend, (CaptureThread.move?_frame hm).session.trans hl.session, fun u hu => ?_,
      hcs ▸ hl.callers⟩
    rw [hts] at hu
    rcases List.mem_or_eq_of_mem_set hu with hu | rfl
    · exact hl.threads u hu
    · exact CaptureThread.failing_of_move? (hl.threads t (List.mem_of_getElem? ht)) hm

/-- The states of a listener over a mechanism that cannot capture. -/
theorem barren_of_reachable (hb : Refusing b e) {h : Host} (hr : Reachable b h l) :
    Barren b e l := by
  refine (hr.keeps (I := fun k => Known k ∧ Barren b e k) ?_ ?_
    ⟨known_init b h, barren_init b e h⟩).2
  · rintro k call ⟨hk, hl⟩
    exact ⟨known_request hk call, barren_request hl call⟩
  · rintro k k' mover ⟨hk, hl⟩ hm
    refine ⟨known_of_move? hk hm, ?_⟩
    cases mover with
    | caller c => exact barren_of_moveCaller hb hl hk hm
    | thread n => exact barren_of_moveThread hl hm

/-! ## What the caller is told -/

/-- Who wants to start a session is told why there is none, if he is told anything. -/
theorem starting_of_reaches (hb : Refusing b e) {h : Host} (hr : Reachable b h l)
    {callback : Callback} (hr' : Reaches (l.request (.start (some callback))) l') :
    ∃ p, l'.callers[l.callers.length]? = some p ∧ p.Starting e := by
  have hself : (l.request (.start (some callback))).callers[l.callers.length]? =
      some (.entered (.start (some callback))) := by
    rw [getElem?_callers_request, if_pos rfl]
  have hr₀ : Reachable b h (l.request (.start (some callback))) := .request _ hr
  -- by induction on the way there; the invariants of the states on it are needed for the turns
  have main : ∃ p, l'.callers[l.callers.length]? = some p ∧ Reachable b h l' ∧ p.Starting e := by
    refine hr'.keeps_caller (I := fun k q => Reachable b h k ∧ q.Starting e) ?req ?others ?turn
      (coherent_of_reachable hr₀) hself ⟨hr₀, .entered callback⟩
    case req =>
      intro k call q ⟨hk, hq⟩
      exact ⟨.request call hk, hq⟩
    case others =>
      intro k k' mover q _ _ hm _ ⟨hk, hq⟩
      exact ⟨.move mover hk hm, hq⟩
    case turn =>
      intro k k' q q' _ hc hm turn ⟨hk, hq⟩
      have hbarren := barren_of_reachable hb hk
      have hknown := known_of_reachable hk
      refine ⟨.move _ hk hm, (turn.starting hbarren.session hbarren.threads
        (fun n => hknown.callers _ q n hc) ?_ hq).1⟩
      -- it is given a thread
      rintro callback rfl
      rw [move?_of_spawning (hbarren.backend ▸ hb) hc] at hm
      cases hm
      show k.threads.length < (k.threads ++ [_]).length
      simp
  obtain ⟨p, hp, -, hstarting⟩ := main
  exact ⟨p, hp, hstarting⟩

/-! ## On the way to an answer -/

/-- A thread that nothing holds up comes to its end if only it is let move. -/
theorem exists_over {l : Listener β} {n : Nat} {t : CaptureThread} (ht : l.threads[n]? = some t)
    (hf : Failing e t.stage t.report) :
    ∃ (l₁ : Listener β) (t₁ : CaptureThread), Reaches l l₁ ∧ l₁.callers = l.callers ∧
      l₁.threads[n]? = some t₁ ∧ t₁.isOver = true := by
  -- by induction on how far the thread is from its end
  cases ho : t.isOver with
  | true => exact ⟨l, t, .refl l, rfl, ht, ho⟩
  | false =>
    obtain ⟨m', t', hm⟩ := CaptureThread.exists_move_of_failing hf ho n l.shared
    have hlt : n < l.threads.length := (List.getElem?_eq_some_iff.1 ht).1
    have hmove : l.move? (.thread n) = some ((l.withShared m').withThread n t') := by
      simp only [move?, ht, hm, Option.map_some]
    have ht' : ((l.withShared m').withThread n t').threads[n]? = some t' :=
      List.getElem?_set_self hlt
    have hf' := CaptureThread.failing_of_move? hf hm
    obtain ⟨l₁, t₁, hr, hcs, ht₁, ho₁⟩ := exists_over ht' hf'
    exact ⟨l₁, t₁, .trans (.move _ (.refl l) hmove) hr, hcs, ht₁, ho₁⟩
termination_by t.distance
decreasing_by exact CaptureThread.closer_of_move? hm

/-- A caller that holds the lock and deals with no thread is not held up. -/
theorem isSome_move?_of_not_watched {c : Nat} {p : Phase} (hc : l.callers[c]? = some p)
    (hp : p.holds = true) (hw : p.watched none = none) : (l.move? (.caller c)).isSome = true := by
  have hmove : l.move? (.caller c) = l.moveCaller c p := by
    simp only [move?, hc, Option.bind_eq_bind, Option.bind_some]
  rw [hmove]
  cases p with
  | looking | probing =>
    simp only [moveCaller]
    split
    · rfl
    · split <;> rfl
  | spawning =>
    simp only [moveCaller]
    split <;> rfl
  | raising | failing | lowering => rfl
  | entered | replied => cases hp
  | clearing | waking | joining | awaiting | dropping | collecting | installing => cases hw

/-- Who holds the lock can go on, after its thread has come to its end if need be. -/
theorem exists_turn (hl : Barren b e l) (hk : Known l) {c : Nat} {p : Phase}
    (hc : l.callers[c]? = some p) (hp : p.holds = true) :
    ∃ l₁ l₂ : Listener β, Reaches l l₁ ∧ l₁.callers = l.callers ∧
      l₁.move? (.caller c) = some l₂ := by
  cases hw : p.watched none with
  | none =>
    obtain ⟨l₂, hm⟩ := Option.isSome_iff_exists.1 (isSome_move?_of_not_watched hc hp hw)
    exact ⟨l, l₂, .refl l, rfl, hm⟩
  | some n =>
    have ht := List.getElem?_eq_getElem (hk.callers c p n hc hw)
    obtain ⟨l₁, t₁, hr, hcs, ht₁, ho⟩ :=
      exists_over ht (hl.threads _ (List.mem_of_getElem? ht))
    have hc₁ : l₁.callers[c]? = some p := by rw [hcs, hc]
    -- whatever it waits for comes with the end of the thread, also a report
    have hdue : p.due t₁ = true := by
      have hdead : t₁.isAlive = false := by
        cases ha : t₁.isAlive with
        | false => rfl
        | true => rw [CaptureThread.isOver_of_isAlive ha] at ho; cases ho
      cases p <;> simp [Phase.due, ho, hdead]
    have hsome := (isSome_move?_of_watched hc₁ hw ht₁).trans hdue
    obtain ⟨l₂, hm⟩ := Option.isSome_iff_exists.1 hsome
    exact ⟨l₁, l₂, hr, hcs, hm⟩

/-- No turn makes a caller one that has only come. -/
theorem Turn.ne_entered {c : Nat} {m m' : Shared} {ts ts' : List CaptureThread} {p p' : Phase}
    (turn : Turn c m ts p m' ts' p') (call : Call) : p' ≠ .entered call := by
  rintro rfl
  cases turn

/-- Who holds the lock can be brought to its answer, while all other callers stay where they are. -/
theorem exists_replied (hb : Refusing b e) {h : Host} {l : Listener β} (hr : Reachable b h l)
    {c : Nat} {p : Phase} (hc : l.callers[c]? = some p) (hp : p.holds = true) :
    ∃ (l₁ : Listener β) (r : Reply), Reaches l l₁ ∧ l₁.callers[c]? = some (.replied r) ∧
      ∀ k, k ≠ c → l₁.callers[k]? = l.callers[k]? := by
  obtain ⟨l₁, l₂, hr₁, hcs, hm⟩ :=
    exists_turn (barren_of_reachable hb hr) (known_of_reachable hr) hc hp
  have hc₁ : l₁.callers[c]? = some p := by rw [hcs, hc]
  obtain ⟨p', hp', turn⟩ := turn_of_move? hm hc₁
  have hothers : ∀ k, k ≠ c → l₂.callers[k]? = l.callers[k]? := by
    intro k hk
    rw [← hcs]
    exact phase_of_others hm fun heq => hk (Mover.caller.inj heq).symm
  have hr₂ : Reaches l l₂ := .move _ hr₁ hm
  -- either it goes on with the lock, and its rank has fallen, or it gives the lock back
  cases hholds : p'.holds with
  | true =>
    have hrank : l₂.rank c < l.rank c := by
      have hlt := rank_move?_lt hm
      simpa [rank, hcs] using hlt
    obtain ⟨l₃, r, hr₃, hc₃, hothers₃⟩ := exists_replied hb (Reaches.trans hr hr₂) hp' hholds
    exact ⟨l₃, r, hr₂.trans hr₃, hc₃, fun k hk => (hothers₃ k hk).trans (hothers k hk)⟩
  | false =>
    cases p' with
    | replied r => exact ⟨l₂, r, hr₂, hp', hothers⟩
    | entered call => exact absurd rfl (turn.ne_entered call)
    | _ => cases hholds
termination_by l.rank c

omit [CaptureMechanism β] in
/-- When the one that held the lock has its answer and nobody else has gone on, the lock is
free. -/
theorem Coherent.free_of_replied (hl : Coherent l) (hl' : Coherent l') {c : Nat} {r : Reply}
    (hh : l.shared.holder = some c) (hc : l'.callers[c]? = some (.replied r))
    (hothers : ∀ k, k ≠ c → l'.callers[k]? = l.callers[k]?) : l'.shared.holder = none := by
  cases hh' : l'.shared.holder with
  | none => rfl
  | some k =>
    obtain ⟨q, hq, hholds⟩ := hl'.holder k hh'
    have hkc : k ≠ c := by
      rintro rfl
      rw [hc, Option.some.injEq] at hq
      rw [← hq] at hholds
      cases hholds
    have hk := hl.holding k q (hothers k hkc ▸ hq) hholds
    rw [hh, Option.some.injEq] at hk
    exact absurd hk.symm hkc

/-- Who wants to start a session can be brought to the lock. -/
theorem exists_free (hb : Refusing b e) {h : Host} (hr : Reachable b h l) {c : Nat} {p : Phase}
    (hc : l.callers[c]? = some p) (hp : p.holds = false) :
    ∃ l₁ : Listener β, Reaches l l₁ ∧ l₁.shared.holder = none ∧ l₁.callers[c]? = some p := by
  cases hh : l.shared.holder with
  | none => exact ⟨l, .refl l, hh, hc⟩
  | some k =>
    have hl := coherent_of_reachable hr
    obtain ⟨q, hq, hholds⟩ := hl.holder k hh
    have hck : c ≠ k := by
      rintro rfl
      rw [hc, Option.some.injEq] at hq
      rw [← hq, hp] at hholds
      cases hholds
    obtain ⟨l₁, r, hr₁, hk, hothers⟩ := exists_replied hb hr hq hholds
    refine ⟨l₁, hr₁, hl.free_of_replied (hr₁.coherent hl) hh hk hothers, ?_⟩
    rw [hothers c hck, hc]

/-- Who wants to start a session can be brought to its answer, wherever it is. -/
theorem exists_answer (hb : Refusing b e) {h : Host} (hr : Reachable b h l) {c : Nat} {p : Phase}
    (hc : l.callers[c]? = some p) (hp : p.Starting e) :
    ∃ (l₁ : Listener β) (r : Reply), Reaches l l₁ ∧ l₁.callers[c]? = some (.replied r) := by
  have hholding : ∀ {k : Listener β} {q : Phase}, Reaches l k → k.callers[c]? = some q →
      q.holds = true → ∃ (l₁ : Listener β) (r : Reply), Reaches l l₁ ∧
        l₁.callers[c]? = some (.replied r) := by
    intro k q hk hq hholds
    obtain ⟨l₁, r, hr₁, hc₁, -⟩ := exists_replied hb (Reaches.trans hr hk) hq hholds
    exact ⟨l₁, r, hk.trans hr₁, hc₁⟩
  cases hp with
  | entered callback =>
    -- it takes the lock as soon as that is free
    obtain ⟨l₁, hr₁, hfree, hc₁⟩ := exists_free hb hr hc rfl
    have hlt : c < l₁.callers.length := (List.getElem?_eq_some_iff.1 hc₁).1
    have hm : l₁.move? (.caller c) = some
        ((l₁.withShared { l₁.shared with holder := some c }).withCaller c (.looking callback)) := by
      simp only [move?, hc₁, Option.bind_eq_bind, Option.bind_some, moveCaller, enter, hfree,
        Option.isNone_none, if_true]
    exact hholding (.move _ hr₁ hm) (List.getElem?_set_self hlt) rfl
  | replied => exact ⟨l, _, .refl l, hc⟩
  | _ => exact hholding (.refl l) hc rfl

/-! ## The laws -/

/-- What comes of starts in a state of a listener whose mechanism cannot capture. -/
structure InVain (e : CaptureError) (l : Listener β) : Prop where
  /-- There is no session. -/
  vacant : l.shared.session = none
  /-- Whatever has happened since, a start that has not been answered can be. -/
  answered : ∀ callback l₁, Reaches (l.request (.start (some callback))) l₁ →
    ∃ l₂, Reaches l₁ l₂ ∧
      l₂.callers[l.callers.length]? = some (.replied (.started (.error e)))
  /-- The only answer is the reason why there is no session. -/
  told : ∀ callback l₁ r, Reaches (l.request (.start (some callback))) l₁ →
    l₁.callers[l.callers.length]? = some (.replied r) → r = .started (.error e)
  /-- It is given when there is neither a session nor a thread, the flag is down, and the reason was
  reported. -/
  memory : ∀ callback l₁ l₂ mover r, Reaches (l.request (.start (some callback))) l₁ →
    l₁.move? mover = some l₂ → l₁.callers[l.callers.length]? ≠ some (.replied r) →
    l₂.callers[l.callers.length]? = some (.replied r) →
    l₂.shared.session = none ∧ l₂.shared.flag = false ∧
      l₂.shared.host.lastError = some (startFailed e) ∧
      ∀ (n : Nat) (t : CaptureThread), l₂.threads[n]? = some t → t.isOver = true

/-- **A start in vain**: this is what comes of it in every state of a listener whose mechanism
cannot capture. -/
theorem start_in_vain (hb : Refusing b e) {h : Host} (hr : Reachable b h l) : InVain e l where
  vacant := (barren_of_reachable hb hr).session
  answered callback l₁ hr₁ := by
    have hr' : Reachable b h l₁ := Reaches.trans (.request _ hr) hr₁
    obtain ⟨p, hp, hstarting⟩ := starting_of_reaches hb hr hr₁
    obtain ⟨l₂, r, hr₂, hc₂⟩ := exists_answer hb hr' hp hstarting
    obtain ⟨q, hq, hstarting'⟩ := starting_of_reaches hb hr (hr₁.trans hr₂)
    rw [hc₂, Option.some.injEq] at hq
    subst hq
    cases hstarting'
    exact ⟨l₂, hr₂, hc₂⟩
  told callback l₁ r hr₁ hc := by
    obtain ⟨p, hp, hstarting⟩ := starting_of_reaches hb hr hr₁
    rw [hc, Option.some.injEq] at hp
    subst hp
    cases hstarting
    rfl
  memory callback l₁ l₂ mover r hr₁ hm hnot hc₂ := by
    have hr' : Reachable b h l₁ := Reaches.trans (.request _ hr) hr₁
    obtain ⟨p, hp, hstarting⟩ := starting_of_reaches hb hr hr₁
    -- it was a turn of the starter itself, and there is only one that it can have been
    have hmover : mover = .caller l.callers.length := by
      refine Decidable.byContradiction fun hne => hnot ?_
      rw [← phase_of_others hm hne, hc₂]
    subst hmover
    obtain ⟨p', hp', turn⟩ := turn_of_move? hm hp
    rw [hc₂, Option.some.injEq] at hp'
    subst hp'
    obtain rfl := turn.eq_failing hstarting
    simp only [move?, hp, Option.bind_eq_bind, Option.bind_some, moveCaller] at hm
    cases hm
    exact ⟨(barren_of_reachable hb hr').session, rfl, rfl,
      fun n t ht => (coherent_of_reachable hr').isOver_of_watched hp rfl rfl ht⟩

end Listener

end Keystroke
