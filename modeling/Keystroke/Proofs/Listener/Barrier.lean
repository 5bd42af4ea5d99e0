import Keystroke.Capture.Scripted
import Keystroke.Proofs.Listener.Moves

/-!
# Stopping is a barrier

Whoever holds the lock of the session knows which capture thread may still be there: the one of the
session that it found, took away or is about to install. No other thread is there at any time. So
when a stop is over there is no thread at all left of those that were there before it, and the flag,
which is raised only when no thread is there, stays down for a thread once it was lowered.

## Main statements

- `coherent_of_reachable`: in every order of moves the lock is held by one caller, and at most the
  thread that its holder knows of has not ended.
- `endedBelow_of_replied`: a caller of stop that was answered has seen the end of all threads.
- `runs_of_reaches`: whatever happens to a listener is a run of each of its threads.
- `join_barrier`: what callers and callbacks can rely on.
-/

namespace Keystroke

/-! ## Who knows of which thread -/

/-- Whether a caller at the phase holds the lock. -/
def Phase.holds : Phase → Bool
  | .entered _ | .replied _ => false
  | _ => true

/-- The thread that may not have ended yet, as far as a caller at the phase knows. A caller without
the lock, or one that has only begun to look, goes by the session. -/
def Phase.watched (session : Option Session) : Phase → Option Nat
  | .entered _ | .replied _ | .looking _ | .probing _ => session.map (·.thread)
  | .clearing s _ | .waking s _ | .joining s _ => some s.thread
  | .awaiting n | .dropping n _ | .collecting n _ | .installing n _ => some n
  | .raising _ | .spawning _ | .failing _ | .lowering => none

namespace Listener

variable {β : Type}

/-- The thread that may not have ended yet. -/
def current (l : Listener β) : Option Nat :=
  match l.shared.holder with
  | none => l.shared.session.map (·.thread)
  | some c => l.callers[c]?.bind (·.watched l.shared.session)

/-- The lock is held by the caller that is named as its holder and by no other, and all threads but
the current one have ended. -/
structure Coherent (l : Listener β) : Prop where
  holding : ∀ c p, l.callers[c]? = some p → p.holds = true → l.shared.holder = some c
  holder : ∀ c, l.shared.holder = some c → ∃ p, l.callers[c]? = some p ∧ p.holds = true
  sole : ∀ n t, l.threads[n]? = some t → t.isOver = false → l.current = some n

theorem current_of_holder {l : Listener β} {c : Nat} {p : Phase}
    (hh : l.shared.holder = some c) (hc : l.callers[c]? = some p) :
    l.current = p.watched l.shared.session := by
  simp [current, hh, hc]

theorem current_of_free {l : Listener β} (hh : l.shared.holder = none) :
    l.current = l.shared.session.map (·.thread) := by
  simp [current, hh]

theorem watched_of_not_holds {p : Phase} (h : p.holds = false) (session : Option Session) :
    p.watched session = session.map (·.thread) := by
  cases p <;> first | rfl | cases h

/-! ## What a turn does to the lock and to the current thread -/

section Turn

variable {c : Nat} {m m' : Shared} {ts ts' : List CaptureThread} {p p' : Phase}

/-- A turn of a caller takes the lock when it is free, gives it back, keeps it, or does without it;
in the last case it changes neither the flag nor the session. -/
theorem Turn.lock_cases (turn : Turn c m ts p m' ts' p') :
    (p.holds = false ∧ m.holder = none ∧ p'.holds = true ∧ m'.holder = some c) ∨
    (p.holds = true ∧ p'.holds = false ∧ m'.holder = none) ∨
    (p.holds = true ∧ p'.holds = true ∧ m'.holder = m.holder) ∨
    (p.holds = false ∧ p'.holds = false ∧ m'.holder = m.holder ∧ m'.session = m.session ∧
      m'.flag = m.flag) := by
  cases turn <;> simp_all [Phase.holds]

theorem not_isOver_of_inner {t t' : CaptureThread} (hi : t'.inner = t.inner)
    (h : t'.isOver = false) : t.isOver = false := by
  rw [← CaptureThread.isOver_eq_of_inner_eq hi, h]

theorem not_ended {n : Nat} {t : CaptureThread} (ht : ts[n]? = some t) (ho : t.isOver = false) :
    ¬ Ended ts n := by
  simp [Ended, ht, ho]

/-- If a caller knows of the only thread that has not ended, it does so after its turn. -/
theorem Turn.watched (turn : Turn c m ts p m' ts' p')
    (h : ∀ n t, ts[n]? = some t → t.isOver = false → p.watched m.session = some n)
    {n : Nat} {t' : CaptureThread} (ht : ts'[n]? = some t') (ho : t'.isOver = false) :
    p'.watched m'.session = some n := by
  obtain ⟨t, hts, hi⟩ | ⟨⟨callback, rfl⟩, rfl, rfl⟩ := turn.thread ht
  · have ho := not_isOver_of_inner hi ho
    have hw := h n t hts ho
    have alive := not_ended hts ho
    -- what the caller has seen the end of cannot be the thread that has not ended
    cases turn <;> simp_all [Phase.watched]
  · rfl

end Turn

/-! ## Every state is coherent -/

variable {l l' : Listener β}

/-- The callers after one more has come. -/
theorem getElem?_callers_request (l : Listener β) (call : Call) (c : Nat) :
    (l.request call).callers[c]? =
      if c = l.callers.length then some (.entered call) else l.callers[c]? := by
  simp only [request]
  rcases Nat.lt_trichotomy c l.callers.length with hlt | rfl | hgt
  · rw [List.getElem?_append_left hlt, if_neg (Nat.ne_of_lt hlt)]
  · simp
  · have hge : (l.callers ++ [Phase.entered call]).length ≤ c := by
      simpa [Nat.succ_le_iff] using hgt
    rw [List.getElem?_eq_none hge, if_neg (Nat.ne_of_gt hgt),
      List.getElem?_eq_none (Nat.le_of_lt hgt)]

theorem coherent_init (b : β) (h : Host) :
    Coherent ({ backend := b, shared := { host := h } } : Listener β) where
  holding c p hc := by simp at hc
  holder c hh := by cases hh
  sole n t ht := by simp at ht

theorem Coherent.ne_of_holder (hl : Coherent l) {c : Nat} (hh : l.shared.holder = some c) :
    c ≠ l.callers.length := by
  obtain ⟨p, hp, -⟩ := hl.holder c hh
  exact Nat.ne_of_lt (List.getElem?_eq_some_iff.1 hp).1

theorem coherent_request (hl : Coherent l) (call : Call) : Coherent (l.request call) where
  holding c p hc hp := by
    rw [getElem?_callers_request] at hc
    split at hc
    · cases hc; cases hp
    · exact hl.holding c p hc hp
  holder c hh := by
    rw [getElem?_callers_request, if_neg (hl.ne_of_holder hh)]
    exact hl.holder c hh
  sole n t ht ho := by
    -- a caller that has only come is not the holder
    rw [← hl.sole n t ht ho]
    cases hh : l.shared.holder with
    | none => rw [current_of_free hh, current_of_free (l := l.request call) hh]; rfl
    | some c =>
      obtain ⟨p, hp, -⟩ := hl.holder c hh
      have hp' : (l.request call).callers[c]? = some p := by
        rw [getElem?_callers_request, if_neg (hl.ne_of_holder hh), hp]
      rw [current_of_holder hh hp, current_of_holder (l := l.request call) hh hp']
      rfl

/-- A caller that holds the lock, or one without it while the lock is free, knows of the only thread
that has not ended. -/
theorem Coherent.watched (hl : Coherent l) {c : Nat} {p : Phase} (hc : l.callers[c]? = some p)
    (hf : p.holds = false → l.shared.holder = none) {n : Nat} {t : CaptureThread}
    (ht : l.threads[n]? = some t) (ho : t.isOver = false) :
    p.watched l.shared.session = some n := by
  rw [← hl.sole n t ht ho]
  cases hp : p.holds with
  | true => rw [current_of_holder (hl.holding c p hc hp) hc]
  | false => rw [current_of_free (hf hp), watched_of_not_holds hp]

/-- A state whose lock one caller holds and no other believes to hold is coherent if that caller
knows of the only thread that has not ended. -/
theorem coherent_of_holder {c : Nat} {p : Phase} (hh : l.shared.holder = some c)
    (hc : l.callers[c]? = some p) (hp : p.holds = true)
    (hothers : ∀ (k : Nat) (q : Phase), k ≠ c → l.callers[k]? = some q → q.holds = false)
    (hw : ∀ n t, l.threads[n]? = some t → t.isOver = false →
      p.watched l.shared.session = some n) : Coherent l where
  holding k q hk hq := by
    by_cases hkc : k = c
    · rw [hkc, hh]
    · rw [hothers k q hkc hk] at hq
      cases hq
  holder k hk := by
    rw [hh, Option.some.injEq] at hk
    exact ⟨p, hk ▸ hc, hp⟩
  sole n t ht ho := by
    rw [current_of_holder hh hc]
    exact hw n t ht ho

/-- A state whose lock is free, as all callers believe, is coherent if all threads but that of the
session have ended. -/
theorem coherent_of_free (hh : l.shared.holder = none)
    (hothers : ∀ (k : Nat) (q : Phase), l.callers[k]? = some q → q.holds = false)
    (hw : ∀ n t, l.threads[n]? = some t → t.isOver = false →
      l.shared.session.map (·.thread) = some n) : Coherent l where
  holding k q hk hq := by
    rw [hothers k q hk] at hq
    cases hq
  holder k hk := by
    rw [hh] at hk
    cases hk
  sole n t ht ho := by
    rw [current_of_free hh]
    exact hw n t ht ho

/-- While a caller holds the lock, or could take it, no other caller believes to hold it. -/
theorem Coherent.not_holds (hl : Coherent l) {c : Nat}
    (hh : l.shared.holder = none ∨ l.shared.holder = some c) {k : Nat} {q : Phase} (hk : k ≠ c)
    (hq : l.callers[k]? = some q) : q.holds = false := by
  cases hqh : q.holds with
  | false => rfl
  | true =>
    have hk' := hl.holding k q hq hqh
    rcases hh with hh | hh <;> rw [hh] at hk'
    · cases hk'
    · exact absurd (Option.some.inj hk').symm hk

/-- A turn of a caller keeps a state coherent. -/
theorem coherent_of_turn (hl : Coherent l) {c : Nat} {p p' : Phase} (hc : l.callers[c]? = some p)
    (hcs : l'.callers = l.callers.set c p')
    (turn : Turn c l.shared l.threads p l'.shared l'.threads p') : Coherent l' := by
  have hlt : c < l.callers.length := (List.getElem?_eq_some_iff.1 hc).1
  have hself : l'.callers[c]? = some p' := by rw [hcs, List.getElem?_set_self hlt]
  have hother : ∀ k, k ≠ c → l'.callers[k]? = l.callers[k]? := fun k hk => by
    rw [hcs, List.getElem?_set_ne hk.symm]
  have hw : (p.holds = false → l.shared.holder = none) → ∀ n t, l'.threads[n]? = some t →
      t.isOver = false → p'.watched l'.shared.session = some n := fun hf n t ht ho =>
    turn.watched (fun n t ht ho => hl.watched hc hf ht ho) ht ho
  obtain ⟨hp, free, hp', hh'⟩ | ⟨hp, hp', hh'⟩ | ⟨hp, hp', hh'⟩ | ⟨hp, hp', hh', hs', -⟩ :=
    turn.lock_cases
  · -- the caller takes the lock
    refine coherent_of_holder hh' hself hp' (fun k q hk hq => ?_) (hw fun _ => free)
    rw [hother k hk] at hq
    exact hl.not_holds (.inl free) hk hq
  · -- the caller gives it back
    have hh := hl.holding c p hc hp
    refine coherent_of_free hh' (fun k q hq => ?_) fun n t ht ho => ?_
    · by_cases hk : k = c
      · rw [hk, hself, Option.some.injEq] at hq
        rw [← hq, hp']
      · rw [hother k hk] at hq
        exact hl.not_holds (.inr hh) hk hq
    · rw [← watched_of_not_holds hp']
      exact hw (by simp [hp]) n t ht ho
  · -- the caller keeps it
    have hh := hl.holding c p hc hp
    refine coherent_of_holder (hh'.trans hh) hself hp' (fun k q hk hq => ?_) (hw (by simp [hp]))
    rw [hother k hk] at hq
    exact hl.not_holds (.inr hh) hk hq
  · -- the caller does without it, whoever holds it
    cases hh : l.shared.holder with
    | none =>
      refine coherent_of_free (hh'.trans hh) (fun k q hq => ?_) fun n t ht ho => ?_
      · by_cases hk : k = c
        · rw [hk, hself, Option.some.injEq] at hq
          rw [← hq, hp']
        · rw [hother k hk] at hq
          exact hl.not_holds (.inl hh) hk hq
      · rw [← watched_of_not_holds hp']
        exact hw (fun _ => hh) n t ht ho
    | some k =>
      obtain ⟨q, hq, hqh⟩ := hl.holder k hh
      have hkc : k ≠ c := by
        rintro rfl
        rw [hc, Option.some.injEq] at hq
        rw [← hq, hp] at hqh
        cases hqh
      refine coherent_of_holder (hh'.trans hh) ((hother k hkc).trans hq) hqh
        (fun i r hi hr => ?_) fun n t' ht' ho' => ?_
      · by_cases hic : i = c
        · rw [hic, hself, Option.some.injEq] at hr
          rw [← hr, hp']
        · rw [hother i hic] at hr
          exact hl.not_holds (.inr hh) hi hr
      · -- a caller without the lock spawns nothing
        obtain ⟨t, ht, hi⟩ | ⟨⟨callback, rfl⟩, -, -⟩ := turn.thread ht'
        · rw [hs', ← current_of_holder hh hq]
          exact hl.sole n t ht (not_isOver_of_inner hi ho')
        · cases hp

/-- A move of a capture thread keeps a state coherent. -/
theorem coherent_of_thread (hl : Coherent l) {n : Nat} {t t' : CaptureThread}
    (ht : l.threads[n]? = some t) (hcs : l'.callers = l.callers)
    (hts : l'.threads = l.threads.set n t') (hm : t.move? n l.shared = some (l'.shared, t')) :
    Coherent l' := by
  have frame := CaptureThread.move?_frame hm
  have hcur : l'.current = l.current := by
    simp only [current, frame.holder, frame.session, hcs]
  refine ⟨fun k q hk hq => ?_, fun k hk => ?_, fun k u hu ho => ?_⟩
  · rw [hcs] at hk
    rw [frame.holder]
    exact hl.holding k q hk hq
  · rw [frame.holder] at hk
    rw [hcs]
    exact hl.holder k hk
  · rw [hcur]
    by_cases hk : k = n
    · -- the thread that moved had not ended before either
      rw [hk]
      exact hl.sole n t ht (CaptureThread.isOver_of_move? hm)
    · rw [hts, List.getElem?_set_ne (Ne.symm hk)] at hu
      exact hl.sole k u hu ho

/-- At any time at most one capture thread has not ended. -/
theorem Coherent.eq_of_not_isOver (hl : Coherent l) {n k : Nat} {t u : CaptureThread}
    (ht : l.threads[n]? = some t) (hu : l.threads[k]? = some u) (hto : t.isOver = false)
    (huo : u.isOver = false) : n = k := by
  have hn := hl.sole n t ht hto
  rw [hl.sole k u hu huo, Option.some.injEq] at hn
  exact hn.symm

/-- A caller that holds the lock and knows of no thread has seen the end of all of them. -/
theorem Coherent.isOver_of_watched (hl : Coherent l) {c : Nat} {p : Phase}
    (hc : l.callers[c]? = some p) (hp : p.holds = true)
    (hw : p.watched l.shared.session = none) {n : Nat} {t : CaptureThread}
    (ht : l.threads[n]? = some t) : t.isOver = true := by
  cases ho : t.isOver with
  | true => rfl
  | false =>
    have hn := hl.watched hc (by simp [hp]) ht ho
    rw [hw] at hn
    cases hn

variable [CaptureMechanism β]

theorem coherent_of_move? (hl : Coherent l) {mover : Mover} (hm : l.move? mover = some l') :
    Coherent l' := by
  obtain ⟨c, p, p', rfl, hc, hcs, turn⟩ | ⟨n, t, t', rfl, ht, hcs, hts, hm⟩ := move?_cases hm
  · exact coherent_of_turn hl hc hcs turn
  · exact coherent_of_thread hl ht hcs hts hm

theorem Reaches.coherent (h : Reaches l l') (hl : Coherent l) : Coherent l' :=
  h.keeps (fun _ call hl => coherent_request hl call)
    (fun _ _ _ hl hm => coherent_of_move? hl hm) hl

/-- **Coherence**: every state that a listener can come to be in is coherent. -/
theorem coherent_of_reachable {b : β} {h : Host} (hl : Reachable b h l) : Coherent l :=
  Reaches.coherent hl (coherent_init b h)

/-- What requests, and moves from coherent states, keep holds in all states that a coherent one can
come to. -/
theorem Reaches.keeps_of_coherent {I : Listener β → Prop}
    (hreq : ∀ l call, I l → I (l.request call))
    (hmove : ∀ l l' mover, Coherent l → l.move? mover = some l' → I l → I l')
    (h : Reaches l l') (hl : Coherent l) (hi : I l) : I l' := by
  refine (h.keeps (I := fun k => Coherent k ∧ I k) ?_ ?_ ⟨hl, hi⟩).2
  · rintro k call ⟨hk, hi⟩
    exact ⟨coherent_request hk call, hreq k call hi⟩
  · rintro k k' mover ⟨hk, hi⟩ hm
    exact ⟨coherent_of_move? hk hm, hmove k k' mover hk hm hi⟩

/-! ## Callers of stop -/

/-- A caller at the phase has asked for a stop and was not answered yet. -/
inductive Stopping : Phase → Prop where
  | entered : Stopping (.entered .stop)
  | clearing (s) : Stopping (.clearing s .stop)
  | waking (s) : Stopping (.waking s .stop)
  | joining (s) : Stopping (.joining s .stop)
  | lowering : Stopping .lowering

/-- The first `k` threads are there and have ended. -/
def EndedBelow (k : Nat) (l : Listener β) : Prop :=
  ∀ n < k, ∃ t, l.threads[n]? = some t ∧ t.isOver = true

/-- The caller `c` is stopping or, if it was answered, the first `k` threads have ended. -/
def StopHeld (c k : Nat) (l : Listener β) : Prop :=
  k ≤ l.threads.length ∧
    ∃ p, l.callers[c]? = some p ∧ (Stopping p ∨ (∃ r, p = .replied r) ∧ EndedBelow k l)

omit [CaptureMechanism β] in
theorem stopHeld_request {c k : Nat} (hs : StopHeld c k l) (call : Call) :
    StopHeld c k (l.request call) := by
  obtain ⟨hk, p, hc, hp⟩ := hs
  have hne : c ≠ l.callers.length := Nat.ne_of_lt (List.getElem?_eq_some_iff.1 hc).1
  exact ⟨hk, p, by rw [getElem?_callers_request, if_neg hne, hc], hp⟩

/-- A turn of a caller that is stopping leaves it stopping, unless it is the answer. -/
theorem stopping_of_turn {c : Nat} {m m' : Shared} {ts ts' : List CaptureThread} {p p' : Phase}
    (turn : Turn c m ts p m' ts' p') (hp : Stopping p) :
    Stopping p' ∨ p = .lowering ∧ p' = .replied .stopped := by
  cases hp with
  | entered =>
    cases turn with
    | answer hcall => cases hcall
    | take => exact .inl (.clearing _)
    | idle => exact .inl .lowering
  | clearing s => cases turn; exact .inl (.waking s)
  | waking s => cases turn; exact .inl (.joining s)
  | joining s => cases turn; exact .inl .lowering
  | lowering => cases turn; exact .inr ⟨rfl, rfl⟩

/-- A caller that was answered has no more turns. -/
theorem not_turn_of_replied {c : Nat} {m m' : Shared} {ts ts' : List CaptureThread} {r : Reply}
    {p' : Phase} : ¬ Turn c m ts (.replied r) m' ts' p' := nofun

/-- No thread goes away. -/
theorem length_threads_le_of_move? {mover : Mover} (hm : l.move? mover = some l') :
    l.threads.length ≤ l'.threads.length := by
  obtain ⟨c, p, p', -, -, -, turn⟩ | ⟨n, t, t', -, -, -, hts, -⟩ := move?_cases hm
  · exact turn.length_le
  · exact Nat.le_of_eq (by rw [hts, List.length_set])

theorem endedBelow_of_move? {k : Nat} {mover : Mover} (hm : l.move? mover = some l')
    (he : EndedBelow k l) : EndedBelow k l' := by
  intro n hn
  obtain ⟨t, ht, ho⟩ := he n hn
  obtain ⟨t', ht', hi⟩ := move?_keeps_over hm ht ho
  exact ⟨t', ht', by rw [CaptureThread.isOver_eq_of_inner_eq hi, ho]⟩

/-- The answer to a stop comes when all threads have ended; nothing changes about that later. -/
theorem stopHeld_of_move? (hl : Coherent l) {c k : Nat} {mover : Mover}
    (hm : l.move? mover = some l') (hs : StopHeld c k l) : StopHeld c k l' := by
  obtain ⟨hk, p, hc, hp⟩ := hs
  have hlen := length_threads_le_of_move? hm
  refine ⟨Nat.le_trans hk hlen, ?_⟩
  obtain ⟨i, q, q', rfl, hi, hcs, turn⟩ | ⟨n, t, t', rfl, ht, hcs, hts, -⟩ := move?_cases hm
  · by_cases hic : i = c
    · -- the caller itself moves
      subst hic
      rw [hc, Option.some.injEq] at hi
      subst hi
      have hlt : i < l.callers.length := (List.getElem?_eq_some_iff.1 hc).1
      have hself : l'.callers[i]? = some q' := by rw [hcs, List.getElem?_set_self hlt]
      rcases hp with hp | ⟨⟨r, rfl⟩, -⟩
      · rcases stopping_of_turn turn hp with hp' | ⟨rfl, rfl⟩
        · exact ⟨q', hself, .inl hp'⟩
        · -- the answer comes while the caller holds the lock and knows of no thread
          refine ⟨_, hself, .inr ⟨⟨_, rfl⟩, endedBelow_of_move? hm fun n hn => ?_⟩⟩
          have ht := List.getElem?_eq_getElem (Nat.lt_of_lt_of_le hn hk)
          exact ⟨_, ht, hl.isOver_of_watched hc rfl rfl ht⟩
      · exact absurd turn not_turn_of_replied
    · refine ⟨p, by rw [hcs, List.getElem?_set_ne hic, hc], hp.imp_right ?_⟩
      exact fun ⟨hr, he⟩ => ⟨hr, endedBelow_of_move? hm he⟩
  · refine ⟨p, by rw [hcs, hc], hp.imp_right ?_⟩
    exact fun ⟨hr, he⟩ => ⟨hr, endedBelow_of_move? hm he⟩

/-- A caller of stop that was answered has seen the end of all threads that were there before it
came. -/
theorem endedBelow_of_replied (hl : Coherent l) (hr : Reaches (l.request .stop) l') {r : Reply}
    (hc : l'.callers[l.callers.length]? = some (.replied r)) :
    EndedBelow l.threads.length l' := by
  have start : StopHeld l.callers.length l.threads.length (l.request .stop) := by
    refine ⟨Nat.le_refl _, .entered .stop, ?_, .inl .entered⟩
    rw [getElem?_callers_request, if_pos rfl]
  obtain ⟨-, p, hp, hs⟩ := hr.keeps_of_coherent (I := StopHeld l.callers.length l.threads.length)
    (fun _ call hs => stopHeld_request hs call) (fun _ _ _ hk hm hs => stopHeld_of_move? hk hm hs)
    (coherent_request hl .stop) start
  rw [hc, Option.some.injEq] at hp
  rcases hs with hs | ⟨-, he⟩
  · rw [← hp] at hs
    cases hs
  · exact he

/-! ## The flag of a thread -/

/-- The flag is raised only by a caller that has seen the end of all threads. -/
theorem raised_of_turn {c : Nat} {m m' : Shared} {ts ts' : List CaptureThread} {p p' : Phase}
    (turn : Turn c m ts p m' ts' p') (hf : m.flag = false) (hf' : m'.flag = true) :
    ∃ callback, p = .raising callback := by
  cases turn with
  | raise callback => exact ⟨callback, rfl⟩
  | _ => simp_all

omit [CaptureMechanism β] in
theorem raises_of_turn (hl : Coherent l) {c : Nat} {p p' : Phase} (hc : l.callers[c]? = some p)
    (turn : Turn c l.shared l.threads p l'.shared l'.threads p') {n : Nat} {t : CaptureThread}
    (ht : l.threads[n]? = some t) (ho : t.isOver = false) (hf : l'.shared.flag = true) :
    l.shared.flag = true := by
  cases hdown : l.shared.flag with
  | true => rfl
  | false =>
    -- who raises the flag knows of no thread, so that this one has ended
    obtain ⟨callback, rfl⟩ := raised_of_turn turn hdown hf
    have := hl.isOver_of_watched hc rfl rfl ht
    rw [ho] at this
    cases this

/-- Whatever happens to a listener is, for each of its threads, a run of that thread. -/
theorem runs_of_reaches (hl : Coherent l) (hr : Reaches l l') {n : Nat} {t : CaptureThread}
    (ht : l.threads[n]? = some t) :
    ∃ es t', l'.threads[n]? = some t' ∧ CaptureThread.Runs n l.shared t es l'.shared t' := by
  -- the moves of the thread itself count as moves, all else as the doings of others
  refine hr.keeps_of_coherent (I := fun k => ∃ es t', k.threads[n]? = some t' ∧
    CaptureThread.Runs n l.shared t es k.shared t') (fun _ _ h => h) ?_ hl
    ⟨[], t, ht, .refl _ _⟩
  rintro k k' mover hk hm ⟨es, u, hu, hruns⟩
  obtain ⟨c, p, p', rfl, hc, hcs, turn⟩ | ⟨i, v, v', rfl, hv, hcs, hts, hm⟩ := move?_cases hm
  · obtain ⟨u', hu', hi⟩ := turn.keeps_thread hu
    exact ⟨es, u', hu', hruns.others hi fun ho => raises_of_turn hk hc turn hu ho⟩
  · by_cases hin : i = n
    · subst hin
      rw [hu, Option.some.injEq] at hv
      subst hv
      have hlt : i < k.threads.length := (List.getElem?_eq_some_iff.1 hu).1
      exact ⟨_, v', by rw [hts, List.getElem?_set_self hlt], hruns.move hm⟩
    · refine ⟨es, u, by rw [hts, List.getElem?_set_ne hin, hu], hruns.others rfl fun _ => ?_⟩
      exact (CaptureThread.move?_frame hm).flag

/-- A stop in the callback can always be made, and lowers the flag. -/
theorem move?_of_calling_stop {n : Nat} {t : CaptureThread} {acts : List Act} {noted : Heard}
    {rest : Capture Unit} (ht : l.threads[n]? = some t)
    (hs : t.stage = .calling (.stop :: acts) noted rest) :
    ∃ l', l.move? (.thread n) = some l' ∧
      l'.threads[n]? = some (t.goto (.calling acts noted rest)) ∧ l'.shared.flag = false := by
  have hlt : n < l.threads.length := (List.getElem?_eq_some_iff.1 ht).1
  have hm : l.move? (.thread n) = some ((l.withShared { l.shared with
      host := l.shared.host.report CaptureThread.stopFromCallback, flag := false }).withThread n
        (t.goto (.calling acts noted rest))) := by
    simp only [move?, ht, CaptureThread.move?, hs, CaptureThread.moveCall, Option.map_some]
  exact ⟨_, hm, List.getElem?_set_self hlt, rfl⟩

/-! ## The barrier -/

/-- **The join barrier**, in every state that a listener can come to be in:

- At most one capture thread is there.
- Once a caller's stop was answered, the threads that were there before it came have ended, and none
  of them ever calls its callback again.
- A stop in the callback is never held up, whoever holds the lock. From then on the flag is down
  whenever its thread is there, so that the thread never sees it set again. -/
theorem join_barrier {b : β} {h : Host} {l : Listener β} (hl : Reachable b h l) :
    (∀ (n k : Nat) (t u : CaptureThread), l.threads[n]? = some t → l.threads[k]? = some u →
      t.isOver = false → u.isOver = false → n = k) ∧
    (∀ l₁ r, Reaches (l.request .stop) l₁ → l₁.callers[l.callers.length]? = some (.replied r) →
      ∀ l₂, Reaches l₁ l₂ → ∀ n < l.threads.length, ∃ t₁ t₂,
        l₁.threads[n]? = some t₁ ∧ t₁.isOver = true ∧
        l₂.threads[n]? = some t₂ ∧ t₂.isOver = true ∧ t₂.calls = t₁.calls) ∧
    (∀ (n : Nat) (t : CaptureThread) acts noted rest, l.threads[n]? = some t →
      t.stage = .calling (.stop :: acts) noted rest →
      ∃ l₁, l.move? (.thread n) = some l₁ ∧
        l₁.threads[n]? = some (t.goto (.calling acts noted rest)) ∧
        ∀ l₂ (t₂ : CaptureThread), Reaches l₁ l₂ → l₂.threads[n]? = some t₂ →
          t₂.isOver = false → l₂.shared.flag = false) := by
  have hl := coherent_of_reachable hl
  refine ⟨fun n k t u => hl.eq_of_not_isOver, ?_, ?_⟩
  · intro l₁ r hr hc l₂ hr' n hn
    obtain ⟨t₁, ht₁, ho₁⟩ := endedBelow_of_replied hl hr hc n hn
    obtain ⟨t₂, ht₂, hi⟩ := hr'.keeps_over ht₁ ho₁
    exact ⟨t₁, t₂, ht₁, ho₁, ht₂, by rw [CaptureThread.isOver_eq_of_inner_eq hi, ho₁],
      CaptureThread.calls_eq_of_inner_eq hi⟩
  · intro n t acts noted rest ht hs
    obtain ⟨l₁, hm, ht₁, hf⟩ := move?_of_calling_stop ht hs
    refine ⟨l₁, hm, ht₁, fun l₂ t₂ hr ht₂ ho => ?_⟩
    obtain ⟨es, t', ht', hruns⟩ := runs_of_reaches (coherent_of_move? hl hm) hr ht₁
    rw [ht₂, Option.some.injEq] at ht'
    exact hruns.keeps_down (fun _ => hf) (ht' ▸ ho)

/-- A listener that was told to start, with one event to come and a callback that stops it. -/
def selfStopping : Listener ScriptedMechanism :=
  request { backend := { plans := [.ready false [default] .waits] } }
    (.start (some { react := fun _ _ => { stops := true } }))

/-- The moves until the thread is in its callback and is about to stop the listener. -/
def movesToStop : List Mover :=
  List.replicate 4 (.caller 0) ++ [.thread 0, .caller 0, .caller 0, .thread 0, .thread 0]

/-- The moves of a second caller, who stops the listener as well, and of the thread that it waits
for. -/
def movesToReply : List Mover :=
  [.caller 1, .caller 1, .caller 1] ++ List.replicate 8 (.thread 0) ++ [.caller 1, .caller 1]

/-- A stop in the callback while another caller waits for the thread: the thread does not wait, the
caller is answered, and the callback is not called a second time. -/
theorem join_barrier_selfStopping :
    ∃ (l l₁ l₂ : Listener ScriptedMechanism) (t : CaptureThread),
      selfStopping.follow movesToStop = some l ∧ Reachable selfStopping.backend {} l ∧
      l.threads[0]? = some t ∧ t.isOver = false ∧
      l.move? (.thread 0) = some l₁ ∧ l₁.shared.flag = false ∧
      (l.request .stop).follow movesToReply = some l₂ ∧
      l₂.callers[l.callers.length]? = some (.replied .stopped) ∧
      ∀ l₃, Reaches l₂ l₃ → ∃ t₃, l₃.threads[0]? = some t₃ ∧ t₃.isOver = true ∧ t₃.calls = 1 := by
  have hl : selfStopping.follow movesToStop = some _ := rfl
  have hr : Reachable selfStopping.backend {} _ :=
    .trans (.request _ (.refl _)) (reaches_of_follow _ hl)
  obtain ⟨-, stopped, calling⟩ := join_barrier hr
  obtain ⟨l₁, hm, ht₁, hf⟩ := calling 0 _ _ _ _ rfl rfl
  refine ⟨_, l₁, _, _, hl, hr, rfl, rfl, hm, hf l₁ _ (.refl _) ht₁ rfl, rfl, rfl, fun l₃ h => ?_⟩
  obtain ⟨t₂, t₃, ht₂, -, ht₃, ho₃, hc⟩ :=
    stopped _ _ (reaches_of_follow movesToReply rfl) rfl l₃ h 0 Nat.zero_lt_one
  refine ⟨t₃, ht₃, ho₃, hc.trans ?_⟩
  cases ht₂
  rfl

end Listener

end Keystroke
