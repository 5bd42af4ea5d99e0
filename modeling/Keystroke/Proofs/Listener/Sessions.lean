import Keystroke.Proofs.Listener.Barrier

/-!
# Session, flag and thread

A listener keeps three things in step: the session that it has stored, the flag that it shares with
the capture thread, and the thread itself. The flag is written by callers, who hold the lock, and by
the thread, which does not; so the three agree only while nobody holds the lock, and in between the
phase of the holder says what is missing.

## Main statements

- `settled_of_reachable`: without a session the flag is up only for a caller that ends or begins
  one.
- `known_of_reachable`: the threads that the session and the callers know of exist.
- `spawnedByOthers_of_replied`: a caller that has its reply spawns no thread any more.
- `session_laws`: what can be relied on while nobody holds the lock, and what a start does.
-/

namespace Keystroke

/-- Whether a caller at the phase has the lock and has left the listener without a session. -/
def Phase.vacates : Phase → Bool
  | .entered _ | .replied _ | .looking _ | .probing _ => false
  | _ => true

/-- Whether the flag may be up without a session while a caller is at the phase: it is about to end
the session that it took away, or on the way to a new one. -/
def Phase.unsettled : Phase → Bool
  | .clearing .. | .spawning _ | .awaiting _ | .dropping .. | .failing _ | .installing .. => true
  | _ => false

/-- Whether a caller at the phase asks for a start with the callback and has not decided yet whether
to keep the session. -/
inductive Phase.Undecided (callback : Callback) : Phase → Prop where
  | entered : Undecided callback (.entered (.start (some callback)))
  | looking : Undecided callback (.looking callback)
  | probing : Undecided callback (.probing callback)

/-- Whether a caller at the phase ends the session in order to start another one, and has not seen
the end of its thread. -/
inductive Phase.Reaping (s : Session) (callback : Callback) : Phase → Prop where
  | clearing : Reaping s callback (.clearing s (.restart callback))
  | waking : Reaping s callback (.waking s (.restart callback))
  | joining : Reaping s callback (.joining s (.restart callback))

theorem Phase.holds_of_vacates {p : Phase} (h : p.vacates = true) : p.holds = true := by
  cases p <;> first | rfl | cases h

theorem Phase.holds_of_unsettled {p : Phase} (h : p.unsettled = true) : p.holds = true := by
  cases p <;> first | rfl | cases h

namespace Listener

variable {β : Type}

/-! ## Without a session -/

/-- While a caller has left the listener without a session there is none, and without a session the
flag is up only for such a caller. -/
structure Settled (l : Listener β) : Prop where
  vacant : ∀ (c : Nat) (p : Phase), l.callers[c]? = some p → p.vacates = true →
    l.shared.session = none
  raised : l.shared.flag = true → l.shared.session = none →
    ∃ (c : Nat) (p : Phase), l.callers[c]? = some p ∧ p.unsettled = true

/-- The thread of the session exists, and so do the threads that callers know of. -/
structure Known (l : Listener β) : Prop where
  session : ∀ s, l.shared.session = some s → s.thread < l.threads.length
  callers : ∀ (c : Nat) (p : Phase) (n : Nat), l.callers[c]? = some p →
    p.watched none = some n → n < l.threads.length

section Turn

variable {c : Nat} {m m' : Shared} {ts ts' : List CaptureThread} {p p' : Phase}

theorem Turn.session_eq_none (turn : Turn c m ts p m' ts' p')
    (h : p.vacates = true → m.session = none) (hp' : p'.vacates = true) : m'.session = none := by
  cases turn <;> simp_all [Phase.vacates]

/-- When the flag is up without a session after a turn, then the caller has made it so, or it was so
before and not on account of the caller. -/
theorem Turn.unsettled (turn : Turn c m ts p m' ts' p') (hf : m'.flag = true)
    (hs : m'.session = none) :
    p'.unsettled = true ∨ p.unsettled = false ∧ m.flag = true ∧ m.session = none := by
  cases turn <;> simp_all [Phase.unsettled]

/-- A caller that stores a session knew of its thread. -/
theorem Turn.session_cases (turn : Turn c m ts p m' ts' p') {s : Session}
    (hs : m'.session = some s) : m.session = some s ∨ p.watched none = some s.thread := by
  cases turn with
  | install n waker =>
    cases hs
    exact .inr rfl
  | _ => simp_all

/-- A caller knows of a thread because it did so before, because it found the thread in the session,
or because it has just spawned it. -/
theorem Turn.watched_cases (turn : Turn c m ts p m' ts' p') {n : Nat}
    (hn : p'.watched none = some n) :
    p.watched none = some n ∨ (∃ s, m.session = some s ∧ s.thread = n) ∨ n < ts'.length := by
  cases turn <;> simp_all [Phase.watched]

/-- A thread is added only by a caller that spawns it. -/
theorem Turn.spawns (turn : Turn c m ts p m' ts' p') (h : ts.length < ts'.length) :
    (∃ callback, p = .spawning callback ∧ (∀ t', ts'[ts.length]? = some t' →
      t'.callback = callback)) ∧ ts'.length = ts.length + 1 := by
  have same : Undisturbed ts ts' → ts'.length = ts.length := by
    intro hu
    have hlen := congrArg List.length hu
    rwa [List.length_map, List.length_map] at hlen
  cases turn with
  | answer _ _ hts _ =>
    rw [same hts] at h
    exact absurd h (Nat.lt_irrefl _)
  | wake _ hts =>
    rw [same hts] at h
    exact absurd h (Nat.lt_irrefl _)
  | spawn callback program =>
    refine ⟨⟨callback, rfl, fun t' ht' => ?_⟩, List.length_append⟩
    rw [List.getElem?_concat_length, Option.some.injEq] at ht'
    rw [← ht']
  | _ => exact absurd h (Nat.lt_irrefl _)

/-- Only a caller that holds the lock, before or after its turn, changes the session. -/
theorem Turn.session_eq (turn : Turn c m ts p m' ts' p') {k : Nat} (hk : m.holder = some k)
    (hp : p.holds = false) : m'.session = m.session := by
  obtain ⟨-, free, -⟩ | ⟨hp', -⟩ | ⟨hp', -⟩ | ⟨-, -, -, hs, -⟩ := turn.lock_cases
  · rw [hk] at free
    cases free
  · rw [hp] at hp'
    cases hp'
  · rw [hp] at hp'
    cases hp'
  · exact hs

end Turn

variable {l l' : Listener β}

theorem settled_init (b : β) (h : Host) :
    Settled ({ backend := b, shared := { host := h } } : Listener β) where
  vacant c p hc := by simp at hc
  raised hf := by cases hf

theorem known_init (b : β) (h : Host) :
    Known ({ backend := b, shared := { host := h } } : Listener β) where
  session s hs := by cases hs
  callers c p n hc := by simp at hc

theorem settled_request (hs : Settled l) (call : Call) : Settled (l.request call) where
  vacant c p hc hp := by
    rw [getElem?_callers_request] at hc
    split at hc
    · cases hc
      cases hp
    · exact hs.vacant c p hc hp
  raised hf hn := by
    obtain ⟨c, p, hc, hp⟩ := hs.raised hf hn
    have hne : c ≠ l.callers.length := Nat.ne_of_lt (List.getElem?_eq_some_iff.1 hc).1
    exact ⟨c, p, by rw [getElem?_callers_request, if_neg hne, hc], hp⟩

theorem known_request (hk : Known l) (call : Call) : Known (l.request call) where
  session s hs := hk.session s hs
  callers c p n hc hn := by
    rw [getElem?_callers_request] at hc
    split at hc
    · cases hc
      cases hn
    · exact hk.callers c p n hc hn

/-- While a caller holds the lock, a turn of another one leaves the session alone. -/
theorem Coherent.session_eq (hl : Coherent l) {c k : Nat} {p p' q : Phase} (hck : k ≠ c)
    (hc : l.callers[c]? = some p) (hk : l.callers[k]? = some q) (hq : q.holds = true)
    (turn : Turn c l.shared l.threads p l'.shared l'.threads p') :
    l'.shared.session = l.shared.session := by
  have hh := hl.holding k q hk hq
  have hp : p.holds = false := hl.not_holds (.inr hh) (Ne.symm hck) hc
  exact turn.session_eq hh hp

theorem settled_of_turn (hl : Coherent l) (hs : Settled l) {c : Nat} {p p' : Phase}
    (hc : l.callers[c]? = some p) (hcs : l'.callers = l.callers.set c p')
    (turn : Turn c l.shared l.threads p l'.shared l'.threads p') : Settled l' := by
  have hlt : c < l.callers.length := (List.getElem?_eq_some_iff.1 hc).1
  have hself : l'.callers[c]? = some p' := by rw [hcs, List.getElem?_set_self hlt]
  have hother : ∀ k, k ≠ c → l'.callers[k]? = l.callers[k]? := fun k hk => by
    rw [hcs, List.getElem?_set_ne hk.symm]
  constructor
  · intro k q hk hq
    by_cases hkc : k = c
    · rw [hkc, hself, Option.some.injEq] at hk
      rw [← hk] at hq
      exact turn.session_eq_none (hs.vacant c p hc) hq
    · rw [hother k hkc] at hk
      rw [hl.session_eq hkc hc hk (Phase.holds_of_vacates hq) turn]
      exact hs.vacant k q hk hq
  · intro hf hn
    rcases turn.unsettled hf hn with hp' | ⟨hp, hf, hn⟩
    · exact ⟨c, p', hself, hp'⟩
    · -- it is another caller on whose account the flag is up
      obtain ⟨k, q, hk, hq⟩ := hs.raised hf hn
      have hkc : k ≠ c := by
        rintro rfl
        rw [hc, Option.some.injEq] at hk
        rw [← hk, hp] at hq
        cases hq
      exact ⟨k, q, by rw [hother k hkc, hk], hq⟩

theorem known_of_turn (hk : Known l) {c : Nat} {p p' : Phase}
    (hc : l.callers[c]? = some p) (hcs : l'.callers = l.callers.set c p')
    (turn : Turn c l.shared l.threads p l'.shared l'.threads p') : Known l' := by
  have hlt : c < l.callers.length := (List.getElem?_eq_some_iff.1 hc).1
  have hlen := turn.length_le
  constructor
  · intro s hs
    rcases turn.session_cases hs with hs | hw
    · exact Nat.lt_of_lt_of_le (hk.session s hs) hlen
    · exact Nat.lt_of_lt_of_le (hk.callers c p s.thread hc hw) hlen
  · intro k q n hkq hn
    by_cases hkc : k = c
    · rw [hkc, hcs, List.getElem?_set_self hlt, Option.some.injEq] at hkq
      rw [← hkq] at hn
      rcases turn.watched_cases hn with hw | ⟨s, hs, rfl⟩ | hlt
      · exact Nat.lt_of_lt_of_le (hk.callers c p n hc hw) hlen
      · exact Nat.lt_of_lt_of_le (hk.session s hs) hlen
      · exact hlt
    · rw [hcs, List.getElem?_set_ne (Ne.symm hkc)] at hkq
      exact Nat.lt_of_lt_of_le (hk.callers k q n hkq hn) hlen

variable [CaptureMechanism β]

/-- A thread touches neither the session nor the callers, and it never raises the flag. -/
theorem settled_of_move? (hl : Coherent l) (hs : Settled l) {mover : Mover}
    (hm : l.move? mover = some l') : Settled l' := by
  obtain ⟨c, p, p', rfl, hc, hcs, turn⟩ | ⟨n, t, t', rfl, ht, hcs, hts, hm⟩ := move?_cases hm
  · exact settled_of_turn hl hs hc hcs turn
  · have frame := CaptureThread.move?_frame hm
    constructor
    · intro c p hc hp
      rw [hcs] at hc
      rw [frame.session]
      exact hs.vacant c p hc hp
    · intro hf hn
      rw [frame.session] at hn
      rw [hcs]
      exact hs.raised (frame.flag hf) hn

theorem known_of_move? (hk : Known l) {mover : Mover} (hm : l.move? mover = some l') :
    Known l' := by
  obtain ⟨c, p, p', rfl, hc, hcs, turn⟩ | ⟨n, t, t', rfl, ht, hcs, hts, hm⟩ := move?_cases hm
  · exact known_of_turn hk hc hcs turn
  · have frame := CaptureThread.move?_frame hm
    have hlen : l'.threads.length = l.threads.length := by rw [hts, List.length_set]
    constructor
    · intro s hs
      rw [frame.session] at hs
      rw [hlen]
      exact hk.session s hs
    · intro c p n hc hn
      rw [hcs] at hc
      rw [hlen]
      exact hk.callers c p n hc hn

/-- Without a session the flag is up only for a caller that ends one or begins one. -/
theorem settled_of_reachable {b : β} {h : Host} (hl : Reachable b h l) : Settled l :=
  Reaches.keeps_of_coherent (fun _ call hs => settled_request hs call)
    (fun _ _ _ hk hm hs => settled_of_move? hk hs hm) hl (coherent_init b h) (settled_init b h)

/-- The threads that the session and the callers know of exist. -/
theorem known_of_reachable {b : β} {h : Host} (hl : Reachable b h l) : Known l :=
  Reaches.keeps (fun _ call hk => known_request hk call)
    (fun _ _ _ hk hm => known_of_move? hk hm) hl (known_init b h)

omit [CaptureMechanism β] in
/-- While nobody holds the lock and there is no session, the flag is down. -/
theorem Settled.flag_eq_false (hs : Settled l) (hl : Coherent l) (hh : l.shared.holder = none)
    (hn : l.shared.session = none) : l.shared.flag = false := by
  cases hf : l.shared.flag with
  | false => rfl
  | true =>
    obtain ⟨c, p, hc, hp⟩ := hs.raised hf hn
    have hholder := hl.holding c p hc (Phase.holds_of_unsettled hp)
    rw [hh] at hholder
    cases hholder

omit [CaptureMechanism β] in
/-- While nobody holds the lock and there is no session, all threads have ended. -/
theorem Coherent.isOver_of_no_session (hl : Coherent l) (hh : l.shared.holder = none)
    (hn : l.shared.session = none) {n : Nat} {t : CaptureThread} (ht : l.threads[n]? = some t) :
    t.isOver = true := by
  cases ho : t.isOver with
  | true => rfl
  | false =>
    have hcur := hl.sole n t ht ho
    rw [current_of_free hh, hn] at hcur
    cases hcur

/-! ## Who spawns a thread -/

/-- The thread `n` of `l'` was spawned after `l` by the caller `k`, and calls the callback that this
caller brought. -/
def SpawnedBy (l : Listener β) (k n : Nat) (l' : Listener β) : Prop :=
  ∃ (callback : Callback) (l₁ l₂ : Listener β) (t : CaptureThread),
    Reaches l l₁ ∧ l₁.callers[k]? = some (.spawning callback) ∧ l₁.threads.length = n ∧
    l₁.move? (.caller k) = some l₂ ∧ Reaches l₂ l' ∧
    l'.threads[n]? = some t ∧ t.callback = callback

/-- All threads that are new in `l'` were spawned by other callers than `c`. -/
def SpawnedByOthers (l : Listener β) (c : Nat) (l' : Listener β) : Prop :=
  ∀ n, l.threads.length ≤ n → n < l'.threads.length → ∃ k, k ≠ c ∧ SpawnedBy l k n l'

/-- A thread keeps its callback. -/
theorem callback_of_move? {mover : Mover} (hm : l.move? mover = some l') {n : Nat}
    {t : CaptureThread} (ht : l.threads[n]? = some t) :
    ∃ t', l'.threads[n]? = some t' ∧ t'.callback = t.callback := by
  obtain ⟨c, p, p', rfl, hc, hcs, turn⟩ | ⟨k, u, u', rfl, hu, hcs, hts, hm⟩ := move?_cases hm
  · obtain ⟨t', ht', hi⟩ := turn.keeps_thread ht
    exact ⟨t', ht', CaptureThread.callback_eq_of_inner_eq hi⟩
  · by_cases hk : k = n
    · rw [hk, ht, Option.some.injEq] at hu
      have hlt : n < l.threads.length := (List.getElem?_eq_some_iff.1 ht).1
      refine ⟨u', by rw [hts, hk, List.getElem?_set_self hlt], ?_⟩
      rw [hu]
      exact (CaptureThread.calls_of_move? hm).1
    · exact ⟨t, by rw [hts, List.getElem?_set_ne hk, ht], rfl⟩

/-- A move that adds a thread is the turn of a caller that spawns it, and adds no other. -/
theorem spawner_of_move? {mover : Mover} (hm : l.move? mover = some l')
    (h : l.threads.length < l'.threads.length) :
    ∃ k callback t, mover = .caller k ∧ l.callers[k]? = some (.spawning callback) ∧
      l'.threads.length = l.threads.length + 1 ∧
      l'.threads[l.threads.length]? = some t ∧ t.callback = callback := by
  obtain ⟨c, p, p', rfl, hc, hcs, turn⟩ | ⟨n, t, t', rfl, ht, hcs, hts, hm⟩ := move?_cases hm
  · obtain ⟨⟨callback, rfl, hcallback⟩, hlen⟩ := turn.spawns h
    have ht := List.getElem?_eq_getElem h
    exact ⟨c, callback, _, rfl, hc, hlen, ht, hcallback _ ht⟩
  · rw [hts, List.length_set] at h
    exact absurd h (Nat.lt_irrefl _)

theorem SpawnedBy.move {l₀ : Listener β} {k n : Nat} (h : SpawnedBy l₀ k n l) {mover : Mover}
    (hm : l.move? mover = some l') : SpawnedBy l₀ k n l' := by
  obtain ⟨callback, l₁, l₂, t, hr₁, hk, hn, hspawn, hr₂, ht, hcallback⟩ := h
  obtain ⟨t', ht', hcallback'⟩ := callback_of_move? hm ht
  exact ⟨callback, l₁, l₂, t', hr₁, hk, hn, hspawn, .move mover hr₂ hm, ht',
    hcallback'.trans hcallback⟩

/-- A move makes no exception as long as the caller `c` is not about to spawn a thread. -/
theorem SpawnedByOthers.move {l₀ : Listener β} {c : Nat} (h : SpawnedByOthers l₀ c l)
    (hr : Reaches l₀ l) {mover : Mover} (hm : l.move? mover = some l')
    (hc : ∀ callback, l.callers[c]? ≠ some (.spawning callback)) : SpawnedByOthers l₀ c l' := by
  intro n hle hlt
  rcases Nat.lt_or_ge n l.threads.length with hold | hnew
  · obtain ⟨k, hkc, hspawned⟩ := h n hle hold
    exact ⟨k, hkc, hspawned.move hm⟩
  · obtain ⟨k, callback, t, rfl, hk, hlen, ht, hcallback⟩ :=
      spawner_of_move? hm (Nat.lt_of_le_of_lt hnew hlt)
    have hn : l.threads.length = n := by omega
    have hkc : k ≠ c := by
      rintro rfl
      exact hc callback hk
    rw [hn] at ht
    exact ⟨k, hkc, callback, l, l', t, hr, hk, hn, hm, .refl l', ht, hcallback⟩

theorem SpawnedByOthers.request {l₀ : Listener β} {c : Nat} (h : SpawnedByOthers l₀ c l)
    (call : Call) : SpawnedByOthers l₀ c (l.request call) := by
  intro n hle hlt
  obtain ⟨k, hkc, callback, l₁, l₂, t, hr₁, hk, hn, hspawn, hr₂, ht, hcallback⟩ := h n hle hlt
  exact ⟨k, hkc, callback, l₁, l₂, t, hr₁, hk, hn, hspawn, .request call hr₂, ht, hcallback⟩

/-! ## The way of a caller -/

/-- A caller stays where it is while others move. -/
theorem phase_of_others {mover : Mover} (hm : l.move? mover = some l') {c : Nat}
    (hne : mover ≠ .caller c) : l'.callers[c]? = l.callers[c]? := by
  obtain ⟨k, q, q', rfl, hk, hcs, turn⟩ | ⟨n, t, t', rfl, ht, hcs, hts, hm⟩ := move?_cases hm
  · have hkc : k ≠ c := fun hkc => hne (congrArg Mover.caller hkc)
    rw [hcs, List.getElem?_set_ne hkc]
  · rw [hcs]

theorem turn_of_move? {c : Nat} {p : Phase} (hm : l.move? (.caller c) = some l')
    (hc : l.callers[c]? = some p) :
    ∃ p', l'.callers[c]? = some p' ∧ Turn c l.shared l.threads p l'.shared l'.threads p' := by
  have hlt : c < l.callers.length := (List.getElem?_eq_some_iff.1 hc).1
  obtain ⟨k, q, q', hmover, hk, hcs, turn⟩ | ⟨n, t, t', hmover, -⟩ := move?_cases hm
  · cases hmover
    rw [hc, Option.some.injEq] at hk
    subst hk
    exact ⟨q', by rw [hcs, List.getElem?_set_self hlt], turn⟩
  · cases hmover

/-- What is known of a listener and of the phase of one of its callers holds on the whole way, if
requests keep it, and moves of others, and the turns of the caller. -/
theorem Reaches.keeps_caller {I : Listener β → Phase → Prop} {c : Nat}
    (hreq : ∀ (l : Listener β) call p, I l p → I (l.request call) p)
    (hothers : ∀ (l l' : Listener β) mover p, Coherent l → l.callers[c]? = some p →
      l.move? mover = some l' → mover ≠ .caller c → I l p → I l' p)
    (hturn : ∀ (l l' : Listener β) p p', Coherent l → l.callers[c]? = some p →
      l.move? (.caller c) = some l' → Turn c l.shared l.threads p l'.shared l'.threads p' →
      I l p → I l' p')
    (hr : Reaches l l') (hl : Coherent l) {p : Phase} (hc : l.callers[c]? = some p)
    (hi : I l p) : ∃ p', l'.callers[c]? = some p' ∧ I l' p' := by
  refine hr.keeps_of_coherent (I := fun k => ∃ p, k.callers[c]? = some p ∧ I k p) ?_ ?_ hl
    ⟨p, hc, hi⟩
  · rintro k call ⟨p, hp, hi⟩
    have hne : c ≠ k.callers.length := Nat.ne_of_lt (List.getElem?_eq_some_iff.1 hp).1
    exact ⟨p, by rw [getElem?_callers_request, if_neg hne, hp], hreq k call p hi⟩
  · rintro k k' mover hk hm ⟨p, hp, hi⟩
    by_cases hmover : mover = .caller c
    · rw [hmover] at hm
      obtain ⟨p', hp', turn⟩ := turn_of_move? hm hp
      exact ⟨p', hp', hturn k k' p p' hk hp hm turn hi⟩
    · rw [← phase_of_others hm hmover] at hp
      exact ⟨p, hp, hothers k k' mover p hk (by rw [← phase_of_others hm hmover, hp]) hm hmover hi⟩

/-- While a caller holds the lock, moves of others neither change the session nor add a thread. -/
theorem Coherent.keeps_for_holder (hl : Coherent l) {c : Nat} {p : Phase}
    (hc : l.callers[c]? = some p) (hp : p.holds = true) {mover : Mover}
    (hm : l.move? mover = some l') (hne : mover ≠ .caller c) :
    l'.shared.session = l.shared.session ∧ l'.threads.length = l.threads.length := by
  obtain ⟨k, q, q', rfl, hk, hcs, turn⟩ | ⟨n, t, t', rfl, ht, hcs, hts, hm⟩ := move?_cases hm
  · have hkc : c ≠ k := fun hkc => hne (congrArg Mover.caller hkc.symm)
    have hq : q.holds = false := hl.not_holds (.inr (hl.holding c p hc hp)) (Ne.symm hkc) hk
    refine ⟨hl.session_eq hkc hk hc hp turn, Nat.le_antisymm ?_ turn.length_le⟩
    refine Nat.le_of_not_lt fun hlt => ?_
    obtain ⟨⟨callback, rfl, -⟩, -⟩ := turn.spawns hlt
    cases hq
  · exact ⟨(CaptureThread.move?_frame hm).session, by rw [hts, List.length_set]⟩

/-- A caller that has not decided yet had not done so before its turn. -/
theorem Turn.undecided {c : Nat} {m m' : Shared} {ts ts' : List CaptureThread} {p p' : Phase}
    {callback : Callback} (turn : Turn c m ts p m' ts' p') (hp' : p'.Undecided callback) :
    p.Undecided callback := by
  cases hp' with
  | entered => cases turn
  | looking =>
    cases turn
    exact .entered
  | probing =>
    cases turn
    exact .looking

/-- A caller that looks whether the thread has ended decides with its next turn. -/
theorem Turn.decides {c : Nat} {m m' : Shared} {ts ts' : List CaptureThread} {p' : Phase}
    {callback : Callback} (turn : Turn c m ts (.probing callback) m' ts' p') :
    ¬ p'.Undecided callback := by
  intro hu
  cases turn <;> cases hu

/-- As long as a caller has not decided, all threads that are new since it came were spawned by
others. -/
theorem spawnedByOthers_of_undecided (hl : Coherent l) {callback : Callback}
    (hr : Reaches (l.request (.start (some callback))) l') {p : Phase}
    (hc : l'.callers[l.callers.length]? = some p) (hp : p.Undecided callback) :
    SpawnedByOthers l l.callers.length l' := by
  have hself : (l.request (.start (some callback))).callers[l.callers.length]? =
      some (.entered (.start (some callback))) := by
    rw [getElem?_callers_request, if_pos rfl]
  have main : ∃ q, l'.callers[l.callers.length]? = some q ∧ Reaches l l' ∧
      (q.Undecided callback → SpawnedByOthers l l.callers.length l') := by
    refine hr.keeps_caller (I := fun k q => Reaches l k ∧
      (q.Undecided callback → SpawnedByOthers l l.callers.length k)) ?req ?others ?turn
      (coherent_request hl _) hself ?init
    case req =>
      intro k call q ⟨hk, hi⟩
      exact ⟨.request call hk, fun hu => (hi hu).request call⟩
    case others =>
      intro k k' mover q _ hq hm _ ⟨hk, hi⟩
      refine ⟨.move mover hk hm, fun hu => (hi hu).move hk hm fun callback' hspawning => ?_⟩
      rw [hq, Option.some.injEq] at hspawning
      subst hspawning
      cases hu
    case turn =>
      intro k k' q q' _ hq hm turn ⟨hk, hi⟩
      refine ⟨.move _ hk hm, fun hu' => ?_⟩
      -- it was undecided before, so this was not the turn in which it spawns a thread
      have hu := turn.undecided hu'
      refine (hi hu).move hk hm fun callback' hspawning => ?_
      rw [hq, Option.some.injEq] at hspawning
      subst hspawning
      cases hu
    case init =>
      refine ⟨.request _ (.refl l), fun _ n hle hlt => ?_⟩
      exact absurd hlt (Nat.not_lt_of_le hle)
  obtain ⟨q, hq, -, hspawned⟩ := main
  rw [hc, Option.some.injEq] at hq
  exact hspawned (hq ▸ hp)

/-- A caller that was answered spawns no more threads. -/
theorem spawnedByOthers_of_replied {l₀ : Listener β} {c : Nat} {r : Reply} (hl : Coherent l)
    (h₀ : Reaches l₀ l) (hc : l.callers[c]? = some (.replied r)) (h : SpawnedByOthers l₀ c l)
    (hr : Reaches l l') : SpawnedByOthers l₀ c l' := by
  have main : ∃ q, l'.callers[c]? = some q ∧ q = .replied r ∧ Reaches l₀ l' ∧
      SpawnedByOthers l₀ c l' := by
    refine hr.keeps_caller (I := fun k q => q = .replied r ∧ Reaches l₀ k ∧
      SpawnedByOthers l₀ c k) ?req ?others ?turn hl hc ⟨rfl, h₀, h⟩
    case req =>
      intro k call q ⟨hq, hk, hi⟩
      exact ⟨hq, .request call hk, hi.request call⟩
    case others =>
      intro k k' mover q _ hq hm _ ⟨hreplied, hk, hi⟩
      refine ⟨hreplied, .move mover hk hm, hi.move hk hm fun callback hspawning => ?_⟩
      rw [hq, hreplied, Option.some.injEq] at hspawning
      cases hspawning
    case turn =>
      intro k k' q q' _ _ _ turn ⟨hreplied, _⟩
      subst hreplied
      exact absurd turn not_turn_of_replied
  obtain ⟨-, -, -, -, hspawned⟩ := main
  exact hspawned

/-- As long as a caller looks whether the session that it found has ended, the session stays. -/
theorem session_of_probing {c : Nat} {callback : Callback} {s : Session} (hl : Coherent l)
    (hc : l.callers[c]? = some (.probing callback)) (hs : l.shared.session = some s)
    (hr : Reaches l l') (hc' : l'.callers[c]? = some (.probing callback)) :
    l'.shared.session = some s := by
  -- a caller that has gone on from there never comes back
  have main : ∃ q, l'.callers[c]? = some q ∧ (q = .probing callback ∧ l'.shared.session = some s ∨
      ¬ q.Undecided callback) := by
    refine hr.keeps_caller (I := fun k q => q = .probing callback ∧ k.shared.session = some s ∨
      ¬ q.Undecided callback) ?req ?others ?turn hl hc (.inl ⟨rfl, hs⟩)
    case req =>
      intro k call q hi
      exact hi
    case others =>
      intro k k' mover q hk hq hm hne hi
      refine hi.imp_left fun ⟨hprobing, hsession⟩ => ⟨hprobing, ?_⟩
      rw [(hk.keeps_for_holder hq (by rw [hprobing]; rfl) hm hne).1, hsession]
    case turn =>
      intro k k' q q' _ _ _ turn hi
      refine .inr fun hu' => ?_
      rcases hi with ⟨rfl, -⟩ | hu
      · exact turn.decides hu'
      · exact hu (turn.undecided hu')
  obtain ⟨q, hq, ⟨-, hsession⟩ | hu⟩ := main
  · exact hsession
  · rw [hc', Option.some.injEq] at hq
    exact absurd (hq ▸ .probing) hu

/-- A caller that finds the thread of the session there keeps the session and is answered. -/
theorem move?_of_live {c : Nat} {callback : Callback} {s : Session} {t : CaptureThread}
    (hc : l.callers[c]? = some (.probing callback)) (hs : l.shared.session = some s)
    (ht : l.threads[s.thread]? = some t) (ho : t.isOver = false) :
    ∃ l', l.move? (.caller c) = some l' ∧
      l'.callers[c]? = some (.replied (.started (.ok ()))) ∧
      l'.shared = { l.shared with holder := none } ∧ l'.threads = l.threads := by
  have hlt : c < l.callers.length := (List.getElem?_eq_some_iff.1 hc).1
  have hover : l.isOver s.thread = false := by simp [isOver, ht, ho]
  have hm : l.move? (.caller c) = some (l.unlock.reply c (.started (.ok ()))) := by
    simp [move?, hc, moveCaller, hs, hover]
  exact ⟨_, hm, List.getElem?_set_self hlt, rfl, rfl⟩

/-- A caller that finds a session and the flag set looks next whether the thread has ended. -/
theorem move?_of_raised {c : Nat} {callback : Callback} {s : Session}
    (hc : l.callers[c]? = some (.looking callback)) (hs : l.shared.session = some s)
    (hf : l.shared.flag = true) :
    ∃ l', l.move? (.caller c) = some l' ∧ l'.callers[c]? = some (.probing callback) ∧
      l'.shared = l.shared ∧ l'.threads = l.threads := by
  have hlt : c < l.callers.length := (List.getElem?_eq_some_iff.1 hc).1
  have hm : l.move? (.caller c) = some (l.withCaller c (.probing callback)) := by
    simp [move?, hc, moveCaller, hs, hf]
  exact ⟨_, hm, List.getElem?_set_self hlt, rfl, rfl⟩

/-! ## A start that ends a session -/

/-- A caller that finds a session whose flag is down, or whose thread has ended, takes the session
away in order to end it. -/
theorem move?_of_stale {c : Nat} {callback : Callback} {s : Session}
    (hs : l.shared.session = some s)
    (hc : l.callers[c]? = some (.looking callback) ∧ l.shared.flag = false ∨
      l.callers[c]? = some (.probing callback) ∧ l.isOver s.thread = true) :
    ∃ l', l.move? (.caller c) = some l' ∧
      l'.callers[c]? = some (.clearing s (.restart callback)) ∧ l'.threads = l.threads := by
  have hm : l.move? (.caller c) = some (l.takeSession c s (.restart callback)) := by
    rcases hc with ⟨hc, hf⟩ | ⟨hc, ho⟩
    · simp [move?, hc, moveCaller, hs, hf]
    · simp [move?, hc, moveCaller, hs, ho]
  have hlt : c < l.callers.length := by
    rcases hc with ⟨hc, -⟩ | ⟨hc, -⟩ <;> exact (List.getElem?_eq_some_iff.1 hc).1
  exact ⟨_, hm, List.getElem?_set_self hlt, rfl⟩

/-- A turn of a caller that ends a session in order to start another one adds no thread, and goes on
only when the thread of the session has ended. -/
theorem Turn.reaping {c : Nat} {m m' : Shared} {ts ts' : List CaptureThread} {p p' : Phase}
    {s : Session} {callback : Callback} (turn : Turn c m ts p m' ts' p')
    (hp : p.Reaping s callback) :
    ts'.length = ts.length ∧ (p'.Reaping s callback ∨ ts' = ts ∧ Ended ts s.thread) := by
  cases hp with
  | clearing =>
    cases turn
    exact ⟨rfl, .inl .waking⟩
  | waking =>
    cases turn with
    | wake host hts =>
      have hlen := congrArg List.length hts
      rw [List.length_map, List.length_map] at hlen
      exact ⟨hlen, .inl .joining⟩
  | joining =>
    cases turn with
    | joinRestart ended => exact ⟨rfl, .inr ⟨rfl, ended⟩⟩

/-- Until a caller has seen the end of the thread of a stale session no thread is spawned at all. -/
theorem reaping_of_reaches {c : Nat} {p : Phase} {s : Session} {callback : Callback}
    (hl : Coherent l) (hc : l.callers[c]? = some p) (hp : p.Reaping s callback)
    (hs : s.thread < l.threads.length) (hr : Reaches l l') :
    (∃ p', l'.callers[c]? = some p' ∧ p'.Reaping s callback ∧
      l'.threads.length = l.threads.length) ∨
    ∃ t, l'.threads[s.thread]? = some t ∧ t.isOver = true := by
  have main : ∃ p', l'.callers[c]? = some p' ∧ (p'.Reaping s callback ∧
      l'.threads.length = l.threads.length ∨
        ∃ t, l'.threads[s.thread]? = some t ∧ t.isOver = true) := by
    refine hr.keeps_caller (I := fun k q => q.Reaping s callback ∧
      k.threads.length = l.threads.length ∨
        ∃ t, k.threads[s.thread]? = some t ∧ t.isOver = true) ?req ?others ?turn hl hc
      (.inl ⟨hp, rfl⟩)
    case req =>
      intro k call q hi
      exact hi
    case others =>
      intro k k' mover q hk hq hm hne hi
      rcases hi with ⟨hq', hlen⟩ | ⟨t, ht, ho⟩
      · -- the caller holds the lock, and nobody spawns a thread without it
        have hholds : q.holds = true := by cases hq' <;> rfl
        exact .inl ⟨hq', (hk.keeps_for_holder hq hholds hm hne).2.trans hlen⟩
      · obtain ⟨t', ht', hinner⟩ := move?_keeps_over hm ht ho
        exact .inr ⟨t', ht', by rw [CaptureThread.isOver_eq_of_inner_eq hinner, ho]⟩
    case turn =>
      intro k k' q q' hk hq hm turn hi
      rcases hi with ⟨hq', hlen⟩ | ⟨t, ht, ho⟩
      · obtain ⟨hlen', hq'' | ⟨hts, ended⟩⟩ := turn.reaping hq'
        · exact .inl ⟨hq'', hlen'.trans hlen⟩
        · have ht := List.getElem?_eq_getElem (hlen ▸ hs)
          refine .inr ⟨_, by rw [hts, ht], ?_⟩
          simpa [Ended, ht] using ended
      · obtain ⟨t', ht', hinner⟩ := move?_keeps_over hm ht ho
        exact .inr ⟨t', ht', by rw [CaptureThread.isOver_eq_of_inner_eq hinner, ho]⟩
  obtain ⟨p', hp', hreaping | hover⟩ := main
  · exact .inl ⟨p', hp', hreaping⟩
  · exact .inr hover

/-! ## The flag and the answers -/

theorem Turn.flag_of_raising {c : Nat} {m m' : Shared} {ts ts' : List CaptureThread} {p' : Phase}
    {callback : Callback} (turn : Turn c m ts (.raising callback) m' ts' p') :
    m'.flag = true := by
  cases turn
  rfl

/-- A caller that raises the flag has seen the end of all threads, which move no more. -/
theorem move?_eq_none_of_raising (hl : Coherent l) {c : Nat} {callback : Callback}
    (hc : l.callers[c]? = some (.raising callback)) (hm : l.move? (.caller c) = some l')
    {l'' : Listener β} (hr : Reaches l' l'') {n : Nat} (hn : n < l.threads.length) :
    l''.move? (.thread n) = none := by
  have ht := List.getElem?_eq_getElem hn
  have ho : (l.threads[n]).isOver = true := hl.isOver_of_watched hc rfl rfl ht
  obtain ⟨t', ht', hinner'⟩ := move?_keeps_over hm ht ho
  have ho' : t'.isOver = true := by rw [CaptureThread.isOver_eq_of_inner_eq hinner', ho]
  obtain ⟨t'', ht'', hinner''⟩ := hr.keeps_over ht' ho'
  have ho'' : t''.isOver = true := by rw [CaptureThread.isOver_eq_of_inner_eq hinner'', ho']
  simp [move?, ht'', CaptureThread.move?_of_isOver ho'']

/-- Only a start without a callback is answered as such without having had the lock. -/
theorem eq_start_none_of_enter {c : Nat} {call : Call} {outcome : Except CaptureError Unit}
    (hlt : c < l.callers.length) (h : l.enter c call = some l')
    (hc : l'.callers[c]? = some (.replied (.started outcome))) : call = .start none := by
  have told : ∀ {k : Listener β} {p : Phase}, some (k.withCaller c p) = some l' →
      k.callers.length = l.callers.length → p = .replied (.started outcome) := by
    intro k p hk hlen
    cases hk
    rw [withCaller, List.getElem?_set_self (hlen ▸ hlt), Option.some.injEq] at hc
    exact hc
  cases call with
  | start callback? =>
    cases callback? with
    | none => rfl
    | some callback =>
      simp only [enter] at h
      split at h
      · cases told h rfl
      · cases h
  | stop =>
    simp only [enter] at h
    split at h
    · split at h
      · cases told h rfl
      · cases told h rfl
    · cases h
  | isListening => cases told h rfl
  | inject event =>
    simp only [enter, reply] at h
    split at h
    · cases told h rfl
    · split at h
      · cases told h rfl
      · split at h
        · cases told h rfl
        · cases told h rfl
  | setFailing failing => cases told h rfl

/-- A caller with the lock is told an error only after it has lowered the flag, and given the lock
back. -/
theorem Turn.error_cases {c : Nat} {m m' : Shared} {ts ts' : List CaptureThread} {p : Phase}
    {e : CaptureError} (turn : Turn c m ts p m' ts' (.replied (.started (.error e)))) :
    (∃ call, p = .entered call) ∨
      p = .failing e ∧ m'.flag = false ∧ m'.session = m.session ∧ m'.holder = none ∧ ts' = ts := by
  cases turn with
  | answer => exact .inl ⟨_, rfl⟩
  | fail => exact .inr ⟨rfl, rfl, rfl, rfl, rfl⟩

/-- A start that fails leaves no session behind, the flag down, and all threads at their end. -/
theorem idle_of_failed (hl : Coherent l) (hs : Settled l) {c : Nat} {p : Phase} {e : CaptureError}
    (hc : l.callers[c]? = some p) (hp : p ≠ .entered (.start none))
    (hm : l.move? (.caller c) = some l')
    (hc' : l'.callers[c]? = some (.replied (.started (.error e)))) :
    l'.shared.session = none ∧ l'.shared.flag = false ∧
      ∀ (n : Nat) (t : CaptureThread), l'.threads[n]? = some t → t.isOver = true := by
  obtain ⟨p', hp', turn⟩ := turn_of_move? hm hc
  rw [hc', Option.some.injEq] at hp'
  subst hp'
  rcases turn.error_cases with ⟨call, rfl⟩ | ⟨rfl, hf, hsession, -, hts⟩
  · have hlt : c < l.callers.length := (List.getElem?_eq_some_iff.1 hc).1
    simp only [move?, hc, Option.bind_eq_bind, Option.bind_some] at hm
    obtain rfl := eq_start_none_of_enter hlt hm hc'
    exact absurd rfl hp
  · refine ⟨hsession.trans (hs.vacant c _ hc rfl), hf, fun n t ht => ?_⟩
    rw [hts] at ht
    exact hl.isOver_of_watched hc rfl rfl ht

/-- A start without a callback is refused at once, whatever else goes on. -/
theorem move?_of_start_none {c : Nat} (hc : l.callers[c]? = some (.entered (.start none))) :
    ∃ l', l.move? (.caller c) = some l' ∧
      l'.callers[c]? = some (.replied (.started (.error .missingCallback))) ∧
      l'.shared = { l.shared with host := l.shared.host.report nullCallback } ∧
      l'.threads = l.threads := by
  have hlt : c < l.callers.length := (List.getElem?_eq_some_iff.1 hc).1
  have hm : l.move? (.caller c) = l.enter c (.start none) := by
    simp only [move?, hc, Option.bind_eq_bind, Option.bind_some, moveCaller]
  exact ⟨_, hm, List.getElem?_set_self hlt, rfl, rfl⟩

/-! ## The laws -/

/-- What can be relied on in a state of a listener. -/
structure SessionLaws (l : Listener β) : Prop where
  /-- While nobody holds the lock and no session is stored, the flag is down and all threads have
  ended. -/
  vacant : l.shared.holder = none → l.shared.session = none →
    l.shared.flag = false ∧ ∀ (n : Nat) (t : CaptureThread), l.threads[n]? = some t →
      t.isOver = true
  /-- When the flag is raised for a new session, the threads of earlier ones have moved for the last
  time, so none of them lowers it. -/
  later : ∀ (c : Nat) (callback : Callback) (l₁ : Listener β),
    l.callers[c]? = some (.raising callback) → l.move? (.caller c) = some l₁ →
    l₁.shared.flag = true ∧
      ∀ l₂, Reaches l₁ l₂ → ∀ n < l.threads.length, l₂.move? (.thread n) = none
  /-- A start that is answered with an error, other than for want of a callback, leaves no session
  behind, the flag down, and its thread at its end like all others. -/
  failed : ∀ (c : Nat) (p : Phase) (e : CaptureError) (l₁ : Listener β),
    l.callers[c]? = some p → p ≠ .entered (.start none) → l.move? (.caller c) = some l₁ →
    l₁.callers[c]? = some (.replied (.started (.error e))) →
    l₁.shared.session = none ∧ l₁.shared.flag = false ∧
      ∀ (n : Nat) (t : CaptureThread), l₁.threads[n]? = some t → t.isOver = true
  /-- A start without a callback is answered at once, and changes neither session nor flag. -/
  refused : ∀ c : Nat, l.callers[c]? = some (.entered (.start none)) →
    ∃ l₁, l.move? (.caller c) = some l₁ ∧
      l₁.callers[c]? = some (.replied (.started (.error .missingCallback))) ∧
      l₁.shared.session = l.shared.session ∧ l₁.shared.flag = l.shared.flag ∧
      l₁.threads = l.threads
  /-- A start that finds a session and the flag set goes on to look for its thread, and the session
  does not change until it has done so. -/
  found : ∀ (c : Nat) (callback : Callback) (s : Session),
    l.callers[c]? = some (.looking callback) → l.shared.session = some s → l.shared.flag = true →
    ∃ l₁, l.move? (.caller c) = some l₁ ∧ l₁.callers[c]? = some (.probing callback) ∧
      ∀ l₂, Reaches l₁ l₂ → l₂.callers[c]? = some (.probing callback) →
        l₂.shared.session = some s
  /-- If it then finds the thread there, it is answered, and keeps the session. It has spawned no
  thread and never will: every thread that comes about after it came is spawned by another caller,
  and calls the callback which that one brought. -/
  kept : ∀ (callback : Callback) (s : Session) (t : CaptureThread) (l₁ : Listener β),
    Reaches (l.request (.start (some callback))) l₁ →
    l₁.callers[l.callers.length]? = some (.probing callback) → l₁.shared.session = some s →
    l₁.threads[s.thread]? = some t → t.isOver = false →
    ∃ l₂, l₁.move? (.caller l.callers.length) = some l₂ ∧
      l₂.callers[l.callers.length]? = some (.replied (.started (.ok ()))) ∧
      l₂.shared.session = some s ∧ l₂.shared.flag = l₁.shared.flag ∧ l₂.threads = l₁.threads ∧
      ∀ l₃, Reaches l₂ l₃ → SpawnedByOthers l l.callers.length l₃
  /-- A start that finds a session which has lowered the flag, or whose thread has ended, ends that
  session first: nobody spawns a thread until it has seen the end of the old one. -/
  stale : ∀ (c : Nat) (callback : Callback) (s : Session), l.shared.session = some s →
    (l.callers[c]? = some (.looking callback) ∧ l.shared.flag = false ∨
      l.callers[c]? = some (.probing callback) ∧ l.isOver s.thread = true) →
    ∃ l₁, l.move? (.caller c) = some l₁ ∧
      l₁.callers[c]? = some (.clearing s (.restart callback)) ∧
      ∀ l₂, Reaches l₁ l₂ →
        (∃ p, l₂.callers[c]? = some p ∧ p.Reaping s callback ∧
          l₂.threads.length = l.threads.length) ∨
        ∃ t, l₂.threads[s.thread]? = some t ∧ t.isOver = true

/-- **Session, flag and thread**: the laws hold in every state that a listener can come to be in. -/
theorem session_laws {b : β} {h : Host} (hr : Reachable b h l) : SessionLaws l := by
  have hl : Coherent l := coherent_of_reachable hr
  have hs : Settled l := settled_of_reachable hr
  constructor
  case vacant =>
    intro hh hn
    exact ⟨hs.flag_eq_false hl hh hn, fun n t ht => hl.isOver_of_no_session hh hn ht⟩
  case later =>
    intro c callback l₁ hc hm
    obtain ⟨p', -, turn⟩ := turn_of_move? hm hc
    exact ⟨turn.flag_of_raising, fun l₂ hr₂ n hn => move?_eq_none_of_raising hl hc hm hr₂ hn⟩
  case failed =>
    intro c p e l₁ hc hp hm hc₁
    exact idle_of_failed hl hs hc hp hm hc₁
  case refused =>
    intro c hc
    obtain ⟨l₁, hm, hc₁, hshared, hts⟩ := move?_of_start_none hc
    exact ⟨l₁, hm, hc₁, by rw [hshared], by rw [hshared], hts⟩
  case found =>
    intro c callback s hc hsession hf
    obtain ⟨l₁, hm, hc₁, hshared, -⟩ := move?_of_raised hc hsession hf
    refine ⟨l₁, hm, hc₁, fun l₂ hr₂ hc₂ => ?_⟩
    rw [← hshared] at hsession
    exact session_of_probing (coherent_of_move? hl hm) hc₁ hsession hr₂ hc₂
  case kept =>
    intro callback s t l₁ hr₁ hc hsession ht ho
    obtain ⟨l₂, hm, hc₂, hshared, hts⟩ := move?_of_live hc hsession ht ho
    have hreach : Reaches l l₁ := .trans (.request _ (.refl l)) hr₁
    have hl₁ : Coherent l₁ := hreach.coherent hl
    have hspawned := spawnedByOthers_of_undecided hl hr₁ hc .probing
    refine ⟨l₂, hm, hc₂, by rw [hshared, hsession], by rw [hshared], hts, fun l₃ hr₃ => ?_⟩
    have hspawned₂ := hspawned.move hreach hm fun callback' hspawning => by
      rw [hc, Option.some.injEq] at hspawning
      cases hspawning
    exact spawnedByOthers_of_replied (coherent_of_move? hl₁ hm) (.move _ hreach hm) hc₂ hspawned₂
      hr₃
  case stale =>
    intro c callback s hsession hc
    obtain ⟨l₁, hm, hc₁, hts⟩ := move?_of_stale hsession hc
    have hlt : s.thread < l₁.threads.length := by
      rw [hts]
      exact (known_of_reachable hr).session s hsession
    refine ⟨l₁, hm, hc₁, fun l₂ hr₂ => ?_⟩
    rw [← hts]
    exact reaping_of_reaches (coherent_of_move? hl hm) hc₁ .clearing hlt hr₂

/-- A listener that two callers told to start, with a session that ends at once. -/
def shortLived : Listener ScriptedMechanism :=
  (request { backend := {} } (.start (some {}))).request (.start (some {}))

/-- The moves until the session of the first caller is stored and its thread has lowered the flag,
but not ended; then the second caller takes the lock. -/
def movesToEnd : List Mover :=
  List.replicate 4 (.caller 0) ++ [.thread 0, .caller 0, .caller 0] ++
    List.replicate 3 (.thread 0) ++ [.caller 1]

/-- The second caller ends the session of the first one, and there is no second thread before the
first one has ended. -/
theorem session_laws_shortLived :
    ∃ l l₁ : Listener ScriptedMechanism,
      shortLived.follow movesToEnd = some l ∧ Reachable shortLived.backend {} l ∧
      l.shared.session = some ⟨0, none⟩ ∧ l.isOver 0 = false ∧
      l.move? (.caller 1) = some l₁ ∧ ∀ l₂, Reaches l₁ l₂ →
        l₂.threads.length = 1 ∨ ∃ t, l₂.threads[0]? = some t ∧ t.isOver = true := by
  have hl : shortLived.follow movesToEnd = some _ := rfl
  have hr : Reachable shortLived.backend {} _ :=
    .trans (.request _ (.request _ (.refl _))) (reaches_of_follow _ hl)
  obtain ⟨l₁, hm, -, hjoin⟩ := (session_laws hr).stale 1 {} ⟨0, none⟩ rfl (.inl ⟨rfl, rfl⟩)
  refine ⟨_, l₁, hl, hr, rfl, rfl, hm, fun l₂ hr₂ => ?_⟩
  rcases hjoin l₂ hr₂ with ⟨p, -, -, hlen⟩ | hover
  · exact .inl hlen
  · exact .inr hover

end Listener

end Keystroke
