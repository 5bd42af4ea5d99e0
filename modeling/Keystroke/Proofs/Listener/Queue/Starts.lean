import Keystroke.Proofs.Listener.Queue.Threads

/-!
# The starts of a listener

A start takes its callback along until it has a thread for it. What has become of a start, and whose
callback each thread has, is worked out here from the history of the listener.

## Main statements

- `Turn.standing`: a caller that starts a session gets one thread, and later the session.
- `Authored`: what a history tells of the starts; `authored_request`, `authored_of_turn` and
  `authored_of_thread` say that it goes on to be so.
-/

namespace Keystroke

namespace Listener

open History (startOf startOf_append startOf_seen_of_ne)
open QueueMechanism (Serving)

variable {l l' : Listener QueueMechanism} {hs : List Happening}

/-- What has become so far of the start of the caller `c` at the phase. A caller that was told
something may have asked for anything. -/
def Standing (hs : List Happening) (c : Nat) : Phase → Prop
  | .awaiting n | .installing n _ => startOf c hs = [.spawned c n]
  | .dropping .. | .collecting .. => False
  | .replied _ => True
  | _ => startOf c hs = []

/-- What a history tells of the callers of a listener: what has become of their starts, and whose
callback each thread has. -/
structure Authored (hs : List Happening) (l : Listener QueueMechanism) : Prop where
  asked : ∀ (c : Nat) (p : Phase) (callback : Callback), l.callers[c]? = some p →
    p.callback? = some callback → .asked c (.start (some callback)) ∈ hs
  absent : ∀ c, l.callers.length ≤ c → startOf c hs = []
  standing : ∀ (c : Nat) (p : Phase), l.callers[c]? = some p → Standing hs c p
  began : ∀ c n, .began c n ∈ hs → startOf c hs = [.spawned c n, .began c n]
  author : ∀ (n : Nat) (t : CaptureThread), l.threads[n]? = some t →
    ∃ c, .asked c (.start (some t.callback)) ∈ hs ∧ ∀ k, .spawned k n ∈ hs ↔ k = c

theorem authored_init (failing : Bool) (h : Host) :
    Authored []
      ({ backend := { failing }, shared := { host := h } } : Listener QueueMechanism) where
  asked c p callback hc := by simp at hc
  absent c _ := rfl
  standing c p hc := by simp at hc
  began c n hx := by simp at hx
  author n t ht := by simp at ht

section Turn

variable {c : Nat} {m m' : Shared} {ts ts' : List CaptureThread} {p p' : Phase}

theorem Turn.spawned {callback : Callback} {n : Nat}
    (turn : Turn c m ts (.spawning callback) m' ts' (.awaiting n)) : n = ts.length := by
  cases turn
  rfl

/-- A caller that waits for its thread will see it ready. -/
theorem Turn.standing (turn : Turn c m ts p m' ts' p') (h : Standing hs c p)
    (hready : ∀ n, p = .awaiting n → ∃ t, ts[n]? = some t ∧ Serving t.stage t.report) :
    Standing (hs ++ (p.seen c p').toList) c p' := by
  have hserving : ∀ {n t}, ts[n]? = some t → p = .awaiting n → Serving t.stage t.report := by
    intro n t ht hp
    obtain ⟨u, hu, hserving⟩ := hready n hp
    rw [ht, Option.some.injEq] at hu
    exact hu ▸ hserving
  cases turn with
  | answer | keep | fail | install | lower => trivial
  | absent hn =>
    obtain ⟨t, ht, -⟩ := hready _ rfl
    rw [hn] at ht
    cases ht
  | failed hn hr =>
    have hs := hserving hn rfl
    rw [hr] at hs
    exact absurd hs QueueMechanism.not_serving_error
  | silent hn hr ha =>
    rw [QueueMechanism.isAlive_of_report (hserving hn rfl) hr] at ha
    cases ha
  | drop | collect => exact h.elim
  | spawn callback program =>
    change startOf c (hs ++ [.spawned c ts.length]) = [.spawned c ts.length]
    rw [startOf_append, show startOf c hs = [] from h]
    simp [startOf, Happening.isStart]
  | _ =>
    change startOf c (hs ++ []) = _
    rw [List.append_nil]
    exact h

end Turn

theorem standing_congr {hs' : List Happening} {c : Nat} {p : Phase}
    (h : startOf c hs' = startOf c hs) : Standing hs' c p ↔ Standing hs c p := by
  cases p <;> simp [Standing, h]

/-- Only a caller that was told something may have begun a session. -/
theorem replied_of_standing {c : Nat} {p : Phase} {x y : Happening} (h : Standing hs c p)
    (hxy : startOf c hs = [x, y]) : ∃ r, p = .replied r := by
  cases p <;> simp_all [Standing]

theorem authored_request (h : Authored hs l) (call : Call) :
    Authored (hs ++ [.asked l.callers.length call]) (l.request call) := by
  have hstart : ∀ c, startOf c (hs ++ [.asked l.callers.length call]) = startOf c hs := by
    intro c
    rw [startOf_append]
    simp [startOf, Happening.isStart]
  constructor
  · intro c p callback hc hcallback
    rw [getElem?_callers_request] at hc
    split at hc
    next heq =>
      cases hc
      cases call with
      | start brought =>
        obtain rfl : brought = some callback := hcallback
        simp [heq]
      | stop | isListening | inject | setFailing => cases hcallback
    next => exact List.mem_append_left _ (h.asked c p callback hc hcallback)
  · intro c hc
    rw [hstart]
    apply h.absent c
    have hlen : (l.request call).callers.length = l.callers.length + 1 := List.length_append
    omega
  · intro c p hc
    rw [standing_congr (hstart c)]
    rw [getElem?_callers_request] at hc
    split at hc
    next heq =>
      cases hc
      exact h.absent c (Nat.le_of_eq heq.symm)
    next => exact h.standing c p hc
  · intro c n hx
    rw [hstart]
    exact h.began c n (by simpa using hx)
  · intro n t ht
    obtain ⟨c, hasked, hauthor⟩ := h.author n t ht
    refine ⟨c, List.mem_append_left _ hasked, fun k => ?_⟩
    rw [← hauthor k]
    simp

theorem authored_of_turn (h : Authored hs l) (hserved : Served hs l) (hknown : Known l) {c : Nat}
    {p p' : Phase} (hc : l.callers[c]? = some p) (hcs : l'.callers = l.callers.set c p')
    (turn : Turn c l.shared l.threads p l'.shared l'.threads p') :
    Authored (hs ++ (p.seen c p').toList) l' := by
  have hlt : c < l.callers.length := (List.getElem?_eq_some_iff.1 hc).1
  have hself : l'.callers[c]? = some p' := by rw [hcs, List.getElem?_set_self hlt]
  have hother : ∀ k, k ≠ c → l'.callers[k]? = l.callers[k]? ∧
      startOf k (hs ++ (p.seen c p').toList) = startOf k hs := by
    intro k hk
    constructor
    · rw [hcs, List.getElem?_set_ne (Ne.symm hk)]
    · rw [startOf_append, startOf_seen_of_ne hk, List.append_nil]
  constructor
  · intro k q callback hk hcallback
    apply List.mem_append_left
    by_cases hkc : k = c
    · rw [hkc, hself, Option.some.injEq] at hk
      rw [← hk] at hcallback
      exact hkc ▸ h.asked c p callback hc (turn.callback? hcallback)
    · rw [(hother k hkc).1] at hk
      exact h.asked k q callback hk hcallback
  · intro k hk
    rw [hcs, List.length_set] at hk
    have hkc : k ≠ c := by omega
    rw [(hother k hkc).2]
    exact h.absent k hk
  · intro k q hk
    by_cases hkc : k = c
    · rw [hkc, hself, Option.some.injEq] at hk
      rw [hkc, ← hk]
      apply turn.standing (h.standing c p hc)
      rintro n rfl
      have hn := hknown.callers c _ n hc rfl
      exact ⟨l.threads[n], List.getElem?_eq_getElem hn,
        (hserved.thread n _ (List.getElem?_eq_getElem hn)).serving⟩
    · rw [(hother k hkc).1] at hk
      exact (standing_congr (hother k hkc).2).2 (h.standing k q hk)
  · intro k n hx
    rcases List.mem_append.1 hx with hbegun | hbegins
    · -- a caller whose session has begun was told so, and moves no more
      have hkc : k ≠ c := by
        rintro rfl
        obtain ⟨r, rfl⟩ := replied_of_standing (h.standing k p hc) (h.began k n hbegun)
        exact not_turn_of_replied turn
      rw [(hother k hkc).2]
      exact h.began k n hbegun
    · have hseen := Option.mem_toList.1 hbegins
      obtain ⟨rfl, waker, rfl⟩ := Phase.eq_of_seen_began hseen
      rw [startOf_append, show startOf k hs = [.spawned k n] from h.standing k _ hc, hseen]
      simp [startOf, Happening.isStart]
  · intro n t' ht'
    obtain ⟨t, ht, hi⟩ | ⟨⟨callback, rfl⟩, rfl, rfl⟩ := turn.thread ht'
    · obtain ⟨k, hasked, hauthor⟩ := h.author n t ht
      refine ⟨k, ?_, fun j => ?_⟩
      · rw [CaptureThread.callback_eq_of_inner_eq hi]
        exact List.mem_append_left _ hasked
      · rw [← hauthor j, List.mem_append, or_iff_left_iff_imp]
        intro hx
        obtain ⟨-, ⟨callback, rfl⟩, rfl⟩ := Phase.eq_of_seen_spawned (Option.mem_toList.1 hx)
        -- the thread that is spawned was not there before
        rw [turn.spawned, List.getElem?_eq_none (Nat.le_refl _)] at ht
        cases ht
    · have hlen := (List.getElem?_eq_some_iff.1 ht').1
      obtain ⟨⟨callback', hp, hcallback⟩, -⟩ := turn.spawns hlen
      cases hp
      refine ⟨c, ?_, fun k => ?_⟩
      · rw [hcallback t' ht']
        exact List.mem_append_left _ (h.asked c _ callback hc rfl)
      · have hnew : .spawned k l.threads.length ∉ hs := fun hx =>
          Nat.lt_irrefl _ (hserved.known _ hx _ rfl)
        simp [Phase.seen, hnew]

theorem authored_of_thread (h : Authored hs l) {n : Nat} {t t' : CaptureThread}
    {m m' : Shared} (ht : l.threads[n]? = some t) (hm : t.move? n m = some (m', t'))
    (hcs : l'.callers = l.callers) (hts : l'.threads = l.threads.set n t') :
    Authored (hs ++ (t.seen n t').toList) l' := by
  have hseen : ∀ x ∈ (t.seen n t').toList, ∀ c,
      Happening.isStart c x = false ∧ (∀ k j, x ≠ .spawned k j) ∧ ∀ k j, x ≠ .began k j := by
    intro x hx c
    obtain ⟨event, rfl⟩ | rfl := CaptureThread.seen_cases (Option.mem_toList.1 hx) <;>
      exact ⟨rfl, nofun, nofun⟩
  have hstart : ∀ c, startOf c (hs ++ (t.seen n t').toList) = startOf c hs := by
    intro c
    rw [startOf_append, List.append_right_eq_self, startOf, List.filter_eq_nil_iff]
    intro x hx
    simp [(hseen x hx c).1]
  constructor
  · intro c p callback hc hcallback
    rw [hcs] at hc
    exact List.mem_append_left _ (h.asked c p callback hc hcallback)
  · intro c hc
    rw [hstart]
    exact h.absent c (hcs ▸ hc)
  · intro c p hc
    rw [hcs] at hc
    exact (standing_congr (hstart c)).2 (h.standing c p hc)
  · intro c k hx
    rw [hstart]
    rcases List.mem_append.1 hx with hx | hx
    · exact h.began c k hx
    · exact absurd rfl ((hseen _ hx c).2.2 c k)
  · intro k u' hu'
    have hcallback : ∃ u, l.threads[k]? = some u ∧ u'.callback = u.callback := by
      have hlt : n < l.threads.length := (List.getElem?_eq_some_iff.1 ht).1
      rw [hts] at hu'
      by_cases hk : n = k
      · rw [← hk, List.getElem?_set_self hlt, Option.some.injEq] at hu'
        rw [← hk, ← hu']
        exact ⟨t, ht, (CaptureThread.calls_of_move? hm).1⟩
      · rw [List.getElem?_set_ne hk] at hu'
        exact ⟨u', hu', rfl⟩
    obtain ⟨u, hu, hcallback⟩ := hcallback
    obtain ⟨c, hasked, hauthor⟩ := h.author k u hu
    refine ⟨c, ?_, fun j => ?_⟩
    · rw [hcallback]
      exact List.mem_append_left _ hasked
    · rw [← hauthor j, List.mem_append, or_iff_left_iff_imp]
      intro hx
      exact absurd rfl ((hseen _ hx c).2.1 j k)

end Listener

end Keystroke
