import Keystroke.Capture.Queue
import Keystroke.Proofs.Capture.Traces
import Keystroke.Proofs.Listener.History

/-!
# The threads of a queue

A listener over a queue has one inlet for all of its sessions. It leads to the inbox of the session
that was installed last, also when that session is over and while another one is being started. What
the threads have got and what they have taken is worked out here from the history of the listener.

## Main statements

- `serving_of_move?`: the thread of a session delivers what is in its inbox, in order.
- `effect_of_moveCaller`: what a move of a caller does to the inlet and to the inboxes.
- `Served`: what a history tells of the threads; `Served.accept`, `Served.spawn`, `Served.install`
  and `Served.move` say that it goes on to be so.
-/

namespace Keystroke

open CaptureThread (invocation)

/-! ## The thread of a session -/

namespace QueueMechanism

/-- Where the thread of a session can be, and what it has reported by then. -/
inductive Serving : Stage → Option (Except CaptureError (Option Entry)) → Prop where
  | beginning : Serving (.body program) none
  | serving : Serving (.body (.serve (.done ()))) (some (.ok none))
  | receiving : Serving (.receiving (.done ())) (some (.ok none))
  | calling (acts : List Act) (noted : Heard) :
      Serving (.calling acts noted (.serve (.done ()))) (some (.ok none))
  | done : Serving (.body (.done ())) (some (.ok none))
  | leaving : Serving .leaving (some (.ok none))
  | ending : Serving .ending (some (.ok none))
  | over (panicked : Bool) : Serving (.over panicked) (some (.ok none))

variable {self : Nat} {m m' : Shared} {t t' : CaptureThread}

theorem not_serving_error {stage : Stage} {e : CaptureError} :
    ¬ Serving stage (some (.error e)) := nofun

/-- A thread that has reported nothing has yet to begin its program. -/
theorem isAlive_of_report (hs : Serving t.stage t.report) (hr : t.report = none) :
    t.isAlive = true := by
  generalize hstage : t.stage = stage at hs
  generalize t.report = report at hs hr
  cases hs <;> cases hr
  simp [CaptureThread.isAlive, hstage]

theorem serving_of_moveCall {acts : List Act} {noted : Heard}
    (hr : t.report = some (.ok none))
    (hm : t.moveCall self m noted (.serve (.done ())) acts = some (m', t')) :
    Serving t'.stage t'.report ∧ t'.inbox = t.inbox ∧ t'.taken = t.taken := by
  cases acts with
  | nil =>
    cases hm
    exact ⟨hr ▸ .serving, rfl, rfl⟩
  | cons act acts =>
    cases act with
    | start =>
      simp only [CaptureThread.moveCall] at hm
      split at hm <;> cases hm
      exact ⟨hr ▸ .calling _ _, rfl, rfl⟩
    | cause | stop | look | note =>
      cases hm
      exact ⟨hr ▸ .calling _ _, rfl, rfl⟩
    | panic =>
      cases hm
      exact ⟨hr ▸ .over true, rfl, rfl⟩

/-- A thread that calls its callback has not come to the end of its program. -/
theorem isAlive_of_invocation (hs : Serving t.stage t.report) (hm : t.move? self m = some (m', t'))
    (h : t.invocation ≠ []) : t.isAlive = true ∧ t'.isAlive = true := by
  generalize hstage : t.stage = stage at hs
  generalize t.report = report at hs
  cases hs
  case receiving =>
    simp only [CaptureThread.move?, hstage] at hm
    split at hm
    next =>
      cases hm
      simp [CaptureThread.isAlive, CaptureThread.call, hstage]
    next hpending => simp [invocation, hstage, hpending] at h
  all_goals simp [invocation, hstage, program] at h

/-- The thread of a session delivers what is in its inbox, in order. -/
theorem serving_of_move? (hs : Serving t.stage t.report) (hm : t.move? self m = some (m', t')) :
    Serving t'.stage t'.report ∧ t'.inbox = t.inbox ∧
      t'.taken = t.taken + t.invocation.length ∧ t.invocation <+: t.pending := by
  -- only a thread that is receiving takes something from its inbox
  have hquiet : t.invocation = [] → Serving t'.stage t'.report → t'.inbox = t.inbox →
      t'.taken = t.taken → Serving t'.stage t'.report ∧ t'.inbox = t.inbox ∧
        t'.taken = t.taken + t.invocation.length ∧ t.invocation <+: t.pending := by
    intro hnone hserving hinbox htaken
    rw [hnone]
    exact ⟨hserving, hinbox, htaken, List.nil_prefix⟩
  generalize hstage : t.stage = stage at hs
  generalize hreport : t.report = report at hs
  cases hs <;> simp only [CaptureThread.move?, hstage] at hm
  case beginning =>
    cases hm
    apply hquiet (by simp [invocation, hstage, program]) ?_ rfl rfl
    rw [hreport]
    exact .serving
  case serving =>
    cases hm
    apply hquiet (by simp [invocation, hstage]) ?_ rfl rfl
    simp only [CaptureThread.goto, hreport]
    cases m.flag
    · exact .done
    · exact .receiving
  case receiving =>
    split at hm
    next event later hpending =>
      cases hm
      have hone : t.invocation = [event] := by simp [invocation, hstage, hpending]
      rw [hone, hpending]
      refine ⟨?_, rfl, rfl, by simp⟩
      simp only [CaptureThread.call, hreport]
      exact .calling _ _
    next hpending =>
      split at hm <;> cases hm
      exact hquiet (by simp [invocation, hstage, hpending]) (hreport ▸ .done) rfl rfl
  case calling acts noted =>
    obtain ⟨hserving, hinbox, htaken⟩ := serving_of_moveCall hreport hm
    exact hquiet (by simp [invocation, hstage]) hserving hinbox htaken
  case done =>
    cases hm
    exact hquiet (by simp [invocation, hstage]) (hreport ▸ .leaving) rfl rfl
  case leaving =>
    cases hm
    exact hquiet (by simp [invocation, hstage]) (hreport ▸ .ending) rfl rfl
  case ending =>
    cases hm
    exact hquiet (by simp [invocation, hstage]) (hreport ▸ .over false) rfl rfl
  next => cases hm

end QueueMechanism

/-! ## What a move of a caller does -/

/-- The thread without the request to quit, which the thread of a session does not look at. -/
def CaptureThread.calm (t : CaptureThread) : CaptureThread := { t with quit := false }

namespace Listener

/-- A move of the caller `c` from a phase: what it does to the inlet, to the threads and to the
callers. -/
inductive Effect (c : Nat) (l : Listener QueueMechanism) :
    Phase → Listener QueueMechanism → Prop where
  | accept {n : Nat} {t : CaptureThread} (event : KeyEvent) (hn : l.backend.latest = some n)
      (ht : l.threads[n]? = some t) (ha : t.isAlive = true) :
      Effect c l (.entered (.inject event))
        ((l.withThread n { t with inbox := t.inbox ++ [event] }).reply c (.injected true))
  | spawn (callback : Callback) : Effect c l (.spawning callback)
      ((l.spawn QueueMechanism.program callback).withCaller c (.awaiting l.threads.length))
  | install {l' : Listener QueueMechanism} (n : Nat) (waker : Option Entry)
      (hlatest : l'.backend.latest = some n) (hthreads : l'.threads = l.threads)
      (hcs : l'.callers = l.callers.set c (.replied (.started (.ok ())))) :
      Effect c l (.installing n waker) l'
  | other {p p' : Phase} {l' : Listener QueueMechanism}
      (hlatest : l'.backend.latest = l.backend.latest)
      (hthreads : l'.threads.map (·.calm) = l.threads.map (·.calm))
      (hcs : l'.callers = l.callers.set c p')
      (hquiet : ∀ x ∈ p.seen c p', x.isQuiet = true) : Effect c l p l'

variable {l l' : Listener QueueMechanism} {c : Nat}

theorem effect_of_enter {call : Call} (hm : l.enter c call = some l') :
    Effect c l (.entered call) l' := by
  match call with
  | .start none =>
    cases hm
    exact .other rfl rfl rfl (by simp [Phase.seen, Happening.isQuiet])
  | .start (some callback) =>
    simp only [enter] at hm
    split at hm <;> cases hm
    exact .other rfl rfl rfl (by simp [Phase.seen])
  | .stop =>
    simp only [enter] at hm
    split at hm
    · split at hm <;> cases hm <;> exact .other rfl rfl rfl (by simp [Phase.seen])
    · cases hm
  | .isListening | .setFailing _ =>
    cases hm
    exact .other rfl rfl rfl (by simp [Phase.seen])
  | .inject event =>
    have hrejected : ∀ {k : Listener QueueMechanism}, k = l.reply c (.injected false) →
        Effect c l (.entered (.inject event)) k := by
      rintro k rfl
      exact .other rfl rfl rfl (by simp [Phase.seen, Happening.isQuiet])
    simp only [enter] at hm
    split at hm
    next => exact hrejected (Option.some.inj hm).symm
    next n hn =>
      split at hm
      next => exact hrejected (Option.some.inj hm).symm
      next t ht =>
        split at hm
        next ha =>
          cases hm
          exact .accept event hn ht ha
        next => exact hrejected (Option.some.inj hm).symm

/-- Each move of a caller has one of the effects. -/
theorem effect_of_moveCaller {p : Phase} (hm : l.moveCaller c p = some l') :
    Effect c l p l' := by
  cases p with
  | entered call => exact effect_of_enter hm
  | looking callback =>
    simp only [moveCaller] at hm
    split at hm
    · cases hm
      exact .other rfl rfl rfl (by simp [Phase.seen])
    · split at hm <;> cases hm <;> exact .other rfl rfl rfl (by simp [Phase.seen])
  | probing callback =>
    simp only [moveCaller] at hm
    split at hm
    · cases hm
      exact .other rfl rfl rfl (by simp [Phase.seen])
    · split at hm <;> cases hm <;>
        exact .other rfl rfl rfl (by simp [Phase.seen, Happening.isQuiet])
  | waking s purpose =>
    simp only [moveCaller] at hm
    split at hm
    next =>
      cases hm
      exact .other rfl rfl rfl (by simp [Phase.seen])
    next =>
      cases ht : l.threads[s.thread]? <;> simp only [ht] at hm <;> cases hm
      · exact .other rfl rfl rfl (by simp [Phase.seen])
      · exact .other rfl (map_set_of_eq ht rfl) rfl (by simp [Phase.seen])
  | joining s purpose =>
    simp only [moveCaller] at hm
    split at hm
    · split at hm <;> cases hm <;> exact .other rfl rfl rfl (by simp [Phase.seen])
    · cases hm
  | spawning callback =>
    simp only [moveCaller, CaptureMechanism.openSession] at hm
    cases hfailing : l.backend.failing with
    | true =>
      simp only [hfailing, if_true] at hm
      cases hm
      exact .other rfl rfl rfl (by simp [Phase.seen])
    | false =>
      simp only [hfailing, Bool.false_eq_true, if_false] at hm
      cases hm
      exact .spawn callback
  | awaiting n =>
    simp only [moveCaller] at hm
    split at hm
    · cases hm
      exact .other rfl rfl rfl (by simp [Phase.seen])
    · split at hm
      · cases hm
        exact .other rfl rfl rfl (by simp [Phase.seen])
      · cases hm
        exact .other rfl rfl rfl (by simp [Phase.seen])
      · split at hm <;> cases hm
        exact .other rfl rfl rfl (by simp [Phase.seen])
  | collecting n e =>
    simp only [moveCaller] at hm
    split at hm <;> cases hm
    exact .other rfl rfl rfl (by simp [Phase.seen])
  | installing n waker =>
    cases hm
    exact .install n waker rfl rfl rfl
  | clearing | raising | dropping =>
    cases hm
    exact .other rfl rfl rfl (by simp [Phase.seen])
  | failing | lowering =>
    cases hm
    exact .other rfl rfl rfl (by simp [Phase.seen, Happening.isQuiet])
  | replied r => cases hm

/-! ## What a history tells of the threads -/

open Happening (begins ends called?)
open History
open QueueMechanism (Serving)

/-- What a history tells of the thread `n`: whether its program is over, what was put into its inbox
and what it has taken from there. -/
structure ThreadServed (hs : List Happening) (n : Nat) (t : CaptureThread) : Prop where
  serving : Serving t.stage t.report
  ended : hs.any (ends n) = !t.isAlive
  inbox : acceptedIn n hs = t.inbox
  taken : calledBy n hs = t.inbox.take t.taken
  le : t.taken ≤ t.inbox.length

/-- What a history tells of the threads of a listener and of its inlet. -/
structure Served (hs : List Happening) (l : Listener QueueMechanism) : Prop where
  thread : ∀ (n : Nat) (t : CaptureThread), l.threads[n]? = some t → ThreadServed hs n t
  known : ∀ x ∈ hs, ∀ n, x.thread? = some n → n < l.threads.length
  latest : ∀ n, l.backend.latest = some n → n < l.threads.length
  isOpen_iff : ∀ n, isOpen n hs = true ↔
    l.backend.latest = some n ∧ hs.any (ends n) = false

variable {hs : List Happening} {x : Happening} {n : Nat} {t t' : CaptureThread}

/-- An entry changes nothing of what is known of a thread if it neither ends it nor is a call by it
nor puts something into its inbox. -/
theorem ThreadServed.pass (h : ThreadServed hs n t) (hend : ends n x = false)
    (hcall : called? n x = none) (hevent : x.accepted? = none ∨ isOpen n hs = false) :
    ThreadServed (hs ++ [x]) n t where
  serving := h.serving
  ended := by rw [any_ends_concat hend, h.ended]
  inbox := by
    rw [acceptedIn_concat, ← h.inbox]
    rcases hevent with hnone | hclosed
    · simp [hnone]
    · simp [hclosed]
  taken := by
    rw [calledBy_concat, hcall, ← h.taken]
    simp
  le := h.le

/-- To ask a thread to quit changes nothing of what is known of it. -/
theorem ThreadServed.congr (h : ThreadServed hs n t) (heq : t.calm = t'.calm) :
    ThreadServed hs n t' := by
  have hcalm : t.calm.stage = t'.calm.stage ∧ t.calm.report = t'.calm.report ∧
      t.calm.inbox = t'.calm.inbox ∧ t.calm.taken = t'.calm.taken := by
    rw [heq]
    exact ⟨rfl, rfl, rfl, rfl⟩
  obtain ⟨hstage, hreport, hinbox, htaken⟩ := hcalm
  simp only [CaptureThread.calm] at hstage hreport hinbox htaken
  constructor
  · rw [← hstage, ← hreport]
    exact h.serving
  · rw [h.ended, CaptureThread.isAlive, hstage, CaptureThread.isAlive]
  · rw [← hinbox, h.inbox]
  · rw [← hinbox, ← htaken, h.taken]
  · rw [← hinbox, ← htaken]
    exact h.le

/-- An event is put into the inbox of a thread whose session is open. -/
theorem ThreadServed.accept (h : ThreadServed hs n t) (hopen : isOpen n hs = true) (c : Nat)
    (event : KeyEvent) : ThreadServed (hs ++ [.accepted c event]) n
      { t with inbox := t.inbox ++ [event] } where
  serving := h.serving
  ended := by
    rw [any_ends_concat rfl, h.ended]
    rfl
  inbox := by
    rw [acceptedIn_concat, hopen, h.inbox]
    rfl
  taken := by
    rw [calledBy_concat, h.taken, List.take_append_of_le_length h.le]
    simp [called?]
  le := by
    have hle := h.le
    simp only [List.length_append]
    omega

/-- What is known of a thread after it has moved itself. -/
theorem ThreadServed.move (h : ThreadServed hs n t) {m m' : Shared}
    (hm : t.move? n m = some (m', t')) : ThreadServed (hs ++ (t.seen n t').toList) n t' := by
  obtain ⟨hserving, hinbox, htaken, hprefix⟩ := QueueMechanism.serving_of_move? h.serving hm
  have hle : t.invocation.length ≤ t.inbox.length - t.taken := by
    have hlen := hprefix.length_le
    rwa [CaptureThread.pending, List.length_drop] at hlen
  have htake : t'.inbox.take t'.taken = t.inbox.take t.taken ++ t.invocation := by
    rw [hinbox, htaken, List.take_add, List.append_cancel_left_eq]
    exact (List.prefix_iff_eq_take.1 hprefix).symm
  have hle' : t'.taken ≤ t'.inbox.length := by
    have hbefore := h.le
    rw [hinbox, htaken]
    omega
  -- a call of the callback is seen as such, and of other moves only the end of the program is
  rcases t.invocation_cases with hnone | ⟨event, hone⟩
  · rw [hnone, List.append_nil] at htake
    cases hend : t.isAlive && !t'.isAlive with
    | true =>
      have hseen : t.seen n t' = some (.ended n) := by
        simp only [CaptureThread.seen, hnone, hend, if_true]
      rw [Bool.and_eq_true, Bool.not_eq_true'] at hend
      rw [hseen, Option.toList_some]
      refine ⟨hserving, ?_, ?_, ?_, hle'⟩
      · simp [ends, hend.2]
      · rw [acceptedIn_concat_of_none rfl, h.inbox, hinbox]
      · rw [calledBy_concat_of_none rfl, h.taken, htake]
    | false =>
      have hseen : t.seen n t' = none := by
        simp only [CaptureThread.seen, hnone, hend, Bool.false_eq_true, if_false]
      have halive : t.isAlive = t'.isAlive := by
        cases halive' : t'.isAlive with
        | true => exact CaptureThread.isAlive_of_move? hm halive'
        | false => simpa [halive'] using hend
      rw [hseen, Option.toList_none, List.append_nil]
      exact ⟨hserving, by rw [h.ended, halive], by rw [h.inbox, hinbox], by rw [h.taken, htake],
        hle'⟩
  · have hseen : t.seen n t' = some (.called n event) := by
      rw [CaptureThread.seen, hone]
    obtain ⟨halive, halive'⟩ :=
      QueueMechanism.isAlive_of_invocation h.serving hm (by simp [hone])
    rw [hseen, Option.toList_some]
    refine ⟨hserving, ?_, ?_, ?_, hle'⟩
    · rw [any_ends_concat rfl, h.ended, halive, halive']
    · rw [acceptedIn_concat_of_none rfl, h.inbox, hinbox]
    · rw [calledBy_concat, h.taken, htake, hone]
      simp [called?]

theorem served_init (failing : Bool) (h : Host) :
    Served [] ({ backend := { failing }, shared := { host := h } } : Listener QueueMechanism) where
  thread n t ht := by simp at ht
  known x hx := by simp at hx
  latest n hn := by cases hn
  isOpen_iff n := by simp [isOpen]

/-- The inlet leads to a thread that is there, as long as threads are only added. -/
theorem Served.latest_lt (h : Served hs l) (hlatest : l'.backend.latest = l.backend.latest)
    (hle : l.threads.length ≤ l'.threads.length) (n : Nat) (hn : l'.backend.latest = some n) :
    n < l'.threads.length :=
  Nat.lt_of_lt_of_le (h.latest n (hlatest ▸ hn)) hle

/-- An entry that is not about a session leaves it as open as it was. -/
theorem Served.isOpen_concat_iff (h : Served hs l) (hx : Passes n x) :
    isOpen n (hs ++ [x]) = true ↔
      l.backend.latest = some n ∧ (hs ++ [x]).any (ends n) = false := by
  rw [hx.isOpen_concat, any_ends_concat hx.noEnd]
  exact h.isOpen_iff n

/-- To ask threads to quit, and whatever is not about threads, changes nothing of what is known. -/
theorem Served.congr (h : Served hs l) (hlatest : l'.backend.latest = l.backend.latest)
    (hthreads : l'.threads.map (·.calm) = l.threads.map (·.calm)) : Served hs l' := by
  have hlen : l'.threads.length = l.threads.length := by
    simpa using congrArg List.length hthreads
  constructor
  · intro n t' ht'
    have hn : l.threads[n]?.map (·.calm) = some t'.calm := by
      rw [← List.getElem?_map, ← hthreads, List.getElem?_map, ht', Option.map_some]
    obtain ⟨t, ht, heq⟩ := Option.map_eq_some_iff.1 hn
    exact (h.thread n t ht).congr heq
  · intro y hy n hn
    rw [hlen]
    exact h.known y hy n hn
  · exact h.latest_lt hlatest (Nat.le_of_eq hlen.symm)
  · intro n
    rw [hlatest]
    exact h.isOpen_iff n

/-- The threads that a longer history speaks of. -/
theorem Served.known_concat (h : Served hs l) {k : Nat} (hle : l.threads.length ≤ k)
    (hx : ∀ n, x.thread? = some n → n < k) : ∀ y ∈ hs ++ [x], ∀ n, y.thread? = some n → n < k := by
  intro y hy n hn
  rcases List.mem_append.1 hy with hy | hy
  · exact Nat.lt_of_lt_of_le (h.known y hy n hn) hle
  · rw [List.mem_singleton.1 hy] at hn
    exact hx n hn

theorem Served.quiet (h : Served hs l) (hx : x.isQuiet = true) : Served (hs ++ [x]) l := by
  have hevent : x.accepted? = none ∧ x.thread? = none := by
    cases x <;> first | exact ⟨rfl, rfl⟩ | cases hx
  have hpass := passes_of_isQuiet hx
  constructor
  · intro n t ht
    exact (h.thread n t ht).pass (hpass n).noEnd (hpass n).noCall (.inl hevent.1)
  · apply h.known_concat (Nat.le_refl _)
    intro n hn
    rw [hevent.2] at hn
    cases hn
  · exact h.latest
  · exact fun n => h.isOpen_concat_iff (hpass n)

theorem Served.not_isOpen (h : Served hs l) {k : Nat} (hk : l.backend.latest = some k)
    (hne : n ≠ k) : isOpen n hs = false := by
  apply Bool.eq_false_iff.2
  intro hopen
  have hlatest := ((h.isOpen_iff n).1 hopen).1
  rw [hk, Option.some.injEq] at hlatest
  exact hne hlatest.symm

/-- Only the inbox of the latest session gets the event. -/
theorem Served.accept (h : Served hs l) {k : Nat} (hk : l.backend.latest = some k)
    (ht : l.threads[k]? = some t) (ha : t.isAlive = true) (c : Nat) (event : KeyEvent)
    (hlatest : l'.backend.latest = l.backend.latest)
    (hthreads : l'.threads = l.threads.set k { t with inbox := t.inbox ++ [event] }) :
    Served (hs ++ [.accepted c event]) l' := by
  have hlen : l'.threads.length = l.threads.length := by rw [hthreads, List.length_set]
  have hopen : isOpen k hs = true := by
    rw [h.isOpen_iff, (h.thread k t ht).ended, ha]
    exact ⟨hk, rfl⟩
  have hpass : ∀ n, Passes n (.accepted c event) := fun _ => ⟨rfl, rfl, rfl⟩
  constructor
  · intro n t' ht'
    rw [hthreads] at ht'
    by_cases hn : n = k
    · rw [hn, List.getElem?_set_self (h.latest k hk), Option.some.injEq] at ht'
      rw [hn, ← ht']
      exact (h.thread k t ht).accept hopen c event
    · rw [List.getElem?_set_ne (Ne.symm hn)] at ht'
      exact (h.thread n t' ht').pass rfl rfl (.inr (h.not_isOpen hk hn))
  · exact h.known_concat (Nat.le_of_eq hlen.symm) nofun
  · exact h.latest_lt hlatest (Nat.le_of_eq hlen.symm)
  · intro n
    rw [hlatest]
    exact h.isOpen_concat_iff (hpass n)

/-- Nothing is known yet of a thread that is not there. -/
theorem Served.absent (h : Served hs l) (hn : l.threads.length ≤ n) :
    hs.any (begins n) = false ∧ hs.any (ends n) = false ∧ calledBy n hs = [] := by
  have hnone : ∀ x ∈ hs, begins n x = false ∧ ends n x = false ∧ called? n x = none := by
    intro x hx
    have hknown : x.thread? ≠ some n := by
      intro hthread
      exact absurd (h.known x hx n hthread) (Nat.not_lt.2 hn)
    cases x <;> simp_all [begins, ends, called?, Happening.thread?]
  refine ⟨?_, ?_, ?_⟩
  · rw [List.any_eq_false]
    intro x hx
    simp [(hnone x hx).1]
  · rw [List.any_eq_false]
    intro x hx
    simp [(hnone x hx).2.1]
  · rw [calledBy, List.filterMap_eq_nil_iff]
    intro x hx
    exact (hnone x hx).2.2

/-- A new thread comes last, and its inbox is empty. -/
theorem Served.spawn (h : Served hs l) (c : Nat) (callback : Callback)
    (hlatest : l'.backend.latest = l.backend.latest)
    (hthreads : l'.threads =
      l.threads ++ [{ stage := .body QueueMechanism.program, callback }]) :
    Served (hs ++ [.spawned c l.threads.length]) l' := by
  have hlen : l'.threads.length = l.threads.length + 1 := by rw [hthreads, List.length_append]; rfl
  have hpass : ∀ n, Passes n (.spawned c l.threads.length) := fun _ => ⟨rfl, rfl, rfl⟩
  constructor
  · intro n t' ht'
    rw [hthreads] at ht'
    rcases Nat.lt_or_ge n l.threads.length with hlt | hge
    · rw [List.getElem?_append_left hlt] at ht'
      exact (h.thread n t' ht').pass rfl rfl (.inl rfl)
    · -- the history does not speak of the new thread yet
      rw [List.getElem?_append_right hge, List.getElem?_singleton] at ht'
      split at ht' <;> cases ht'
      obtain ⟨hbegins, hends, hcalled⟩ := h.absent hge
      refine ⟨.beginning, ?_, ?_, ?_, Nat.le_refl _⟩
      · rw [any_ends_concat rfl, hends]
        rfl
      · rw [acceptedIn_concat_of_none rfl, acceptedIn_eq_nil hbegins]
      · rw [calledBy_concat_of_none rfl, hcalled]
        rfl
  · rw [hlen]
    apply h.known_concat (Nat.le_succ _)
    rintro n ⟨⟩
    exact Nat.lt_succ_self _
  · exact h.latest_lt hlatest (hlen ▸ Nat.le_succ _)
  · intro n
    rw [hlatest]
    exact h.isOpen_concat_iff (hpass n)

/-- A session begins while no other one is open. -/
theorem Served.install (h : Served hs l) {k : Nat} (hk : k < l.threads.length)
    (hsole : ∀ n, isOpen n hs = true → n = k) (c : Nat)
    (hlatest : l'.backend.latest = some k) (hthreads : l'.threads = l.threads) :
    Served (hs ++ [.began c k]) l' := by
  constructor
  · intro n t ht
    rw [hthreads] at ht
    exact (h.thread n t ht).pass rfl rfl (.inl rfl)
  · rw [hthreads]
    apply h.known_concat (Nat.le_refl _)
    rintro n ⟨⟩
    exact hk
  · intro n hn
    rw [hlatest, Option.some.injEq] at hn
    rw [hthreads, ← hn]
    exact hk
  · intro n
    rw [any_ends_concat rfl, hlatest, Option.some.injEq]
    by_cases hn : k = n
    · rw [isOpen_concat]
      simp [begins, ends, hn]
    · -- the inlet leads elsewhere now, which closes no session as none of the others was open
      have hpass : Passes n (.began c k) := passes_of_ne rfl hn
      rw [hpass.isOpen_concat]
      constructor
      · intro hopen
        exact absurd (hsole n hopen).symm hn
      · rintro ⟨heq, -⟩
        exact absurd heq hn

/-- A thread that moves has no influence on the others, and it closes no session but its own. -/
theorem Served.move (h : Served hs l) {k : Nat} {m m' : Shared} (ht : l.threads[k]? = some t)
    (hm : t.move? k m = some (m', t')) (hlatest : l'.backend.latest = l.backend.latest)
    (hthreads : l'.threads = l.threads.set k t') :
    Served (hs ++ (t.seen k t').toList) l' := by
  have hlt : k < l.threads.length := (List.getElem?_eq_some_iff.1 ht).1
  have hlen : l'.threads.length = l.threads.length := by rw [hthreads, List.length_set]
  have hself := (h.thread k t ht).move hm
  have hthread : ∀ n u, l'.threads[n]? = some u →
      n = k ∧ u = t' ∨ k ≠ n ∧ l.threads[n]? = some u := by
    intro n u hu
    rw [hthreads] at hu
    by_cases hn : k = n
    · rw [← hn, List.getElem?_set_self hlt, Option.some.injEq] at hu
      exact .inl ⟨hn.symm, hu.symm⟩
    · rw [List.getElem?_set_ne hn] at hu
      exact .inr ⟨hn, hu⟩
  cases hseen : t.seen k t' with
  | none =>
    rw [hseen, Option.toList_none, List.append_nil] at hself
    rw [Option.toList_none, List.append_nil]
    constructor
    · intro n u hu
      obtain ⟨rfl, rfl⟩ | ⟨-, hu⟩ := hthread n u hu
      · exact hself
      · exact h.thread n u hu
    · intro y hy n hn
      rw [hlen]
      exact h.known y hy n hn
    · exact h.latest_lt hlatest (Nat.le_of_eq hlen.symm)
    · intro n
      rw [hlatest]
      exact h.isOpen_iff n
  | some x =>
    have habout : x.thread? = some k ∧ x.accepted? = none ∧ begins k x = false := by
      obtain ⟨event, rfl⟩ | rfl := CaptureThread.seen_cases hseen <;> exact ⟨rfl, rfl, rfl⟩
    rw [hseen] at hself
    constructor
    · intro n u hu
      obtain ⟨rfl, rfl⟩ | ⟨hn, hu⟩ := hthread n u hu
      · exact hself
      · have hpass : Passes n x := passes_of_ne habout.1 hn
        exact (h.thread n u hu).pass hpass.noEnd hpass.noCall (.inl habout.2.1)
    · apply h.known_concat (Nat.le_of_eq hlen.symm)
      intro n hn
      rw [habout.1, Option.some.injEq] at hn
      rw [hlen, ← hn]
      exact hlt
    · exact h.latest_lt hlatest (Nat.le_of_eq hlen.symm)
    · intro n
      rw [hlatest, Option.toList_some]
      by_cases hn : k = n
      · rw [isOpen_concat, ← hn, habout.2.2]
        have hopen := h.isOpen_iff k
        -- a thread that ends is one whose session, if it is the latest, is open no more
        cases hend : ends k x with
        | true => simp [hend]
        | false => simpa [isOpen, hend] using hopen
      · exact h.isOpen_concat_iff (passes_of_ne habout.1 hn)

end Listener

end Keystroke
