import Keystroke.Proofs.Listener.Queue.Starts

/-!
# Sessions over a queue

The events that are put into a queue reach the callback of the session that is open, and none else,
in whatever order callers and threads of the listener move.

## Main statements

- `served_of_happens`: the books of a listener over a queue, for every history.
- `isOpen_of_accepted`: what is accepted goes to the one session that is open.
- `isOpen_of_stopped`: when a stop is over no session is open.
- `sessions_separate`: sessions do not mix.
-/

namespace Keystroke

namespace Listener

open Happening (begins ends called?)
open History
open QueueMechanism (Serving)

variable {l l' : Listener QueueMechanism} {hs : List Happening} {x : Happening} {n : Nat}

/-- At any time at most the session that is being installed is open. -/
theorem Served.eq_of_installing (h : Served hs l) (hl : Coherent l) {c k : Nat}
    {waker : Option Entry} (hc : l.callers[c]? = some (.installing k waker))
    (hopen : isOpen n hs = true) : n = k := by
  obtain ⟨hlatest, hended⟩ := (h.isOpen_iff n).1 hopen
  have ht := List.getElem?_eq_getElem (h.latest n hlatest)
  rw [(h.thread n _ ht).ended, Bool.not_eq_false'] at hended
  have hwatched := hl.watched hc nofun ht (CaptureThread.isOver_of_isAlive hended)
  exact (Option.some.inj hwatched).symm

theorem served_of_moveCaller (h : Served hs l) (hl : Coherent l) (hknown : Known l) {c : Nat}
    {p p' : Phase} (hc : l.callers[c]? = some p) (hc' : l'.callers[c]? = some p')
    (hm : l.moveCaller c p = some l') : Served (hs ++ (p.seen c p').toList) l' := by
  have hself : ∀ q, l'.callers = l.callers.set c q → p' = q := fun _ => phase_of_set hc hc'
  cases effect_of_moveCaller hm with
  | accept event hn ht ha =>
    rw [hself (.replied (.injected true)) rfl]
    exact h.accept hn ht ha c event rfl rfl
  | spawn callback =>
    rw [hself (.awaiting l.threads.length) rfl]
    exact h.spawn c callback rfl rfl
  | install n waker hlatest hthreads hcs =>
    rw [hself _ hcs]
    exact h.install (hknown.callers c _ n hc rfl) (fun _ => h.eq_of_installing hl hc) c hlatest
      hthreads
  | other hlatest hthreads hcs hquiet =>
    rw [← hself _ hcs] at hquiet
    cases hseen : p.seen c p' with
    | none =>
      rw [Option.toList_none, List.append_nil]
      exact h.congr hlatest hthreads
    | some x => exact (h.congr hlatest hthreads).quiet (hquiet x hseen)

/-- The state of a new listener over a queue. -/
abbrev fresh (failing : Bool) (h : Host) : Listener QueueMechanism :=
  { backend := { failing }, shared := { host := h } }

variable {failing : Bool} {h₀ : Host}

/-- **The books of a listener** over a queue: what its history tells of its threads and of its
callers is so, in whatever order requests and moves happen. -/
theorem served_of_happens (h : Happens (fresh failing h₀) hs l) : Served hs l ∧ Authored hs l := by
  induction h with
  | refl => exact ⟨served_init failing h₀, authored_init failing h₀⟩
  | @request hs l call h ih =>
    have hserved : Served hs (l.request call) := ih.1.congr rfl rfl
    exact ⟨hserved.quiet rfl, authored_request ih.2 call⟩
  | @move hs l l' mover h hm ih =>
    have hl : Coherent l := coherent_of_reachable h.reaches
    have hknown : Known l := known_of_reachable h.reaches
    cases mover with
    | caller c =>
      obtain ⟨p, p', hc, hc', hcs, hmove, turn, hseen⟩ := phases_of_move? hm
      rw [hseen]
      exact ⟨served_of_moveCaller ih.1 hl hknown hc hc' hmove,
        authored_of_turn ih.2 ih.1 hknown hc hcs turn⟩
    | thread n =>
      have hlatest : l'.backend.latest = l.backend.latest := by
        simp only [move?] at hm
        split at hm
        · cases hm
        · obtain ⟨_, -, rfl⟩ := Option.map_eq_some_iff.1 hm
          rfl
      obtain ⟨c, p, p', hmover, -⟩ | ⟨k, t, t', hmover, ht, hcs, hts, hmove⟩ := move?_cases hm
      · cases hmover
      · cases hmover
        rw [seen_thread ht hts]
        exact ⟨ih.1.move ht hmove hlatest hts, authored_of_thread ih.2 ht hmove hcs hts⟩

/-- What is accepted goes into the inbox of a thread that is still alive. -/
theorem latest_of_accepted {k : Listener QueueMechanism} {c : Nat} {event : KeyEvent}
    {mover : Mover} (hm : l.move? mover = some k)
    (hseen : l.seen mover k = some (.accepted c event)) :
    ∃ n t, l.backend.latest = some n ∧ l.threads[n]? = some t ∧ t.isAlive = true := by
  obtain ⟨c', rfl⟩ := caller_of_seen hm hseen nofun nofun
  obtain ⟨p, p', hc, hc', hcs, hmove, -, hp⟩ := phases_of_move? hm
  rw [hp] at hseen
  have hself : ∀ q, k.callers = l.callers.set c' q → p' = q := fun _ => phase_of_set hc hc'
  cases effect_of_moveCaller hmove with
  | accept event hn ht ha => exact ⟨_, _, hn, ht, ha⟩
  | spawn callback =>
    rw [hself (.awaiting l.threads.length) rfl] at hseen
    cases hseen
  | install n waker hlatest hthreads hcs =>
    rw [hself _ hcs] at hseen
    cases hseen
  | other hlatest hthreads hcs hquiet =>
    rw [← hself _ hcs] at hquiet
    cases hquiet _ hseen

/-- What is accepted goes to the one session that is open. -/
theorem isOpen_of_accepted {before after : List Happening} {c : Nat} {event : KeyEvent}
    (h : Happens (fresh failing h₀) (before ++ .accepted c event :: after) l) :
    ∃ n, isOpen n before = true ∧ ∀ m, isOpen m before = true → m = n := by
  obtain ⟨l₁, h₁, ⟨call, hx⟩ | ⟨mover, l₂, hm, hseen⟩⟩ := h.split
  · cases hx
  · obtain ⟨n, t, hlatest, ht, ha⟩ := latest_of_accepted hm hseen
    have hserved := (served_of_happens h₁).1
    refine ⟨n, (hserved.isOpen_iff n).2 ⟨hlatest, ?_⟩, fun m hm => ?_⟩
    · rw [(hserved.thread n t ht).ended, ha]
      rfl
    · have hlatest' := ((hserved.isOpen_iff m).1 hm).1
      rw [hlatest, Option.some.injEq] at hlatest'
      exact hlatest'.symm

/-- When a stop is over no session is open. -/
theorem isOpen_of_stopped {before after : List Happening} {c : Nat}
    (h : Happens (fresh failing h₀) (before ++ .stopped c :: after) l) (n : Nat) :
    isOpen n before = false := by
  obtain ⟨l₁, h₁, ⟨call, hx⟩ | ⟨mover, l₂, hm, hseen⟩⟩ := h.split
  · cases hx
  · have hserved := (served_of_happens h₁).1
    have hl : Coherent l₁ := coherent_of_reachable h₁.reaches
    apply Bool.eq_false_iff.2
    intro hopen
    obtain ⟨hlatest, hended⟩ := (hserved.isOpen_iff n).1 hopen
    have ht := List.getElem?_eq_getElem (hserved.latest n hlatest)
    rw [(hserved.thread n _ ht).ended, Bool.not_eq_false'] at hended
    -- the caller has seen the end of all threads
    have hover := hl.isOver_of_watched (lowering_of_stopped hm hseen) rfl rfl ht
    rw [CaptureThread.isOver_of_isAlive hended] at hover
    cases hover

/-- A callback is called with what was accepted for it, in order. -/
theorem Served.calledBy_prefix (h : Served hs l) (n : Nat) : calledBy n hs <+: acceptedIn n hs := by
  rcases Nat.lt_or_ge n l.threads.length with hlt | hge
  · have ht := h.thread n _ (List.getElem?_eq_getElem hlt)
    rw [ht.taken, ht.inbox]
    exact List.take_prefix _ _
  · rw [(h.absent hge).2.2]
    exact List.nil_prefix

/-- A session whose callback is called has begun. -/
theorem Served.began_of_called (h : Served hs l) {event : KeyEvent} (hx : .called n event ∈ hs) :
    ∃ c, .began c n ∈ hs := by
  have hmem : event ∈ calledBy n hs := List.mem_filterMap.2 ⟨_, hx, by simp [called?]⟩
  have hany : hs.any (begins n) = true := by
    apply Bool.of_not_eq_false
    intro hnone
    have haccepted := (h.calledBy_prefix n).subset hmem
    rw [acceptedIn_eq_nil hnone] at haccepted
    cases haccepted
  obtain ⟨y, hy, hbegins⟩ := List.any_eq_true.1 hany
  cases y with
  | began c k =>
    obtain rfl : k = n := by simpa [begins] using hbegins
    exact ⟨c, hy⟩
  | _ => cases hbegins

/-- While no session is open, nothing is accepted. -/
theorem move?_of_inject (h : Served hs l) (hclosed : ∀ n, isOpen n hs = false) {c : Nat}
    {event : KeyEvent} (hc : l.callers[c]? = some (.entered (.inject event))) :
    ∃ l', l.move? (.caller c) = some l' ∧
      l'.callers[c]? = some (.replied (.injected false)) := by
  have hlt : c < l.callers.length := (List.getElem?_eq_some_iff.1 hc).1
  have hm : l.move? (.caller c) = some (l.reply c (.injected false)) := by
    simp only [move?, hc, Option.bind_eq_bind, Option.bind_some, moveCaller, enter,
      CaptureMechanism.inlet]
    cases hlatest : l.backend.latest with
    | none => rfl
    | some n =>
      have hn := h.latest n hlatest
      have ht := List.getElem?_eq_getElem hn
      have hdead : l.threads[n].isAlive = false := by
        apply Bool.eq_false_iff.2
        intro halive
        have hopen : isOpen n hs = true := by
          rw [h.isOpen_iff, (h.thread n _ ht).ended, halive]
          exact ⟨hlatest, rfl⟩
        rw [hclosed n] at hopen
        cases hopen
      simp [ht, hdead]
  exact ⟨_, hm, by simp [reply, withCaller, hlt]⟩

/-- **Sessions do not mix**, in whatever order requests and moves of a listener over a queue happen,
callbacks that stop it and sessions that are refused included. A callback is called with the events
that were accepted while its session was open: with the first of them, in order, none left out and
none twice. Whatever is accepted is so while exactly one session is open, and counts for that one
alone. Whose callback is called has started the session, and was neither refused nor ignored. From
the end of a stop until the next session is installed nothing is accepted. -/
theorem sessions_separate (h : Happens (fresh failing h₀) hs l) :
    (∀ n, calledBy n hs <+: acceptedIn n hs) ∧
    (∀ before c event after, hs = before ++ .accepted c event :: after →
      ∃ n, isOpen n before = true ∧ ∀ m, acceptedIn m (before ++ [.accepted c event]) =
        acceptedIn m before ++ if m = n then [event] else []) ∧
    (∀ n event, .called n event ∈ hs → ∃ c t, l.threads[n]? = some t ∧
      .asked c (.start (some t.callback)) ∈ hs ∧
      startOf c hs = [.spawned c n, .began c n] ∧ ∀ k, .spawned k n ∈ hs → k = c) ∧
    ∀ before c after, hs = before ++ .stopped c :: after → (∀ k n, .began k n ∉ after) →
      (∀ k event, .accepted k event ∉ after) ∧
      ∀ k event, l.callers[k]? = some (.entered (.inject event)) →
        ∃ l', l.move? (.caller k) = some l' ∧
          l'.callers[k]? = some (.replied (.injected false)) := by
  obtain ⟨hserved, hauthored⟩ := served_of_happens h
  refine ⟨hserved.calledBy_prefix, ?_, fun n event hcalled => ?_, ?_⟩
  · rintro before c event after rfl
    obtain ⟨n, hopen, hsole⟩ := isOpen_of_accepted h
    refine ⟨n, hopen, fun m => ?_⟩
    rw [acceptedIn_concat]
    by_cases hm : m = n
    · simp [hm, hopen, Happening.accepted?]
    · have hclosed : isOpen m before = false := Bool.eq_false_iff.2 fun hm' => hm (hsole m hm')
      simp [hm, hclosed]
  · obtain ⟨c, hbegan⟩ := hserved.began_of_called hcalled
    have hn := hserved.known _ hcalled n rfl
    have hstart := hauthored.began c n hbegan
    obtain ⟨k, hasked, hauthor⟩ := hauthored.author n _ (List.getElem?_eq_getElem hn)
    -- the session is that of the caller whose start has got the thread
    have hspawned : .spawned c n ∈ hs := by
      have hmem : .spawned c n ∈ startOf c hs := by
        rw [hstart]
        exact List.mem_cons_self
      exact (List.mem_filter.1 hmem).1
    obtain rfl := (hauthor c).1 hspawned
    exact ⟨c, _, List.getElem?_eq_getElem hn, hasked, hstart, fun k => (hauthor k).1⟩
  · rintro before c after rfl hnone
    -- without a new session all are closed, however long ago the stop was over
    have hclosed : ∀ n later, later <+: after →
        isOpen n (before ++ .stopped c :: later) = false := by
      intro n later hlater
      apply Bool.eq_false_iff.2
      intro hopen
      have hbefore := isOpen_of_append hopen (by
        intro k hmem
        rcases List.mem_cons.1 hmem with heq | hmem
        · cases heq
        · exact hnone k n (hlater.subset hmem))
      rw [isOpen_of_stopped h n] at hbefore
      cases hbefore
    constructor
    · intro k event hmem
      obtain ⟨later, rest, rfl⟩ := List.append_of_mem hmem
      rw [← List.cons_append, ← List.append_assoc] at h
      obtain ⟨n, hopen, -⟩ := isOpen_of_accepted h
      rw [hclosed n later (List.prefix_append _ _)] at hopen
      cases hopen
    · intro k event hk
      exact move?_of_inject hserved (fun n => hclosed n after (List.prefix_refl _)) hk

/-- A listener whose first callback stops it, with all that is asked of it in the end. -/
def twoSessions : Listener QueueMechanism :=
  [.start (some { react := fun _ _ => { stops := true } }), .inject (.of .a ∅ true),
    .inject (.of .b ∅ true), .start (some { label := 1 }), .inject (.of .c ∅ true)].foldl request
    (fresh false {})

/-- Two events are accepted, the callback stops its session when it is called with the first one,
and another session gets the third event. -/
def movesOfTwoSessions : List Mover :=
  List.replicate 4 (.caller 0) ++ [.thread 0, .caller 0, .caller 0, .caller 1, .caller 2] ++
    List.replicate 10 (.thread 0) ++ List.replicate 7 (.caller 3) ++
    [.thread 1, .caller 3, .caller 3, .caller 4, .thread 1, .thread 1]

/-- The second event was accepted, but it is delivered in neither session. -/
theorem sessions_separate_twice :
    ∃ hs l, Happens (fresh false {}) hs l ∧ calledBy 0 hs <+: acceptedIn 0 hs ∧
      calledBy 0 hs = [.of .a ∅ true] ∧ acceptedIn 0 hs = [.of .a ∅ true, .of .b ∅ true] ∧
      calledBy 1 hs = [.of .c ∅ true] ∧ acceptedIn 1 hs = [.of .c ∅ true] := by
  have hasked : Happens (fresh false {}) _ twoSessions :=
    .request _ (.request _ (.request _ (.request _ (.request _ .refl))))
  have hrun : twoSessions.record movesOfTwoSessions = some (_, _) := rfl
  have h := hasked.record hrun
  exact ⟨_, _, h, (sessions_separate h).1 0, rfl, rfl, rfl, rfl⟩

end Listener

end Keystroke
