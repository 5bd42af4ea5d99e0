import Keystroke.Proofs.Listener.History

/-!
# Dealings with a capture thread

A caller that spawns a capture thread waits until it knows whether the thread captures. If it does,
there is a session, and whoever takes the session away in order to end it lowers the flag, wakes the
thread if it can be woken, and waits for its end. All this is listed here for every thread, together
with what the thread reports, in the order in which it happens.

Who deals with a thread has to know how far the dealings with it have come. That is said by the
phase of the caller that holds the lock, and by the session while nobody does; so in each state the
list can be read off.

## Main statements

- `reaches_iff_deals`: whatever can come to be comes with a list of what was done about threads.
- `Turn.advance`: a turn of a caller does the next thing about a thread, or nothing.
- `dealt_of_deals`: in each state the dealings with a thread are as far as the state says.
- `isPrefix_of_deals`: they follow the protocol, step by step.
-/

namespace Keystroke

/-- What a capture thread tells its starter. -/
abbrev Answer := Except CaptureError (Option Entry)

/-- Something that is done about a capture thread. -/
inductive Mark where
  | spawned
  /-- The thread itself reports. -/
  | reported (outcome : Answer)
  /-- The caller that has spawned the thread knows what has come of it. -/
  | answered (outcome : Answer)
  /-- The flag is lowered in order to end the session of the thread. -/
  | cleared
  | woken (trace : Entry)
  /-- The caller that ends the session has seen the end of the thread. -/
  | joined

/-- A mark about a thread, and what is in the memory right after it was made. -/
structure Moment where
  thread : Nat
  mark : Mark
  flag : Bool
  /-- Whether the thread has ended. -/
  ended : Bool

/-- What a caller does about a thread when it goes from one phase to another. -/
def Phase.mark? : Phase → Phase → Option (Nat × Mark)
  | .spawning _, .awaiting n => some (n, .spawned)
  | .awaiting n, .installing _ waker => some (n, .answered (.ok waker))
  | .collecting n e, .failing _ => some (n, .answered (.error e))
  | .clearing s _, .waking .. => some (s.thread, .cleared)
  | .waking s _, .joining .. => s.waker.map fun trace => (s.thread, .woken trace)
  | .joining s _, .raising _ | .joining s _, .lowering => some (s.thread, .joined)
  | _, _ => none

/-- Only the thread itself reports. -/
theorem Phase.mark?_ne_reported (p p' : Phase) (n : Nat) (outcome : Answer) :
    p.mark? p' ≠ some (n, .reported outcome) := by
  intro hmark
  unfold mark? at hmark
  split at hmark <;> simp at hmark

/-- What the next move of a thread reports, if it does. -/
def CaptureThread.reporting? (t : CaptureThread) : Option Answer :=
  match t.stage with
  | .body (.report outcome _) => some outcome
  | _ => none

/-- What is done about a thread, if the mark is about it and not made by itself. -/
def Moment.dealing? (n : Nat) (x : Moment) : Option Mark :=
  if x.thread = n then
    match x.mark with
    | .reported _ => none
    | mark => some mark
  else none

/-- What a thread reports, if the mark is about that. -/
def Moment.report? (n : Nat) (x : Moment) : Option Answer :=
  if x.thread = n then
    match x.mark with
    | .reported outcome => some outcome
    | _ => none
  else none

/-- What callers did about a thread. -/
def dealings (n : Nat) (ms : List Moment) : List Mark := ms.filterMap (·.dealing? n)

/-- What a thread reported. -/
def reports (n : Nat) (ms : List Moment) : List Answer := ms.filterMap (·.report? n)

namespace Listener

variable {β : Type}

/-! ## Lists of what was done -/

/-- What is done about a thread by a move. -/
def mark? (l : Listener β) (mover : Mover) (l' : Listener β) : Option (Nat × Mark) :=
  match mover with
  | .caller c => do (← l.callers[c]?).mark? (← l'.callers[c]?)
  | .thread n => do return (n, .reported (← (← l.threads[n]?).reporting?))

theorem mark?_caller {l l' : Listener β} {c : Nat} {p p' : Phase} (hc : l.callers[c]? = some p)
    (hcs : l'.callers = l.callers.set c p') : l.mark? (.caller c) l' = p.mark? p' := by
  have hlt : c < l.callers.length := (List.getElem?_eq_some_iff.1 hc).1
  have hc' : l'.callers[c]? = some p' := by rw [hcs, List.getElem?_set_self hlt]
  simp only [mark?, hc, hc', Option.bind_eq_bind, Option.bind_some]

theorem mark?_thread {l : Listener β} {n : Nat} {t : CaptureThread} (ht : l.threads[n]? = some t)
    (l' : Listener β) :
    l.mark? (.thread n) l' = t.reporting?.map fun outcome => (n, .reported outcome) := by
  simp only [mark?, ht, Option.bind_eq_bind, Option.bind_some]
  cases t.reporting? <;> rfl

/-- The moment at which a mark about a thread was made. -/
def moment (l : Listener β) (mark : Nat × Mark) : Moment where
  thread := mark.1
  mark := mark.2
  flag := l.shared.flag
  ended := l.threads[mark.1]?.any (·.isOver)

/-- With the given things done about threads the listener `l` comes to be from `l₀`. -/
inductive Deals [CaptureMechanism β] (l₀ : Listener β) : List Moment → Listener β → Prop where
  | refl : Deals l₀ [] l₀
  | request {ms l} (call : Call) (h : Deals l₀ ms l) : Deals l₀ ms (l.request call)
  | move {ms l l'} (mover : Mover) (h : Deals l₀ ms l) (hm : l.move? mover = some l') :
      Deals l₀ (ms ++ ((l.mark? mover l').map l'.moment).toList) l'

section

variable [CaptureMechanism β] {l₀ l : Listener β} {ms : List Moment}

theorem Deals.reaches (h : Deals l₀ ms l) : Reaches l₀ l := by
  induction h with
  | refl => exact .refl l₀
  | request call _ ih => exact .request call ih
  | move mover _ hm ih => exact .move mover ih hm

/-- Whatever can come to be comes with a list of what was done about threads. -/
theorem reaches_iff_deals : Reaches l₀ l ↔ ∃ ms, Deals l₀ ms l := by
  constructor
  · intro h
    induction h with
    | refl => exact ⟨[], .refl⟩
    | request call _ ih =>
      obtain ⟨ms, h⟩ := ih
      exact ⟨ms, h.request call⟩
    | move mover _ hm ih =>
      obtain ⟨ms, h⟩ := ih
      exact ⟨_, h.move mover hm⟩
  · rintro ⟨ms, h⟩
    exact h.reaches

/-- What is done about threads by some moves in order, if all of them can be made. -/
def deal (l : Listener β) : List Mover → Option (List Moment × Listener β)
  | [] => some ([], l)
  | mover :: rest => do
    let l' ← l.move? mover
    let (ms, l'') ← l'.deal rest
    return (((l.mark? mover l').map l'.moment).toList ++ ms, l'')

theorem Deals.deal {l' : Listener β} {ms' : List Moment} (h : Deals l₀ ms l) {movers : List Mover}
    (hd : l.deal movers = some (ms', l')) : Deals l₀ (ms ++ ms') l' := by
  induction movers generalizing l ms ms' with
  | nil =>
    cases hd
    rw [List.append_nil]
    exact h
  | cons mover rest ih =>
    simp only [Listener.deal, Option.bind_eq_bind, Option.bind_eq_some_iff, Prod.exists,
      Option.pure_def, Option.some.injEq, Prod.mk.injEq] at hd
    obtain ⟨k, hm, ms'', k', hk, rfl, rfl⟩ := hd
    rw [← List.append_assoc]
    exact ih (h.move mover hm) hk

/-- What is done about a thread is done by a move between two states. What was done before it leads
to the first one, and all else comes after the second one. -/
theorem Deals.split {x : Moment} {before after : List Moment}
    (h : Deals l₀ (before ++ x :: after) l) :
    ∃ (l₁ l₂ : Listener β) (mover : Mover) (mark : Nat × Mark), Deals l₀ before l₁ ∧
      l₁.move? mover = some l₂ ∧ l₁.mark? mover l₂ = some mark ∧ x = l₂.moment mark ∧
      Reaches l₂ l := by
  generalize hall : before ++ x :: after = all at h
  induction h generalizing after with
  | refl => simp at hall
  | request call h ih =>
    obtain ⟨l₁, l₂, mover, mark, h₁, hm, hmark, hx, hr⟩ := ih hall
    exact ⟨l₁, l₂, mover, mark, h₁, hm, hmark, hx, .request call hr⟩
  | @move ms l l' mover h hm ih =>
    -- either it was the last move, or the list before that move contains it
    have earlier : ∀ later, before ++ x :: later = ms →
        ∃ (l₁ l₂ : Listener β) (mover : Mover) (mark : Nat × Mark), Deals l₀ before l₁ ∧
          l₁.move? mover = some l₂ ∧ l₁.mark? mover l₂ = some mark ∧ x = l₂.moment mark ∧
          Reaches l₂ l' := by
      intro later hlater
      obtain ⟨l₁, l₂, mover', mark, h₁, hm', hmark, hx, hr⟩ := ih hlater
      exact ⟨l₁, l₂, mover', mark, h₁, hm', hmark, hx, .move mover hr hm⟩
    cases hmark : l.mark? mover l' with
    | none =>
      rw [hmark, Option.map_none, Option.toList_none, List.append_nil] at hall
      exact earlier after hall
    | some mark =>
      rw [hmark, Option.map_some, Option.toList_some] at hall
      obtain ⟨rfl, hx⟩ | ⟨later, hlater⟩ := concat_eq_append_cons hall.symm
      · exact ⟨l, l', mover, mark, h, hm, hmark, hx.symm, .refl l'⟩
      · exact earlier later hlater.symm

end

/-! ## The protocol -/

/-- What is done about a thread from its spawning until it can be forgotten, by what came of it. -/
def protocol : Answer → List Mark
  | .error e => [.spawned, .answered (.error e)]
  | .ok waker => [.spawned, .answered (.ok waker), .cleared] ++ waker.toList.map .woken ++ [.joined]

/-- What was done about the thread of a session that nobody has begun to end. -/
def held (s : Session) : Nat × List Mark := (s.thread, [.spawned, .answered (.ok s.waker)])

end Listener

open Listener (held protocol)

/-- The thread that a caller at the phase has to deal with, and what was done about it. A caller
without the lock, or one that has only begun to look, goes by the session. -/
def Phase.dealt (session : Option Session) : Phase → Option (Nat × List Mark)
  | .entered _ | .replied _ | .looking _ | .probing _ => session.map held
  | .awaiting n | .dropping n _ | .collecting n _ => some (n, [.spawned])
  | .installing n waker => some (held ⟨n, waker⟩)
  | .clearing s _ => some (held s)
  | .waking s _ => some (s.thread, (held s).2 ++ [.cleared])
  | .joining s _ => some (s.thread, (held s).2 ++ [.cleared] ++ s.waker.toList.map .woken)
  | .raising _ | .spawning _ | .failing _ | .lowering => none

theorem Phase.dealt_of_not_holds {p : Phase} (h : p.holds = false) (session : Option Session) :
    p.dealt session = session.map held := by
  cases p <;> first | rfl | cases h

/-- What was done about a thread is a beginning of the protocol. -/
theorem Phase.isPrefix_of_dealt {p : Phase} {session : Option Session} {n : Nat} {ds : List Mark}
    (h : p.dealt session = some (n, ds)) : ∃ outcome, ds <+: protocol outcome := by
  -- up to its end the thread is one that captures, as far as anybody knows
  have hheld : ∀ s : Session, (held s).2 <+: protocol (.ok s.waker) := fun s =>
    ⟨.cleared :: (s.waker.toList.map .woken ++ [.joined]), by simp [held, protocol]⟩
  cases p with
  | entered | replied | looking | probing =>
    obtain ⟨s, -, hs⟩ := Option.map_eq_some_iff.1 h
    cases hs
    exact ⟨_, hheld s⟩
  | awaiting | dropping | collecting =>
    cases h
    exact ⟨.error .missingCallback, [.answered (.error .missingCallback)], rfl⟩
  | installing n waker =>
    cases h
    exact ⟨_, hheld ⟨n, waker⟩⟩
  | clearing s =>
    cases h
    exact ⟨_, hheld s⟩
  | waking s =>
    cases h
    exact ⟨.ok s.waker, s.waker.toList.map .woken ++ [.joined], by simp [held, protocol]⟩
  | joining s =>
    cases h
    exact ⟨.ok s.waker, [.joined], by simp [held, protocol]⟩
  | raising | spawning | failing | lowering => cases h

namespace Listener

/-- How the dealings with the current thread go on, while there are `k` threads and afterwards `k'`:
what was done about it, what is done about it now, and what was done about the current thread then,
if there still is one. -/
inductive Advance (k : Nat) : Option (Nat × List Mark) → Option (Nat × Mark) → Nat →
    Option (Nat × List Mark) → Prop where
  | stay (dealt : Option (Nat × List Mark)) : Advance k dealt none k dealt
  | spawn : Advance k none (some (k, .spawned)) (k + 1) (some (k, [.spawned]))
  | extend {n : Nat} (hn : n < k) (ds : List Mark) (mark : Mark) :
      Advance k (some (n, ds)) (some (n, mark)) k (some (n, ds ++ [mark]))
  | finish {n : Nat} (hn : n < k) {ds : List Mark} {mark : Mark} (outcome : Answer)
      (h : ds ++ [mark] = protocol outcome) : Advance k (some (n, ds)) (some (n, mark)) k none

variable {β : Type}

/-- A turn of a caller does the next thing about a thread, or nothing. -/
theorem Turn.advance {c : Nat} {m m' : Shared} {ts ts' : List CaptureThread} {p p' : Phase}
    (turn : Turn c m ts p m' ts' p') (hvacant : p.vacates = true → m.session = none)
    (hknown : ∀ n, p.watched none = some n → n < ts.length) :
    Advance ts.length (p.dealt m.session) (p.mark? p') ts'.length (p'.dealt m'.session) := by
  have hlen : (∀ callback, p ≠ .spawning callback) → ts'.length = ts.length := by
    intro hp
    refine Nat.le_antisymm (Nat.le_of_not_lt fun hlt => ?_) turn.length_le
    obtain ⟨⟨callback, rfl, -⟩, -⟩ := turn.spawns hlt
    exact hp callback rfl
  cases turn with
  | answer =>
    rw [hlen nofun]
    exact .stay _
  | spawn callback program =>
    rw [List.length_append]
    exact .spawn
  -- the session that is found is the one that was there
  | take _ hs | lookStale hs | probeStale hs =>
    simp only [Phase.dealt, hs, Option.map_some]
    exact .stay _
  | idle _ hs | lookNone hs | probeNone hs =>
    simp only [Phase.dealt, hs, Option.map_none]
    exact .stay _
  | fail | lower =>
    simp only [Phase.dealt, hvacant rfl, Option.map_none]
    exact .stay _
  | absent hn =>
    -- the thread that a caller waits for is there
    have hlt := hknown _ rfl
    rw [List.getElem?_eq_none_iff] at hn
    omega
  | ready => exact .extend (hknown _ rfl) _ _
  | clear => exact .extend (hknown _ rfl) _ _
  | wake host hts s purpose =>
    rw [hlen nofun]
    simp only [Phase.dealt, Phase.mark?]
    cases s.waker with
    | none =>
      rw [Option.toList_none, List.map_nil, List.append_nil]
      exact .stay _
    | some trace => exact .extend (hknown _ rfl) _ _
  | collect _ e => exact .finish (hknown _ rfl) (.error e) rfl
  | @joinRestart s _ callback =>
    exact .finish (hknown _ rfl) (.ok s.waker) (by simp [held, protocol])
  | @joinStop s _ =>
    exact .finish (hknown _ rfl) (.ok s.waker) (by simp [held, protocol])
  | lock | lookLive | keep | raise | refused | failed | silent | drop | install => exact .stay _

/-! ## What a state says -/

/-- The thread that is dealt with, and what was done about it. -/
def dealt (l : Listener β) : Option (Nat × List Mark) :=
  match l.shared.holder with
  | none => l.shared.session.map held
  | some c => l.callers[c]?.bind (·.dealt l.shared.session)

theorem dealt_of_holder {l : Listener β} {c : Nat} {p : Phase} (hh : l.shared.holder = some c)
    (hc : l.callers[c]? = some p) : l.dealt = p.dealt l.shared.session := by
  simp [dealt, hh, hc]

theorem dealt_of_free {l : Listener β} (hh : l.shared.holder = none) :
    l.dealt = l.shared.session.map held := by
  simp [dealt, hh]

variable {l l' : Listener β}

theorem isPrefix_of_dealt {n : Nat} {ds : List Mark} (h : l.dealt = some (n, ds)) :
    ∃ outcome, ds <+: protocol outcome := by
  cases hh : l.shared.holder with
  | none =>
    rw [dealt_of_free hh] at h
    exact Phase.isPrefix_of_dealt (p := .replied .set) h
  | some c =>
    simp only [dealt, hh] at h
    obtain ⟨p, -, hp⟩ := Option.bind_eq_some_iff.1 h
    exact Phase.isPrefix_of_dealt hp

theorem dealt_request (hl : Coherent l) (call : Call) : (l.request call).dealt = l.dealt := by
  -- a caller that has only come is not the holder
  cases hh : l.shared.holder with
  | none =>
    rw [dealt_of_free hh, dealt_of_free (l := l.request call) hh]
    rfl
  | some c =>
    obtain ⟨p, hp, -⟩ := hl.holder c hh
    have hp' : (l.request call).callers[c]? = some p := by
      rw [getElem?_callers_request, if_neg (hl.ne_of_holder hh), hp]
    rw [dealt_of_holder hh hp, dealt_of_holder (l := l.request call) hh hp']
    rfl

/-- A turn of a caller does the next thing about the thread that is dealt with, or nothing. -/
theorem advance_of_turn (hl : Coherent l) (hs : Settled l) (hk : Known l) {c : Nat} {p p' : Phase}
    (hc : l.callers[c]? = some p) (hcs : l'.callers = l.callers.set c p')
    (turn : Turn c l.shared l.threads p l'.shared l'.threads p') :
    Advance l.threads.length l.dealt (p.mark? p') l'.threads.length l'.dealt := by
  have hlt : c < l.callers.length := (List.getElem?_eq_some_iff.1 hc).1
  have hself : l'.callers[c]? = some p' := by rw [hcs, List.getElem?_set_self hlt]
  have advance := turn.advance (hs.vacant c p hc) fun n hn => hk.callers c p n hc hn
  obtain ⟨hp, free, hp', hh'⟩ | ⟨hp, hp', hh'⟩ | ⟨hp, hp', hh'⟩ | ⟨hp, hp', hh', hs', -⟩ :=
    turn.lock_cases
  · -- the caller takes the lock
    rwa [Phase.dealt_of_not_holds hp, ← dealt_of_free free, ← dealt_of_holder hh' hself] at advance
  · -- the caller gives it back
    rwa [Phase.dealt_of_not_holds hp', ← dealt_of_free hh',
      ← dealt_of_holder (hl.holding c p hc hp) hc] at advance
  · -- the caller keeps it
    rwa [← dealt_of_holder (hl.holding c p hc hp) hc,
      ← dealt_of_holder (hh'.trans (hl.holding c p hc hp)) hself] at advance
  · -- the caller does without it, and nothing is done about any thread
    have hmark : p.mark? p' = none := by
      cases p <;> first | rfl | cases hp
    have hsame : l'.dealt = l.dealt := by
      cases hh : l.shared.holder with
      | none => rw [dealt_of_free hh, dealt_of_free (hh'.trans hh), hs']
      | some k =>
        obtain ⟨q, hq, hqh⟩ := hl.holder k hh
        have hkc : k ≠ c := by
          rintro rfl
          rw [hc, Option.some.injEq] at hq
          rw [← hq, hp] at hqh
          cases hqh
        have hq' : l'.callers[k]? = some q := by rw [hcs, List.getElem?_set_ne hkc.symm, hq]
        rw [dealt_of_holder hh hq, dealt_of_holder (hh'.trans hh) hq', hs']
    rw [hmark] at advance ⊢
    rw [hsame]
    generalize p.dealt l.shared.session = before at advance
    generalize p'.dealt l'.shared.session = after at advance
    generalize l'.threads.length = k at advance ⊢
    cases advance
    exact .stay _

/-- What callers did about a thread, as far as can be told from the number of threads and from what
was done about the one that is dealt with. -/
inductive Dealt (n k : Nat) (d : Option (Nat × List Mark)) : List Mark → Prop where
  /-- There is no such thread yet. -/
  | absent (h : k ≤ n) : Dealt n k d []
  | current {ds : List Mark} (h : d = some (n, ds)) : Dealt n k d ds
  /-- Nobody knows of the thread any more. -/
  | past (hlt : n < k) (h : ∀ ds, d ≠ some (n, ds)) (outcome : Answer) :
      Dealt n k d (protocol outcome)

/-- The mark, if it is about the thread. -/
def markAbout (n : Nat) (mark : Option (Nat × Mark)) : List Mark :=
  (mark.filter (·.1 == n)).toList.map (·.2)

theorem markAbout_self (n : Nat) (mark : Mark) : markAbout n (some (n, mark)) = [mark] := by
  simp [markAbout]

theorem markAbout_of_ne {n k : Nat} (h : k ≠ n) (mark : Mark) :
    markAbout n (some (k, mark)) = [] := by
  simp [markAbout, h]

/-- What was done about each thread goes on as the dealings with the current one do. -/
theorem Dealt.advance {n k k' : Nat} {d d' : Option (Nat × List Mark)} {ds : List Mark}
    {mark : Option (Nat × Mark)} (h : Dealt n k d ds) (advance : Advance k d mark k' d') :
    Dealt n k' d' (ds ++ markAbout n mark) := by
  cases advance with
  | stay =>
    simpa [markAbout] using h
  | spawn =>
    cases h with
    | absent hle =>
      rcases Nat.lt_or_eq_of_le hle with hlt | rfl
      · rw [markAbout_of_ne (Nat.ne_of_lt hlt)]
        exact .absent hlt
      · rw [markAbout_self]
        exact .current rfl
    | current h => cases h
    | past hlt _ outcome =>
      rw [markAbout_of_ne (Nat.ne_of_gt hlt), List.append_nil]
      refine .past (Nat.lt_succ_of_lt hlt) (fun ds hds => ?_) outcome
      cases hds
      exact absurd hlt (Nat.lt_irrefl _)
  | @extend j hj ds' mark =>
    by_cases hjn : j = n
    · subst hjn
      rw [markAbout_self]
      cases h with
      | absent hle => exact absurd hj (Nat.not_lt_of_le hle)
      | current h =>
        cases h
        exact .current rfl
      | past _ h => exact absurd rfl (h ds')
    · -- the thread is not the one that is dealt with, before and after
      rw [markAbout_of_ne hjn, List.append_nil]
      have hne : ∀ ds ds'' : List Mark, some (j, ds) ≠ some (n, ds'') := by
        intro ds ds'' heq
        cases heq
        exact hjn rfl
      cases h with
      | absent hle => exact .absent hle
      | current h => exact absurd h (hne _ _)
      | past hlt _ outcome => exact .past hlt (hne _) outcome
  | @finish j hj ds' mark outcome heq =>
    by_cases hjn : j = n
    · subst hjn
      rw [markAbout_self]
      cases h with
      | absent hle => exact absurd hj (Nat.not_lt_of_le hle)
      | current h =>
        cases h
        rw [heq]
        exact .past hj (fun _ => (Option.some_ne_none _).symm) outcome
      | past _ h => exact absurd rfl (h ds')
    · rw [markAbout_of_ne hjn, List.append_nil]
      cases h with
      | absent hle => exact .absent hle
      | current h =>
        cases h
        exact absurd rfl hjn
      | past hlt _ outcome => exact .past hlt (fun _ => (Option.some_ne_none _).symm) outcome

/-! ## What a list says -/

theorem dealings_append (n : Nat) (ms ms' : List Moment) :
    dealings n (ms ++ ms') = dealings n ms ++ dealings n ms' := List.filterMap_append

theorem reports_append (n : Nat) (ms ms' : List Moment) :
    reports n (ms ++ ms') = reports n ms ++ reports n ms' := List.filterMap_append

/-- Every mark of a caller is a dealing with the thread that it is about. -/
theorem dealings_of_mark? {p p' : Phase} (n : Nat) (l : Listener β) :
    dealings n ((p.mark? p').map l.moment).toList = markAbout n (p.mark? p') := by
  cases hmark : p.mark? p' with
  | none => rfl
  | some mark =>
    obtain ⟨k, mark⟩ := mark
    by_cases hkn : k = n
    · subst hkn
      rw [markAbout_self]
      cases mark with
      | reported outcome => exact absurd hmark (p.mark?_ne_reported p' k outcome)
      | _ => simp [dealings, Moment.dealing?, moment]
    · rw [markAbout_of_ne hkn]
      simp [dealings, Moment.dealing?, moment, hkn]

variable [CaptureMechanism β]

/-- In each state the dealings with a thread are as far as the state says. -/
theorem dealt_of_deals {b : β} {h : Host} {ms : List Moment}
    (hd : Deals { backend := b, shared := { host := h } } ms l) (n : Nat) :
    Dealt n l.threads.length l.dealt (dealings n ms) := by
  induction hd with
  | refl => exact .absent (Nat.zero_le n)
  | request call hd ih =>
    rw [dealt_request (coherent_of_reachable hd.reaches)]
    exact ih
  | @move ms l l' mover hd hm ih =>
    have hr : Reachable b h l := hd.reaches
    rw [dealings_append]
    obtain ⟨c, p, p', rfl, hc, hcs, turn⟩ | ⟨k, t, t', rfl, ht, hcs, hts, hm⟩ := move?_cases hm
    · rw [mark?_caller hc hcs, dealings_of_mark?]
      exact ih.advance (advance_of_turn (coherent_of_reachable hr) (settled_of_reachable hr)
        (known_of_reachable hr) hc hcs turn)
    · -- a thread only reports, which is no dealing with it
      have hnone : dealings n ((l.mark? (.thread k) l').map l'.moment).toList = [] := by
        rw [mark?_thread ht]
        cases t.reporting? with
        | none => rfl
        | some outcome => simp [dealings, Moment.dealing?, moment]
      have frame := CaptureThread.move?_frame hm
      have hsame : l'.dealt = l.dealt := by
        simp only [dealt, frame.holder, frame.session, hcs]
      have hlen : l'.threads.length = l.threads.length := by rw [hts, List.length_set]
      rw [hnone, List.append_nil, hsame, hlen]
      exact ih

/-- What callers do about a thread follows the protocol, step by step. -/
theorem isPrefix_of_deals {b : β} {h : Host} {ms : List Moment}
    (hd : Deals { backend := b, shared := { host := h } } ms l) (n : Nat) :
    ∃ outcome, dealings n ms <+: protocol outcome := by
  have hdealt := dealt_of_deals hd n
  generalize dealings n ms = ds at hdealt
  cases hdealt with
  | absent => exact ⟨.ok none, List.nil_prefix⟩
  | current h => exact isPrefix_of_dealt h
  | past _ _ outcome => exact ⟨outcome, List.prefix_rfl⟩

end Listener

end Keystroke
