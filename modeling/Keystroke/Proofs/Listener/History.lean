import Keystroke.Proofs.Listener.Sessions
import Mathlib.Data.List.TakeWhile

/-!
# The history of a listener

What can be seen of a listener from outside is what callers ask of it and are told, which sessions
begin and end, and with which events the callbacks are called. A history lists this in the order in
which it happens. Every order of requests and moves has one, each move contributing at most one
entry.

## Main statements

- `reaches_iff_happens`: whatever can come to be has a history.
- `Happens.split`: an entry of a history was made by a request or a move between two states, with
  the entries before it as the history of the first one.
- `acceptedIn_concat`: an entry counts as accepted in a session only if the session is open.
-/

namespace Keystroke

/-- What can be seen of a listener. Callers and threads have their numbers. -/
inductive Happening where
  | asked (c : Nat) (call : Call)
  | accepted (c : Nat) (event : KeyEvent)
  | rejected (c : Nat) (event : KeyEvent)
  /-- The start of the caller has got a thread. -/
  | spawned (c n : Nat)
  /-- The session of the start is installed, and the caller is told so. -/
  | began (c n : Nat)
  /-- The start found a session, which was kept. -/
  | ignored (c : Nat)
  | failed (c : Nat) (error : CaptureError)
  | stopped (c : Nat)
  /-- The thread begins to call its callback. -/
  | called (n : Nat) (event : KeyEvent)
  /-- The program of the thread is over. -/
  | ended (n : Nat)

/-- What is seen of a turn of the caller `c` from one phase to another. -/
def Phase.seen (c : Nat) : Phase → Phase → Option Happening
  | .entered (.inject event), .replied (.injected true) => some (.accepted c event)
  | .entered (.inject event), .replied (.injected false) => some (.rejected c event)
  | .spawning _, .awaiting n => some (.spawned c n)
  | .installing n _, .replied (.started (.ok ())) => some (.began c n)
  | .probing _, .replied (.started (.ok ())) => some (.ignored c)
  | _, .replied (.started (.error e)) => some (.failed c e)
  | _, .replied .stopped => some (.stopped c)
  | _, _ => none

/-- What is seen of a move of the thread `n`. -/
def CaptureThread.seen (n : Nat) (t t' : CaptureThread) : Option Happening :=
  match t.invocation with
  | event :: _ => some (.called n event)
  | [] => if t.isAlive && !t'.isAlive then some (.ended n) else none

/-! ## What is seen of a move -/

namespace CaptureThread

variable {n : Nat} {t t' : CaptureThread} {x : Happening}

theorem invocation_cases (t : CaptureThread) :
    t.invocation = [] ∨ ∃ event, t.invocation = [event] := by
  unfold invocation
  split
  · exact .inr ⟨_, rfl⟩
  · cases t.pending with
    | nil => exact .inl rfl
    | cons event _ => exact .inr ⟨event, rfl⟩
  · exact .inl rfl

theorem seen_cases (hx : t.seen n t' = some x) : (∃ event, x = .called n event) ∨ x = .ended n := by
  unfold seen at hx
  split at hx
  · exact .inl ⟨_, (Option.some.inj hx).symm⟩
  · split at hx <;> cases hx
    exact .inr rfl

end CaptureThread

namespace Phase

variable {c k n : Nat} {p p' : Phase}

theorem eq_of_seen_spawned (h : p.seen c p' = some (.spawned k n)) :
    k = c ∧ (∃ callback, p = .spawning callback) ∧ p' = .awaiting n := by
  unfold seen at h
  split at h <;> simp_all

theorem eq_of_seen_began (h : p.seen c p' = some (.began k n)) :
    k = c ∧ ∃ waker, p = .installing n waker := by
  unfold seen at h
  split at h <;> simp_all

theorem eq_of_seen_stopped (h : p.seen c p' = some (.stopped k)) :
    k = c ∧ p' = .replied .stopped := by
  unfold seen at h
  split at h <;> simp_all

end Phase

namespace Listener

variable {β : Type}

/-- What is seen of a move. -/
def seen (l : Listener β) (mover : Mover) (l' : Listener β) : Option Happening :=
  match mover with
  | .caller c => do (← l.callers[c]?).seen c (← l'.callers[c]?)
  | .thread n => do (← l.threads[n]?).seen n (← l'.threads[n]?)

theorem seen_thread {l l' : Listener β} {n : Nat} {t t' : CaptureThread}
    (ht : l.threads[n]? = some t) (hts : l'.threads = l.threads.set n t') :
    l.seen (.thread n) l' = t.seen n t' := by
  have hlt : n < l.threads.length := (List.getElem?_eq_some_iff.1 ht).1
  have ht' : l'.threads[n]? = some t' := by rw [hts, List.getElem?_set_self hlt]
  simp only [seen, ht, ht', Option.bind_eq_bind, Option.bind_some]

/-- The phase of a caller after its move. -/
theorem phase_of_set {l l' : Listener β} {c : Nat} {p p' q : Phase} (hc : l.callers[c]? = some p)
    (hc' : l'.callers[c]? = some p') (hcs : l'.callers = l.callers.set c q) : p' = q := by
  have hlt : c < l.callers.length := (List.getElem?_eq_some_iff.1 hc).1
  rw [hcs, List.getElem?_set_self hlt, Option.some.injEq] at hc'
  exact hc'.symm

variable [CaptureMechanism β]

/-- A move of a caller: its phases before and after it, and what is seen of it. -/
theorem phases_of_move? {l l' : Listener β} {c : Nat} (hm : l.move? (.caller c) = some l') :
    ∃ p p', l.callers[c]? = some p ∧ l'.callers[c]? = some p' ∧ l'.callers = l.callers.set c p' ∧
      l.moveCaller c p = some l' ∧ Turn c l.shared l.threads p l'.shared l'.threads p' ∧
      l.seen (.caller c) l' = p.seen c p' := by
  simp only [move?, Option.bind_eq_bind, Option.bind_eq_some_iff] at hm
  obtain ⟨p, hc, hm⟩ := hm
  obtain ⟨p', hcs, turn⟩ := turn_of_moveCaller hm
  have hlt : c < l.callers.length := (List.getElem?_eq_some_iff.1 hc).1
  have hc' : l'.callers[c]? = some p' := by rw [hcs, List.getElem?_set_self hlt]
  refine ⟨p, p', hc, hc', hcs, hm, turn, ?_⟩
  simp only [seen, hc, hc', Option.bind_eq_bind, Option.bind_some]

variable {l₀ l l' : Listener β} {hs : List Happening}

/-- What is seen of a move of a thread is a call of its callback or its end. -/
theorem caller_of_seen {mover : Mover} {x : Happening} (hm : l.move? mover = some l')
    (hseen : l.seen mover l' = some x) (hcalled : ∀ n event, x ≠ .called n event)
    (hended : ∀ n, x ≠ .ended n) : ∃ c, mover = .caller c := by
  cases mover with
  | caller c => exact ⟨c, rfl⟩
  | thread n =>
    obtain ⟨c, p, p', hmover, -⟩ | ⟨j, t, t', hmover, ht, -, hts, -⟩ := move?_cases hm
    · cases hmover
    · cases hmover
      rw [seen_thread ht hts] at hseen
      obtain ⟨event, rfl⟩ | rfl := CaptureThread.seen_cases hseen
      · exact absurd rfl (hcalled n event)
      · exact absurd rfl (hended n)

omit [CaptureMechanism β] in
theorem Turn.stopped_cases {c : Nat} {m m' : Shared} {ts ts' : List CaptureThread} {p : Phase}
    (turn : Turn c m ts p m' ts' (.replied .stopped)) :
    (∃ call, p = .entered call) ∨ p = .lowering := by
  cases turn with
  | answer => exact .inl ⟨_, rfl⟩
  | lower => exact .inr rfl

/-- Nobody is told at once that a stop is over. -/
theorem not_stopped_of_enter {c : Nat} {call : Call} (hlt : c < l.callers.length)
    (hm : l.enter c call = some l') : l'.callers[c]? ≠ some (.replied .stopped) := by
  unfold enter at hm
  split at hm
  case h_5 =>
    split at hm
    · cases hm
      simp [reply, withCaller, hlt]
    · split at hm
      · cases hm
        simp [reply, withCaller, hlt]
      · split at hm <;> cases hm <;> simp [reply, withCaller, withThread, hlt]
  case h_3 =>
    dsimp only at hm
    split at hm
    · split at hm <;> cases hm <;> simp [takeSession, withShared, withCaller, hlt]
    · cases hm
  case h_2 =>
    split at hm <;> cases hm
    simp [withShared, withCaller, hlt]
  all_goals
    cases hm
    simp [reply, withShared, withCaller, hlt]

/-- Who is told that a stop is over has seen the end of all threads. -/
theorem lowering_of_stopped {c : Nat} {mover : Mover} (hm : l.move? mover = some l')
    (hseen : l.seen mover l' = some (.stopped c)) : l.callers[c]? = some .lowering := by
  obtain ⟨k, rfl⟩ := caller_of_seen hm hseen nofun nofun
  obtain ⟨p, p', hc, hc', hcs, hmove, turn, hp⟩ := phases_of_move? hm
  rw [hp] at hseen
  obtain ⟨rfl, rfl⟩ := Phase.eq_of_seen_stopped hseen
  have hlt : c < l.callers.length := (List.getElem?_eq_some_iff.1 hc).1
  obtain ⟨call, rfl⟩ | rfl := turn.stopped_cases
  · exact absurd hc' (not_stopped_of_enter hlt hmove)
  · exact hc

/-! ## Histories -/

/-- With the given history the listener `l` comes to be from `l₀`. -/
inductive Happens (l₀ : Listener β) : List Happening → Listener β → Prop where
  | refl : Happens l₀ [] l₀
  | request {hs : List Happening} {l : Listener β} (call : Call) (h : Happens l₀ hs l) :
      Happens l₀ (hs ++ [.asked l.callers.length call]) (l.request call)
  | move {hs : List Happening} {l l' : Listener β} (mover : Mover) (h : Happens l₀ hs l)
      (hm : l.move? mover = some l') : Happens l₀ (hs ++ (l.seen mover l').toList) l'

theorem Happens.reaches (h : Happens l₀ hs l) : Reaches l₀ l := by
  induction h with
  | refl => exact .refl l₀
  | request call _ ih => exact .request call ih
  | move mover _ hm ih => exact .move mover ih hm

/-- Whatever can come to be has a history. -/
theorem reaches_iff_happens : Reaches l₀ l ↔ ∃ hs, Happens l₀ hs l := by
  constructor
  · intro h
    induction h with
    | refl => exact ⟨[], .refl⟩
    | request call _ ih =>
      obtain ⟨hs, h⟩ := ih
      exact ⟨_, h.request call⟩
    | move mover _ hm ih =>
      obtain ⟨hs, h⟩ := ih
      exact ⟨_, h.move mover hm⟩
  · rintro ⟨hs, h⟩
    exact h.reaches

/-- The history of some moves in order, if all of them can be made. -/
def record (l : Listener β) : List Mover → Option (List Happening × Listener β)
  | [] => some ([], l)
  | mover :: rest => do
    let l' ← l.move? mover
    let (hs, l'') ← l'.record rest
    return ((l.seen mover l').toList ++ hs, l'')

theorem Happens.record (h : Happens l₀ hs l) {movers : List Mover} {hs' : List Happening}
    (hr : l.record movers = some (hs', l')) : Happens l₀ (hs ++ hs') l' := by
  induction movers generalizing l hs hs' with
  | nil =>
    cases hr
    rw [List.append_nil]
    exact h
  | cons mover rest ih =>
    simp only [Listener.record, Option.bind_eq_bind, Option.bind_eq_some_iff, Prod.exists,
      Option.pure_def, Option.some.injEq, Prod.mk.injEq] at hr
    obtain ⟨k, hm, hs'', k', hk, rfl, rfl⟩ := hr
    rw [← List.append_assoc]
    exact ih (h.move mover hm) hk

omit [CaptureMechanism β] in
theorem concat_eq_append_cons {α : Type} {xs before after : List α} {x y : α}
    (h : xs ++ [y] = before ++ x :: after) :
    (xs = before ∧ y = x) ∨ ∃ later, xs = before ++ x :: later := by
  rcases List.eq_nil_or_concat after with rfl | ⟨later, z, rfl⟩
  · obtain ⟨rfl, hx⟩ := List.append_inj' h rfl
    exact .inl ⟨rfl, List.singleton_inj.1 hx⟩
  · rw [List.concat_eq_append, ← List.cons_append, ← List.append_assoc] at h
    exact .inr ⟨later, (List.append_inj' h rfl).1⟩

/-- An entry of a history was made by a request or by a move. The entries before it are the history
of the state in which it was made. -/
theorem Happens.split {x : Happening} {before after : List Happening}
    (h : Happens l₀ (before ++ x :: after) l) :
    ∃ l₁ : Listener β, Happens l₀ before l₁ ∧ ((∃ call, x = .asked l₁.callers.length call) ∨
      ∃ mover l₂, l₁.move? mover = some l₂ ∧ l₁.seen mover l₂ = some x) := by
  generalize hall : before ++ x :: after = all at h
  -- either the last step made the entry, or the history before that step contains it
  induction h generalizing after with
  | refl => simp at hall
  | @request hs l call h ih =>
    obtain ⟨rfl, rfl⟩ | ⟨later, rfl⟩ := concat_eq_append_cons hall.symm
    · exact ⟨l, h, .inl ⟨call, rfl⟩⟩
    · exact ih rfl
  | @move hs l l' mover h hm ih =>
    cases hseen : l.seen mover l' with
    | none =>
      rw [hseen, Option.toList_none, List.append_nil] at hall
      exact ih hall
    | some y =>
      rw [hseen, Option.toList_some] at hall
      obtain ⟨rfl, rfl⟩ | ⟨later, rfl⟩ := concat_eq_append_cons hall.symm
      · exact ⟨l, h, .inr ⟨mover, l', hm, hseen⟩⟩
      · exact ih rfl

end Listener

/-! ## Sessions in a history -/

namespace Happening

/-- The session of the thread `n` is installed. -/
def begins (n : Nat) : Happening → Bool
  | .began _ k => k == n
  | _ => false

/-- The program of the thread `n` is over. -/
def ends (n : Nat) : Happening → Bool
  | .ended k => k == n
  | _ => false

def accepted? : Happening → Option KeyEvent
  | .accepted _ event => some event
  | _ => none

/-- The event with which the thread `n` calls its callback. -/
def called? (n : Nat) : Happening → Option KeyEvent
  | .called k event => if k = n then some event else none
  | _ => none

/-- The thread that this is about. -/
def thread? : Happening → Option Nat
  | .spawned _ n | .began _ n | .called n _ | .ended n => some n
  | _ => none

/-- Whether this leaves all sessions as they are and is no call of a callback. -/
def isQuiet : Happening → Bool
  | .accepted .. | .spawned .. | .began .. | .called .. | .ended _ => false
  | _ => true

/-- Whether this is about what becomes of the start of the caller `c`. -/
def isStart (c : Nat) : Happening → Bool
  | .spawned k _ | .began k _ | .ignored k | .failed k _ => k == c
  | _ => false

end Happening

namespace History

open Happening

variable (n : Nat) (hs : List Happening)

/-- The session of the thread `n` is installed, and the program of the thread is not over. -/
def isOpen : Bool := hs.any (begins n) && !hs.any (ends n)

/-- What happens while the session of the thread `n` is open, with its beginning. -/
def during : List Happening :=
  (hs.takeWhile fun x => !ends n x).dropWhile fun x => !begins n x

/-- The events for which `inject` said that they are accepted while the session of the thread `n`
was open. -/
def acceptedIn : List KeyEvent := (during n hs).filterMap accepted?

/-- The events with which the callback of the thread `n` was called. -/
def calledBy : List KeyEvent := hs.filterMap (called? n)

/-- What became of the start of the caller `c`. -/
def startOf (c : Nat) (hs : List Happening) : List Happening := hs.filter (isStart c)

variable {n hs}

theorem accepted?_of_ends {x : Happening} (h : ends n x = true) : x.accepted? = none := by
  cases x <;> first | rfl | cases h

theorem accepted?_of_begins {x : Happening} (h : begins n x = true) : x.accepted? = none := by
  cases x <;> first | rfl | cases h

theorem during_of_ended (h : hs.any (ends n) = true) (later : List Happening) :
    during n (hs ++ later) = during n hs := by
  -- what is taken stops at the end of the session, so it does not reach what comes later
  have hlen : (hs.takeWhile fun x => !ends n x).length ≠ hs.length := by
    intro hlen
    have hall := List.takeWhile_eq_self_iff.1
      ((List.takeWhile_prefix _).eq_of_length hlen)
    obtain ⟨x, hx, hends⟩ := List.any_eq_true.1 h
    simpa [hends] using hall x hx
  rw [during, List.takeWhile_append, if_neg hlen, during]

theorem during_of_not_ended (h : hs.any (ends n) = false) :
    during n hs = hs.dropWhile fun x => !begins n x := by
  rw [during, List.takeWhile_eq_self_iff.2]
  intro x hx
  simpa using List.any_eq_false.1 h x hx

/-- What is accepted is accepted in a session if the session is open. -/
theorem acceptedIn_concat (hs : List Happening) (x : Happening) :
    acceptedIn n (hs ++ [x]) =
      acceptedIn n hs ++ if isOpen n hs then x.accepted?.toList else [] := by
  unfold acceptedIn isOpen
  cases hended : hs.any (ends n) with
  | true => simp [during_of_ended hended]
  | false =>
    cases hx : ends n x with
    | true =>
      -- the session ends, and so does what is counted
      have hnone := accepted?_of_ends hx
      have htake : during n (hs ++ [x]) = during n hs := by
        have hall : ∀ y ∈ hs, (!ends n y) = true := by simpa using hended
        rw [during, during, List.takeWhile_append_of_pos hall, List.takeWhile_eq_self_iff.2 hall]
        simp [hx]
      rw [htake, hnone]
      simp
    | false =>
      have hended' : (hs ++ [x]).any (ends n) = false := by simp [hended, hx]
      rw [during_of_not_ended hended', during_of_not_ended hended, List.dropWhile_append]
      cases hbegun : hs.any (begins n) with
      | true =>
        -- the beginning is kept, so all that follows it is
        have hne : (hs.dropWhile fun y => !begins n y).isEmpty = false := by
          rw [List.isEmpty_eq_false_iff, ne_eq, List.dropWhile_eq_nil_iff]
          intro hall
          obtain ⟨y, hy, hbegins⟩ := List.any_eq_true.1 hbegun
          simpa [hbegins] using hall y hy
        cases hx' : x.accepted? <;> simp [hne, hx']
      | false =>
        have hnil : (hs.dropWhile fun y => !begins n y) = [] := by
          rw [List.dropWhile_eq_nil_iff]
          intro y hy
          simpa using List.any_eq_false.1 hbegun y hy
        rw [hnil]
        cases hx' : begins n x with
        | true => simp [hx', accepted?_of_begins hx']
        | false => simp [hx']

theorem calledBy_concat (hs : List Happening) (x : Happening) :
    calledBy n (hs ++ [x]) = calledBy n hs ++ (called? n x).toList := by
  unfold calledBy
  rw [List.filterMap_append]
  cases hx : called? n x <;> simp [hx]

theorem acceptedIn_concat_of_none {x : Happening} (h : x.accepted? = none) (hs : List Happening) :
    acceptedIn n (hs ++ [x]) = acceptedIn n hs := by
  rw [acceptedIn_concat, h]
  simp

theorem acceptedIn_eq_nil (h : hs.any (begins n) = false) : acceptedIn n hs = [] := by
  have hnone : ∀ x ∈ hs.takeWhile fun x => !ends n x, (!begins n x) = true := by
    intro x hx
    simpa using List.any_eq_false.1 h x (List.takeWhile_subset _ hx)
  rw [acceptedIn, during, List.dropWhile_eq_nil_iff.2 hnone]
  rfl

theorem calledBy_concat_of_none {x : Happening} (h : called? n x = none) (hs : List Happening) :
    calledBy n (hs ++ [x]) = calledBy n hs := by
  rw [calledBy_concat, h]
  simp

theorem any_ends_concat {x : Happening} (h : ends n x = false) (hs : List Happening) :
    (hs ++ [x]).any (ends n) = hs.any (ends n) := by
  simp [h]

theorem isOpen_concat (n : Nat) (hs : List Happening) (x : Happening) :
    isOpen n (hs ++ [x]) =
      ((hs.any (begins n) || begins n x) && !(hs.any (ends n) || ends n x)) := by
  simp [isOpen]

theorem isOpen_of_append {before later : List Happening} (hopen : isOpen n (before ++ later) = true)
    (h : ∀ c, .began c n ∉ later) : isOpen n before = true := by
  have hbegins : later.any (begins n) = false := by
    rw [List.any_eq_false]
    intro x hx
    cases x with
    | began c k =>
      simp only [begins, beq_iff_eq]
      rintro rfl
      exact h c hx
    | _ => simp [begins]
  simp only [isOpen, List.any_append, hbegins, Bool.or_false, Bool.and_eq_true, Bool.not_eq_true',
    Bool.or_eq_false_iff] at hopen ⊢
  exact ⟨hopen.1, hopen.2.1⟩

theorem startOf_append (c : Nat) (hs hs' : List Happening) :
    startOf c (hs ++ hs') = startOf c hs ++ startOf c hs' :=
  List.filter_append _ _

/-- What is seen of a turn is about no other caller's start. -/
theorem startOf_seen_of_ne {c k : Nat} (hk : k ≠ c) (p p' : Phase) :
    startOf k (p.seen c p').toList = [] := by
  unfold Phase.seen
  split <;> simp [startOf, isStart, Ne.symm hk]

/-- An entry that neither begins nor ends the session of the thread `n` and is no call by it. -/
structure Passes (n : Nat) (x : Happening) : Prop where
  noBegin : begins n x = false
  noEnd : ends n x = false
  noCall : called? n x = none

variable {x : Happening}

theorem passes_of_isQuiet (h : x.isQuiet = true) (n : Nat) : Passes n x := by
  cases x <;> first | exact ⟨rfl, rfl, rfl⟩ | cases h

theorem passes_of_ne {k : Nat} (hthread : x.thread? = some k) (hk : k ≠ n) : Passes n x := by
  cases x <;> cases hthread <;> constructor <;> simp [begins, ends, called?, hk]

theorem Passes.isOpen_concat (hx : Passes n x) (hs : List Happening) :
    isOpen n (hs ++ [x]) = isOpen n hs := by
  rw [History.isOpen_concat, hx.noBegin, hx.noEnd]
  simp [isOpen]

end History

end Keystroke
