import Keystroke.Listener.Basic

/-!
# One caller at a time

How a listener runs for a program that uses it from one place: each caller is attended to until it
is told something, and the newest capture thread moves only while the caller has to wait for it.
Between two callers the thread may be left to itself until it rests. These are some of the orders
in which the moves of a listener can happen.
-/

namespace Keystroke

/-- An upper bound of the moves that a caller has left. -/
def Phase.rank : Phase → Nat
  | entered _ => 12
  | looking _ => 11
  | probing _ => 10
  | clearing .. => 9
  | waking .. => 8
  | joining .. => 7
  | raising _ => 6
  | spawning _ => 5
  | awaiting _ => 4
  | dropping .. => 3
  | collecting .. => 2
  | failing _ | installing .. | lowering => 1
  | replied _ => 0

namespace Listener

variable {β : Type}

def rank (l : Listener β) (c : Nat) : Nat := (l.callers[c]?.map (·.rank)).getD 0

theorem rank_withCaller_lt {l : Listener β} {c : Nat} {phase next : Phase}
    (hc : l.callers[c]? = some phase) (h : next.rank < phase.rank) :
    (l.withCaller c next).rank c < phase.rank := by
  have hlt : c < l.callers.length := (List.getElem?_eq_some_iff.1 hc).1
  simp [rank, withCaller, hlt, h]

variable [CaptureMechanism β]

theorem rank_enter_lt {l l' : Listener β} {c : Nat} {call : Call}
    (hc : l.callers[c]? = some (.entered call)) (h : l.enter c call = some l') :
    l'.rank c < Phase.rank (.entered call) := by
  unfold enter at h
  split at h
  case h_5 =>
    split at h
    · cases h; exact rank_withCaller_lt hc (by simp [Phase.rank])
    · split at h
      · cases h; exact rank_withCaller_lt hc (by simp [Phase.rank])
      · split at h <;> cases h <;> exact rank_withCaller_lt hc (by simp [Phase.rank])
  case h_3 =>
    split at h
    · dsimp only at h
      split at h <;> cases h <;> exact rank_withCaller_lt hc (by simp [Phase.rank])
    · cases h
  case h_2 =>
    split at h
    · cases h; exact rank_withCaller_lt hc (by simp [Phase.rank])
    · cases h
  all_goals cases h; exact rank_withCaller_lt hc (by simp [Phase.rank])

theorem rank_moveCaller_lt {l l' : Listener β} {c : Nat} {phase : Phase}
    (hc : l.callers[c]? = some phase) (h : l.moveCaller c phase = some l') :
    l'.rank c < phase.rank := by
  cases phase with
  | entered call => exact rank_enter_lt hc h
  | looking callback =>
    simp only [moveCaller] at h
    split at h
    · cases h; exact rank_withCaller_lt hc (by simp [Phase.rank])
    · split at h <;> cases h <;> exact rank_withCaller_lt hc (by simp [Phase.rank])
  | probing callback =>
    simp only [moveCaller] at h
    split at h
    · cases h; exact rank_withCaller_lt hc (by simp [Phase.rank])
    · split at h <;> cases h <;> exact rank_withCaller_lt hc (by simp [Phase.rank])
  | waking s purpose =>
    simp only [moveCaller] at h
    split at h
    · cases h; exact rank_withCaller_lt hc (by simp [Phase.rank])
    · cases h
      refine rank_withCaller_lt ?_ (by simp [Phase.rank])
      cases l.threads[s.thread]? <;> exact hc
  | joining s purpose =>
    simp only [moveCaller] at h
    split at h
    · split at h <;> cases h <;> exact rank_withCaller_lt hc (by simp [Phase.rank])
    · cases h
  | spawning callback =>
    simp only [moveCaller] at h
    split at h <;> cases h <;> exact rank_withCaller_lt hc (by simp [Phase.rank])
  | awaiting n =>
    simp only [moveCaller] at h
    split at h
    · cases h; exact rank_withCaller_lt hc (by simp [Phase.rank])
    · split at h
      · cases h; exact rank_withCaller_lt hc (by simp [Phase.rank])
      · cases h; exact rank_withCaller_lt hc (by simp [Phase.rank])
      · split at h <;> cases h; exact rank_withCaller_lt hc (by simp [Phase.rank])
  | collecting n e =>
    simp only [moveCaller] at h
    split at h <;> cases h
    exact rank_withCaller_lt hc (by simp [Phase.rank])
  | replied r => cases h
  | clearing | raising | dropping | failing | installing | lowering =>
    cases h; exact rank_withCaller_lt hc (by simp [Phase.rank])

/-- A caller can move only a bounded number of times. -/
theorem rank_move?_lt {l l' : Listener β} {c : Nat} (h : l.move? (.caller c) = some l') :
    l'.rank c < l.rank c := by
  simp only [move?, Option.bind_eq_bind, Option.bind_eq_some_iff] at h
  obtain ⟨phase, hc, h⟩ := h
  have := rank_moveCaller_lt hc h
  simpa [rank, hc] using this

def newest (l : Listener β) : Mover := .thread (l.threads.length - 1)

def distance (l : Listener β) : Nat × Capture Unit × Nat × Nat :=
  match l.threads[l.threads.length - 1]? with
  | some t => t.distance
  | none => (0, .done (), 0, 0)

theorem closer_of_move?_newest {l l' : Listener β} (h : l.move? l.newest = some l') :
    CaptureThread.Closer l'.distance l.distance ∧ l'.callers = l.callers := by
  simp only [move?, newest] at h
  split at h
  · cases h
  next t ht =>
    obtain ⟨⟨m, t'⟩, hm, rfl⟩ := Option.map_eq_some_iff.1 h
    have hlt : l.threads.length - 1 < l.threads.length := (List.getElem?_eq_some_iff.1 ht).1
    refine ⟨?_, rfl⟩
    have hd : ((l.withShared m).withThread (l.threads.length - 1) t').distance = t'.distance := by
      simp [distance, withThread, withShared, hlt]
    have hd' : l.distance = t.distance := by simp [distance, ht]
    rw [hd, hd']
    exact CaptureThread.closer_of_move? hm

def settle (l : Listener β) : Listener β :=
  match _h : l.move? l.newest with
  | none => l
  | some l' => l'.settle
termination_by l.distance
decreasing_by exact (closer_of_move?_newest ‹_›).1

def answer? (l : Listener β) (c : Nat) : Option Reply :=
  match l.callers[c]? with
  | some (.replied r) => some r
  | _ => none

/-- Lets a caller move until it was told something; while it has to wait the newest thread moves. -/
def attend (l : Listener β) (c : Nat) : Listener β :=
  if (l.answer? c).isSome then l
  else
    match _h : l.move? (.caller c) with
    | some l' => l'.attend c
    | none =>
      -- the caller waits for the thread; if that rests too there will be no answer
      match _h' : l.move? l.newest with
      | some l' => l'.attend c
      | none => l
termination_by (l.rank c, l.distance)
decreasing_by
  · exact Prod.Lex.left _ _ (rank_move?_lt ‹_›)
  · have hm := closer_of_move?_newest ‹l.move? l.newest = some l'›
    have hr : l'.rank c = l.rank c := by simp [rank, hm.2]
    rw [hr]
    exact Prod.Lex.right _ hm.1

/-- Asks the listener for something. Without an answer it has to be waited for forever. -/
def ask (l : Listener β) (call : Call) : Option Reply × Listener β :=
  let l' := (l.request call).attend l.callers.length
  (l'.answer? l.callers.length, l')

/-- Gives the listener up, which stops it. -/
def close (l : Listener β) : Listener β := (l.ask .stop).2

/-! ## The orders are possible ones -/

theorem Reaches.trans {l l' l'' : Listener β} (h : Reaches l l') (h' : Reaches l' l'') :
    Reaches l l'' := by
  induction h' with
  | refl => exact h
  | request call _ ih => exact .request call ih
  | move mover _ hm ih => exact .move mover ih hm

theorem reaches_settle (l : Listener β) : Reaches l l.settle := by
  fun_induction settle l with
  | case1 l h => exact .refl l
  | case2 l l' h ih => exact Reaches.trans (.move _ (.refl l) h) ih

theorem reaches_attend (l : Listener β) (c : Nat) : Reaches l (l.attend c) := by
  fun_induction attend l c with
  | case1 l hr => exact .refl l
  | case2 l hr l' h ih => exact Reaches.trans (.move _ (.refl l) h) ih
  | case3 l hr h l' h' ih => exact Reaches.trans (.move _ (.refl l) h') ih
  | case4 l hr h h' => exact .refl l

theorem reaches_ask (l : Listener β) (call : Call) : Reaches l (l.ask call).2 :=
  Reaches.trans (.request call (.refl l)) (reaches_attend _ _)

end Listener

end Keystroke
