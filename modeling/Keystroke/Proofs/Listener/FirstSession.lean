import Keystroke.Proofs.Capture.Delivery
import Keystroke.Proofs.Listener.FirstStart
import Keystroke.Proofs.Listener.Handshake

/-!
# The first session of a listener

After a first start that was answered the capture thread is the only one that moves, until somebody
stops the listener. A thread whose program plays some events does not miss that the flag is lowered
then: it comes to its end by itself, and the stop is answered.

## Main statements

- `ask_start_standing`: the listener when its first start was answered.
- `settle_standing`: the listener when its thread rests.
- `callers_close_standing`: the stop that comes then is answered.
-/

namespace Keystroke

namespace CaptureThread

variable {callback : Callback} {events es : List KeyEvent} {m m' : Shared} {t t' : CaptureThread}

/-- Such a thread waits for nothing but the flag, if its callback does not start the listener. -/
theorem Heeding.not_isDeaf (h : Heeding callback events m t es)
    (hc : ∀ i e, (callback.react i e).starts = false) : t.isDeaf none = false := by
  have hstage := h.stage
  unfold isDeaf
  split
  next next hs =>
    rw [hs] at hstage
    cases hstage with
    | playing hp => cases hp
    | silent hp => cases hp
  next acts noted rest hs =>
    rw [hs] at hstage
    cases hstage with
    | calling _ _ _ hacts =>
      have hmem := hacts.subset List.mem_cons_self
      rw [mem_acts_start, hc] at hmem
      cases hmem
  next => rfl

end CaptureThread

namespace Listener

open CaptureThread (Heeding begin heeding_of_move? heeding_of_others heeding_of_runs)

variable {β : Type} [CaptureMechanism β] {b b' : β} {callback : Callback}
  {events es : List KeyEvent} {m : Shared} {t : CaptureThread}

/-- The listener while its first session lasts. -/
def standing (b : β) (m : Shared) (t : CaptureThread) : Listener β where
  backend := b
  shared := m
  threads := [t]
  callers := [.replied (.started (.ok ()))]

/-- The memory and the thread of a first session that nobody has to wake, when nobody has locked
it. -/
structure Stands (callback : Callback) (events : List KeyEvent) (m : Shared) (t : CaptureThread)
    (es : List KeyEvent) : Prop where
  free : m.holder = none
  session : m.session = some { thread := 0 }
  heeding : Heeding callback events m t es

/-- A program that reports that it captures lets the first start succeed. -/
theorem ask_start_standing {h : Host} {next : Capture Unit} {c : Bool} (callback : Callback)
    (hopen : CaptureMechanism.openSession b = (.ok (.report (.ok none) next), b'))
    (hp : Capture.Plays c next events) :
    ∃ m t, (idle b h).ask (.start (some callback)) =
        (some (.started (.ok ())), standing (CaptureMechanism.install 0 b') m t) ∧
      Stands callback events m t [] := by
  refine ⟨{ flag := true, session := some { thread := 0 }, host := h },
    { stage := .body next, callback, report := some (.ok none) }, ?_, rfl, rfl, ?_⟩
  · change ((((idle b h).request (.start (some callback))).attend 0).answer? 0,
      ((idle b h).request (.start (some callback))).attend 0) = _
    rw [attend_start callback hopen, attend_of_newest rfl rfl rfl, attend_of_caller rfl rfl,
      attend_of_caller rfl rfl, attend_of_answer rfl]
    rfl
  · refine ⟨rfl, rfl, .playing hp (List.nil_append _) ?_, by simp⟩
    rintro ⟨i, e, he, -⟩
    simp at he

theorem move?_standing (b : β) (m : Shared) (t : CaptureThread) :
    (standing b m t).move? (.thread 0) =
      (t.move? 0 m).map fun next => standing b next.1 next.2 := rfl

theorem Stands.move? {m' : Shared} {t' : CaptureThread} (h : Stands callback events m t es)
    (hm : t.move? 0 m = some (m', t')) :
    Stands callback events m' t' (es ++ t.invocation) where
  free := (CaptureThread.move?_frame hm).holder.trans h.free
  session := (CaptureThread.move?_frame hm).session.trans h.session
  heeding := heeding_of_move? h.heeding hm

/-- The session lasts until the thread rests, and then the thread does not move. -/
theorem settle_standing {m : Shared} {t : CaptureThread} {es : List KeyEvent} (b : β)
    (h : Stands callback events m t es) :
    ∃ m' t' es', (standing b m t).settle = standing b m' t' ∧ Stands callback events m' t' es' ∧
      (standing b m' t').move? (.thread 0) = none := by
  -- the thread is the newest one, as it is the only one
  have hnewest := move?_standing b m t
  cases hm : t.move? 0 m with
  | none =>
    rw [hm, Option.map_none] at hnewest
    exact ⟨m, t, es, settle_of_rest hnewest, h, hnewest⟩
  | some next =>
    obtain ⟨m₁, t₁⟩ := next
    obtain ⟨m', t', es', hsettle, hstands, hrest⟩ := settle_standing b (h.move? hm)
    rw [hm, Option.map_some] at hnewest
    exact ⟨m', t', es', (settle_of_newest hnewest).trans hsettle, hstands, hrest⟩
termination_by t.distance
decreasing_by exact CaptureThread.closer_of_move? hm

/-- The listener while a caller that stops it waits for the end of the thread. -/
def ending (b : β) (m : Shared) (t : CaptureThread) : Listener β where
  backend := b
  shared := m
  threads := [t]
  callers := [.replied (.started (.ok ())), .joining { thread := 0 } .stop]

/-- The thread comes to its end, and then the caller is answered. -/
theorem callers_attend_ending {m : Shared} {t : CaptureThread} {es : List KeyEvent} (b : β)
    (h : Heeding callback events m t es)
    (hc : ∀ i e, (callback.react i e).starts = false) (hf : m.flag = false) :
    ((ending b m t).attend 1).callers = [.replied (.started (.ok ())), .replied .stopped] := by
  have hmoves : (ending b m t).move? (.caller 1) =
      if t.isOver then some ((ending b m t).withCaller 1 .lowering) else none := by
    simp only [move?, ending, List.getElem?_cons_succ, List.getElem?_cons_zero,
      Option.bind_eq_bind, Option.bind_some, moveCaller, isOver, Option.all_some]
    rfl
  cases ho : t.isOver with
  | true =>
    -- the caller sees the end and lowers the flag once more
    rw [ho, if_pos rfl] at hmoves
    rw [attend_of_caller rfl hmoves, attend_of_caller rfl rfl, attend_of_answer rfl]
    rfl
  | false =>
    -- the caller has to wait, and nothing keeps the thread from moving
    rw [ho, if_neg Bool.false_ne_true] at hmoves
    have hquit : (none : Option Entry).isSome = true → t.quit = true :=
      fun h => absurd h Bool.false_ne_true
    have hsome : (t.move? 0 m).isSome := CaptureThread.isSome_move? hf ho hquit (h.not_isDeaf hc)
    obtain ⟨⟨m', t'⟩, hm⟩ := Option.isSome_iff_exists.1 hsome
    have hnewest : (ending b m t).move? (ending b m t).newest = some (ending b m' t') := by
      change (t.move? 0 m).map _ = _
      rw [hm]
      rfl
    have hdown : m'.flag = false := by
      rw [← Bool.not_eq_true]
      intro hup
      rw [(CaptureThread.move?_frame hm).flag hup] at hf
      cases hf
    rw [attend_of_newest rfl hmoves hnewest]
    exact callers_attend_ending b (heeding_of_move? h hm) hc hdown
termination_by t.distance
decreasing_by exact CaptureThread.closer_of_move? hm

/-- A stop that comes while nobody has locked the session is answered. -/
theorem callers_close_standing (b : β) (h : Stands callback events m t es)
    (hc : ∀ i e, (callback.react i e).starts = false) :
    (standing b m t).close.callers = [.replied (.started (.ok ())), .replied .stopped] := by
  obtain ⟨flag, holder, session, heard, host⟩ := m
  obtain ⟨rfl, rfl, hheeding⟩ := h
  change (((standing b _ t).request .stop).attend 1).callers = _
  -- the caller takes the session away, lowers the flag and goes on to wait
  rw [attend_of_caller rfl rfl, attend_of_caller rfl rfl, attend_of_caller rfl rfl]
  have hlowered : t.isOver = false → false = true → flag = true :=
    fun _ h => absurd h Bool.false_ne_true
  exact callers_attend_ending b (heeding_of_others hheeding rfl hlowered) hc rfl

end Listener

end Keystroke
