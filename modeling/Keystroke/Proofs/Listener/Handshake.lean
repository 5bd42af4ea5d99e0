import Keystroke.Capture.Scripted
import Keystroke.Proofs.Capture.Traces
import Keystroke.Proofs.Listener.Dealings

/-!
# The handshake with a capture thread

A thread and the caller that spawns it share a place for one report and a flag that both of them
write. The caller goes on when there is a report, or when there can be none any more; whoever ends
the session of the thread later lowers the flag, wakes the thread and waits for its end, in this
order. What can be relied on in this is worked out here for all programs that a thread can run and
for all orders of moves.

## Main statements

- `report_of_deals`: the place for the report holds the first report of the thread.
- `attended_of_reachable`: what a caller has done about a thread stays done until it goes on.
- `lawful_of_deals`: what is in the memory when something is done about a thread.
- `handshake_laws`: what callers and threads can rely on.
-/

namespace Keystroke

/-! ## What a thread keeps -/

namespace CaptureThread

variable {self : Nat} {m m' : Shared} {t t' : CaptureThread}

theorem report_eq_of_inner_eq (h : t'.inner = t.inner) : t'.report = t.report := by
  have hr : t'.inner.report = t.inner.report := congrArg report h
  exact hr

theorem isAlive_eq_of_inner_eq (h : t'.inner = t.inner) : t'.isAlive = t.isAlive := by
  simp only [isAlive, stage_eq_of_inner_eq h]

/-- What a thread keeps when it moves: its first report, and that it was asked to quit. -/
structure Retains (t t' : CaptureThread) : Prop where
  report : t'.report = t.report.or t.reporting?
  quit : t.quit = true → t'.quit = true

theorem retains_of_moveBody {p : Capture Unit} (hs : t.stage = .body p)
    (h : t.moveBody self m p = some (m', t')) : t.Retains t' := by
  cases p <;> simp only [moveBody] at h
  case idle | awaitQuit =>
    split at h <;> cases h
    exact ⟨by simp [reporting?, hs, goto], id⟩
  case postQuit =>
    cases h
    exact ⟨by simp [reporting?, hs], fun _ => rfl⟩
  all_goals
    cases h
    exact ⟨by simp [reporting?, hs, goto, call], id⟩

theorem retains_of_moveCall {acts : List Act} {noted : Heard} {rest : Capture Unit}
    (hs : t.stage = .calling acts noted rest)
    (h : t.moveCall self m noted rest acts = some (m', t')) : t.Retains t' := by
  -- nothing is reported from within the callback
  have hnone : t.report = t.report.or t.reporting? := by simp [reporting?, hs]
  cases acts with
  | nil =>
    cases h
    exact ⟨hnone, id⟩
  | cons act acts =>
    cases act with
    | start =>
      simp only [moveCall] at h
      split at h <;> cases h
      exact ⟨hnone, id⟩
    | stop | cause | look | note | panic =>
      cases h
      exact ⟨hnone, id⟩

/-- A report goes into its place if that is empty, and a request to quit is not taken back. -/
theorem retains_of_move? (h : t.move? self m = some (m', t')) : t.Retains t' := by
  unfold move? at h
  split at h
  next p hs => exact retains_of_moveBody hs h
  next rest hs =>
    split at h
    · cases h
      exact ⟨by simp [reporting?, hs, call], id⟩
    · split at h <;> cases h
      exact ⟨by simp [reporting?, hs, goto], id⟩
  next acts noted rest hs => exact retains_of_moveCall hs h
  next hs =>
    cases h
    exact ⟨by simp [reporting?, hs, goto], id⟩
  next hs =>
    cases h
    exact ⟨by simp [reporting?, hs, goto], id⟩
  next => cases h

/-- A thread whose program is over reports no more. -/
theorem reporting?_of_not_isAlive (h : t.isAlive = false) : t.reporting? = none := by
  cases hs : t.stage <;> simp_all [isAlive, reporting?]

/-- The thread has reported an error, or it can report nothing any more. -/
def Failed (e : CaptureError) (t : CaptureThread) : Prop :=
  t.report = some (.error e) ∨ t.report = none ∧ t.isAlive = false ∧ e = .silentStartup

theorem Failed.of_inner_eq {e : CaptureError} (h : t.Failed e) (hi : t'.inner = t.inner) :
    t'.Failed e := by
  rwa [Failed, report_eq_of_inner_eq hi, isAlive_eq_of_inner_eq hi]

theorem Failed.move? {e : CaptureError} (h : t.Failed e) (hm : t.move? self m = some (m', t')) :
    t'.Failed e := by
  rcases h with hr | ⟨hr, ha, rfl⟩
  · left
    rw [(retains_of_move? hm).report, hr]
    rfl
  · right
    refine ⟨?_, ?_, rfl⟩
    · rw [(retains_of_move? hm).report, hr, reporting?_of_not_isAlive ha]
      rfl
    · -- it does not come to life again
      cases ha' : t'.isAlive with
      | false => rfl
      | true => rw [isAlive_of_move? hm ha'] at ha; cases ha

/-! ## What a thread waits for -/

/-- Whether the thread waits for what does not come about when its session is ended: for a request
to quit, if it cannot be woken, or for the lock. -/
def isDeaf (waker : Option Entry) (t : CaptureThread) : Bool :=
  match t.stage with
  | .body (.awaitQuit _) => waker.isNone
  | .calling (.start :: _) _ _ => true
  | _ => false

/-- Any other thread moves when the flag is down and it was woken. -/
theorem isSome_move? {waker : Option Entry} (hf : m.flag = false) (ho : t.isOver = false)
    (hq : waker.isSome = true → t.quit = true) (hd : t.isDeaf waker = false) :
    (t.move? self m).isSome = true := by
  cases hs : t.stage with
  | body p =>
    simp only [move?, hs]
    cases p with
    | awaitQuit =>
      have hwaker : waker.isSome = true := by
        cases waker with
        | none => simp [isDeaf, hs] at hd
        | some _ => rfl
      simp [moveBody, hq hwaker]
    | _ => simp [moveBody, hf]
  | receiving rest =>
    simp only [move?, hs]
    cases t.pending with
    | nil => simp [hf]
    | cons => rfl
  | calling acts noted rest =>
    simp only [move?, hs]
    cases acts with
    | nil => rfl
    | cons act acts =>
      cases act with
      | start => simp [isDeaf, hs] at hd
      | _ => rfl
  | leaving | ending =>
    simp only [move?, hs]
    rfl
  | _ => simp [isOver, hs] at ho

end CaptureThread

/-! ## What callers keep -/

/-- Whether a caller at the phase has lowered the flag because of a thread that it has not seen the
end of. -/
def Phase.lowered : Phase → Bool
  | .waking .. | .joining .. | .collecting .. => true
  | _ => false

/-- The thread that a caller at the phase gives up, and why. -/
def Phase.givesUp : Phase → Option (Nat × CaptureError)
  | .dropping n e | .collecting n e => some (n, e)
  | _ => none

/-- What is in the memory when something was done about a thread, by what the thread had reported
first, if it had reported at all. -/
def Moment.Lawful (first : Option Answer) (x : Moment) : Prop :=
  match x.mark with
  | .spawned | .reported _ => True
  | .answered (.ok waker) => first = some (.ok waker)
  -- without a report there is an answer only when there can be no report any more
  | .answered (.error e) =>
    (first = some (.error e) ∨ first = none ∧ e = .silentStartup) ∧ x.flag = false ∧ x.ended = true
  | .cleared | .woken _ => x.flag = false
  | .joined => x.flag = false ∧ x.ended = true

theorem Phase.holds_of_lowered {p : Phase} (h : p.lowered = true) : p.holds = true := by
  cases p <;> first | rfl | cases h

namespace Listener

variable {β : Type}

/-- What a caller has done about a thread, or has learnt from it, stays so until it goes on. -/
structure Attended (l : Listener β) : Prop where
  lowered : ∀ (c : Nat) (p : Phase), l.callers[c]? = some p → p.lowered = true →
    l.shared.flag = false
  failed : ∀ (c : Nat) (p : Phase) (n : Nat) (e : CaptureError), l.callers[c]? = some p →
    p.givesUp = some (n, e) → ∃ t, l.threads[n]? = some t ∧ t.Failed e
  woken : ∀ (c : Nat) (s : Session) (purpose : Purpose),
    l.callers[c]? = some (.joining s purpose) → s.waker.isSome = true →
    ∃ t, l.threads[s.thread]? = some t ∧ t.quit = true

section Turn

variable {c : Nat} {m m' : Shared} {ts ts' : List CaptureThread} {p p' : Phase}

theorem Turn.lowered (turn : Turn c m ts p m' ts' p') (h : p.lowered = true → m.flag = false)
    (hp' : p'.lowered = true) : m'.flag = false := by
  cases turn with
  | clear | drop => rfl
  | wake => exact h rfl
  | _ => cases hp'

theorem Turn.givesUp (turn : Turn c m ts p m' ts' p') {n : Nat} {e : CaptureError}
    (hp' : p'.givesUp = some (n, e)) :
    p.givesUp = some (n, e) ∨ ∃ t, ts[n]? = some t ∧ t.Failed e := by
  cases turn with
  | failed hn hr =>
    cases hp'
    exact .inr ⟨_, hn, .inl hr⟩
  | silent hn hr ha =>
    cases hp'
    exact .inr ⟨_, hn, .inr ⟨hr, ha, rfl⟩⟩
  | drop => exact .inl hp'
  | _ => cases hp'

/-- Without the lock nobody changes the flag, nor while he takes the lock. -/
theorem Turn.flag_eq (turn : Turn c m ts p m' ts' p') (hp : p.holds = false) :
    m'.flag = m.flag := by
  cases turn <;> first | rfl | cases hp

/-- Who waits for the end of a thread has just woken it. -/
theorem Turn.waking (turn : Turn c m ts p m' ts' p') {s : Session} {purpose : Purpose}
    (hp' : p' = .joining s purpose) : p = .waking s purpose := by
  cases turn <;> cases hp'
  rfl

end Turn

theorem attended_init (b : β) (h : Host) :
    Attended ({ backend := b, shared := { host := h } } : Listener β) where
  lowered c p hc := by simp at hc
  failed c p n e hc := by simp at hc
  woken c s purpose hc := by simp at hc

variable {l l' : Listener β}

theorem attended_request (ha : Attended l) (call : Call) : Attended (l.request call) where
  lowered c p hc hp := by
    rw [getElem?_callers_request] at hc
    split at hc
    · cases hc
      cases hp
    · exact ha.lowered c p hc hp
  failed c p n e hc hp := by
    rw [getElem?_callers_request] at hc
    split at hc
    · cases hc
      cases hp
    · exact ha.failed c p n e hc hp
  woken c s purpose hc hs := by
    rw [getElem?_callers_request] at hc
    split at hc
    · cases hc
    · exact ha.woken c s purpose hc hs

variable [CaptureMechanism β]

omit [CaptureMechanism β] in
/-- What is true of a thread is so after a change to one of the threads that keeps it. -/
theorem exists_getElem?_set {P : CaptureThread → Prop} {ts : List CaptureThread} {k n : Nat}
    {u u' : CaptureThread} (hu : ts[k]? = some u) (hkeeps : P u → P u')
    (h : ∃ t, ts[n]? = some t ∧ P t) : ∃ t, (ts.set k u')[n]? = some t ∧ P t := by
  obtain ⟨t, ht, hP⟩ := h
  by_cases hkn : k = n
  · subst hkn
    rw [ht, Option.some.injEq] at hu
    subst hu
    exact ⟨u', List.getElem?_set_self (List.getElem?_eq_some_iff.1 ht).1, hkeeps hP⟩
  · exact ⟨t, (List.getElem?_set_ne hkn).trans ht, hP⟩

/-- No caller takes a request to quit back. -/
theorem Touches.quit {b b' : β} {ts ts' : List CaptureThread} {p : Phase}
    (touches : Touches b ts p b' ts') {n : Nat} (h : ∃ t, ts[n]? = some t ∧ t.quit = true) :
    ∃ t, ts'[n]? = some t ∧ t.quit = true := by
  cases touches with
  | nothing | setFailing | refused | install => exact h
  | inject ht event => exact exists_getElem?_set ht id h
  | wake ht purpose => exact exists_getElem?_set ht (fun _ => rfl) h
  | spawn =>
    obtain ⟨t, ht, hq⟩ := h
    have hlt : n < ts.length := (List.getElem?_eq_some_iff.1 ht).1
    exact ⟨t, (List.getElem?_append_left hlt).trans ht, hq⟩

/-- A thread that was asked to quit stays so, whatever moves. -/
theorem quit_of_move? {mover : Mover} (hm : l.move? mover = some l') {n : Nat}
    (h : ∃ t, l.threads[n]? = some t ∧ t.quit = true) :
    ∃ t, l'.threads[n]? = some t ∧ t.quit = true := by
  cases mover with
  | caller c =>
    simp only [move?, Option.bind_eq_bind, Option.bind_eq_some_iff] at hm
    obtain ⟨p, -, hm⟩ := hm
    exact (touches_of_moveCaller hm).quit h
  | thread k =>
    obtain ⟨c, p, p', hmover, -⟩ | ⟨j, u, u', hmover, hu, -, hts, hm⟩ := move?_cases hm
    · cases hmover
    · rw [hts]
      exact exists_getElem?_set hu (CaptureThread.retains_of_move? hm).quit h

/-- A thread that can be woken is asked to quit when it is woken. -/
theorem quit_of_wake {c : Nat} {s : Session} {purpose : Purpose} {t : CaptureThread}
    (hc : l.callers[c]? = some (.waking s purpose)) (hm : l.move? (.caller c) = some l')
    (hs : s.waker.isSome = true) (ht : l.threads[s.thread]? = some t) :
    ∃ t', l'.threads[s.thread]? = some t' ∧ t'.quit = true := by
  simp only [move?, hc, Option.bind_eq_bind, Option.bind_some, moveCaller] at hm
  have hlt : s.thread < l.threads.length := (List.getElem?_eq_some_iff.1 ht).1
  split at hm
  next hnone => simp [hnone] at hs
  next =>
    rw [ht] at hm
    cases hm
    exact ⟨_, List.getElem?_set_self hlt, rfl⟩

/-- A thread that has failed stays so, whatever moves. -/
theorem failed_of_move? {mover : Mover} (hm : l.move? mover = some l') {n : Nat} {e : CaptureError}
    (hf : ∃ t, l.threads[n]? = some t ∧ t.Failed e) :
    ∃ t, l'.threads[n]? = some t ∧ t.Failed e := by
  obtain ⟨c, p, p', rfl, hc, hcs, turn⟩ | ⟨k, u, u', rfl, hu, hcs, hts, hm⟩ := move?_cases hm
  · obtain ⟨t, ht, hf⟩ := hf
    obtain ⟨t', ht', hi⟩ := turn.keeps_thread ht
    exact ⟨t', ht', hf.of_inner_eq hi⟩
  · rw [hts]
    exact exists_getElem?_set hu (fun hf => hf.move? hm) hf

/-- A caller that has lowered the flag because of a thread finds it down as long as it waits. -/
theorem lowered_of_attended (hl : Coherent l) (ha : Attended l) {mover : Mover}
    (hm : l.move? mover = some l') {c : Nat} {p : Phase} (hc : l'.callers[c]? = some p)
    (hp : p.lowered = true) : l'.shared.flag = false := by
  obtain ⟨k, q, q', rfl, hk, hcs, turn⟩ | ⟨n, t, t', rfl, ht, hcs, hts, hm⟩ := move?_cases hm
  · by_cases hkc : k = c
    · subst hkc
      obtain rfl : p = q' := phase_of_set hk hc hcs
      exact turn.lowered (ha.lowered k q hk) hp
    · -- another caller has not got the lock
      rw [hcs, List.getElem?_set_ne hkc] at hc
      have hholder := hl.holding c p hc (Phase.holds_of_lowered hp)
      rw [turn.flag_eq (hl.not_holds (.inr hholder) hkc hk)]
      exact ha.lowered c p hc hp
  · rw [hcs] at hc
    have hdown := ha.lowered c p hc hp
    have hflag := (CaptureThread.move?_frame hm).flag
    rw [hdown] at hflag
    simpa using hflag

theorem attended_of_move? (hl : Coherent l) (hk : Known l) (ha : Attended l) {mover : Mover}
    (hm : l.move? mover = some l') : Attended l' where
  lowered c p hc hp := lowered_of_attended hl ha hm hc hp
  failed c p' n e hc hp := by
    -- a caller that does not move stays where it is, and threads keep what they have told
    by_cases hmover : mover = .caller c
    · subst hmover
      obtain ⟨p, q, hc', hq, -, -, turn, -⟩ := phases_of_move? hm
      rw [hc, Option.some.injEq] at hq
      subst hq
      rcases turn.givesUp hp with hp | hf
      · exact failed_of_move? hm (ha.failed c p n e hc' hp)
      · exact failed_of_move? hm hf
    · rw [phase_of_others hm hmover] at hc
      exact failed_of_move? hm (ha.failed c p' n e hc hp)
  woken c s purpose hc hs := by
    by_cases hmover : mover = .caller c
    · subst hmover
      obtain ⟨p, q, hc', hq, -, -, turn, -⟩ := phases_of_move? hm
      rw [hc, Option.some.injEq] at hq
      obtain rfl := turn.waking hq.symm
      have hlt : s.thread < l.threads.length := hk.callers c _ _ hc' rfl
      exact quit_of_wake hc' hm hs (List.getElem?_eq_getElem hlt)
    · rw [phase_of_others hm hmover] at hc
      exact quit_of_move? hm (ha.woken c s purpose hc hs)

/-- What a caller has done about a thread stays done until it goes on, in all states that can come
to be. -/
theorem attended_of_reachable {b : β} {h : Host} (hr : Reachable b h l) : Attended l := by
  refine (hr.keeps_of_coherent (I := fun k => Known k ∧ Attended k) ?_ ?_ (coherent_init b h)
    ⟨known_init b h, attended_init b h⟩).2
  · rintro k call ⟨hk, ha⟩
    exact ⟨known_request hk call, attended_request ha call⟩
  · rintro k k' mover hl hm ⟨hk, ha⟩
    exact ⟨known_of_move? hk hm, attended_of_move? hl hk ha hm⟩

/-! ## The place for the report -/

omit [CaptureMechanism β] in
/-- A turn of a caller puts nothing into the place for the report. -/
theorem Turn.report_eq {c : Nat} {m m' : Shared} {ts ts' : List CaptureThread} {p p' : Phase}
    (turn : Turn c m ts p m' ts' p') (n : Nat) :
    ts'[n]?.bind (·.report) = ts[n]?.bind (·.report) := by
  cases hn : ts'[n]? with
  | none =>
    cases hn' : ts[n]? with
    | none => rfl
    | some t =>
      -- no thread goes away
      obtain ⟨t', ht', -⟩ := turn.keeps_thread hn'
      rw [hn] at ht'
      cases ht'
  | some t' =>
    obtain ⟨t, ht, hi⟩ | ⟨⟨callback, rfl⟩, rfl, rfl⟩ := turn.thread hn
    · rw [ht]
      exact CaptureThread.report_eq_of_inner_eq hi
    · -- the thread that is new has not moved
      cases turn with
      | spawn callback program =>
        rw [List.getElem?_concat_length, Option.some.injEq] at hn
        subst hn
        rw [List.getElem?_eq_none (Nat.le_refl _)]
        rfl

omit [CaptureMechanism β] in
theorem reports_of_mark? {p p' : Phase} (n : Nat) (l : Listener β) :
    reports n ((p.mark? p').map l.moment).toList = [] := by
  cases hmark : p.mark? p' with
  | none => rfl
  | some mark =>
    obtain ⟨k, mark⟩ := mark
    cases mark with
    | reported outcome => exact absurd hmark (p.mark?_ne_reported p' k outcome)
    | _ => simp [reports, Moment.report?, moment]

/-- The place for the report holds the first report of the thread. -/
theorem report_of_deals {b : β} {h : Host} {ms : List Moment}
    (hd : Deals { backend := b, shared := { host := h } } ms l) (n : Nat) :
    l.threads[n]?.bind (·.report) = (reports n ms).head? := by
  induction hd with
  | refl => rfl
  | request call hd ih => exact ih
  | @move ms l l' mover hd hm ih =>
    rw [reports_append, List.head?_append, ← ih]
    obtain ⟨c, p, p', rfl, hc, hcs, turn⟩ | ⟨k, t, t', rfl, ht, hcs, hts, hm⟩ := move?_cases hm
    · -- callers neither report nor touch the place
      rw [mark?_caller hc hcs, reports_of_mark?, turn.report_eq, List.head?_nil, Option.or_none]
    · have hlt : k < l.threads.length := (List.getElem?_eq_some_iff.1 ht).1
      rw [mark?_thread ht]
      -- the report goes into the place of the thread that makes it
      by_cases hkn : k = n
      · subst hkn
        rw [hts, List.getElem?_set_self hlt, ht, Option.bind_some, Option.bind_some,
          (CaptureThread.retains_of_move? hm).report]
        cases t.reporting? with
        | none => rfl
        | some outcome => simp [reports, Moment.report?, moment]
      · rw [hts, List.getElem?_set_ne hkn]
        cases t.reporting? with
        | none => simp [reports]
        | some outcome => simp [reports, Moment.report?, moment, hkn]

/-! ## What is in the memory -/

omit [CaptureMechanism β] in
theorem any_isOver_of_ended {ts : List CaptureThread} {n : Nat} (hlt : n < ts.length)
    (h : Ended ts n) : ts[n]?.any (·.isOver) = true := by
  rw [Ended, List.getElem?_eq_getElem hlt] at h
  rw [List.getElem?_eq_getElem hlt]
  exact h

omit [CaptureMechanism β] in
theorem Turn.lawful {c : Nat} {m m' : Shared} {ts ts' : List CaptureThread} {p p' : Phase}
    (turn : Turn c m ts p m' ts' p') (hlowered : p.lowered = true → m.flag = false)
    (hfailed : ∀ n e, p.givesUp = some (n, e) → ∃ t, ts[n]? = some t ∧ t.Failed e)
    (hknown : ∀ n, p.watched none = some n → n < ts.length) {n : Nat} {mark : Mark}
    (hmark : p.mark? p' = some (n, mark)) :
    Moment.Lawful (ts[n]?.bind (·.report)) ⟨n, mark, m'.flag, ts'[n]?.any (·.isOver)⟩ := by
  cases turn with
  | spawn =>
    cases hmark
    trivial
  | ready hn hr =>
    cases hmark
    rw [hn]
    exact hr
  | collect ended e =>
    cases hmark
    obtain ⟨t, ht, hf⟩ := hfailed _ _ rfl
    have hover := any_isOver_of_ended (hknown _ rfl) ended
    refine ⟨?_, hlowered rfl, hover⟩
    rw [ht]
    exact hf.imp_right fun ⟨hr, _, he⟩ => ⟨hr, he⟩
  | clear =>
    cases hmark
    rfl
  | wake host hts s purpose =>
    obtain ⟨trace, -, hmark⟩ := Option.map_eq_some_iff.1 hmark
    cases hmark
    exact hlowered rfl
  | joinRestart ended | joinStop ended =>
    cases hmark
    exact ⟨hlowered rfl, any_isOver_of_ended (hknown _ rfl) ended⟩
  | absent hn =>
    have hlt := hknown _ rfl
    rw [List.getElem?_eq_none_iff] at hn
    omega
  | _ => cases hmark

/-- Whatever is done about a thread, the memory is as it should be right after it. -/
theorem lawful_of_move? {b : β} {h : Host} (hr : Reachable b h l) {mover : Mover}
    (hm : l.move? mover = some l') {mark : Nat × Mark} (hmark : l.mark? mover l' = some mark) :
    (l'.moment mark).Lawful (l.threads[mark.1]?.bind (·.report)) := by
  have ha := attended_of_reachable hr
  have hk := known_of_reachable hr
  obtain ⟨c, p, p', rfl, hc, hcs, turn⟩ | ⟨k, t, t', rfl, ht, hcs, hts, hm⟩ := move?_cases hm
  · rw [mark?_caller hc hcs] at hmark
    exact turn.lawful (ha.lowered c p hc) (fun n e => ha.failed c p n e hc)
      (fun n => hk.callers c p n hc) hmark
  · -- whatever a thread reports is lawful
    rw [mark?_thread ht] at hmark
    obtain ⟨outcome, -, rfl⟩ := Option.map_eq_some_iff.1 hmark
    trivial

theorem lawful_of_deals {b : β} {h : Host} {before after : List Moment} {x : Moment}
    (hd : Deals { backend := b, shared := { host := h } } (before ++ x :: after) l) :
    x.Lawful (reports x.thread before).head? := by
  obtain ⟨l₁, l₂, mover, mark, h₁, hm, hmark, rfl, -⟩ := hd.split
  have hlawful := lawful_of_move? h₁.reaches hm hmark
  rwa [report_of_deals h₁] at hlawful

/-- A thread that has ended reports no more. -/
theorem reports_of_over {b : β} {h : Host} {before after : List Moment} {x : Moment}
    (hd : Deals { backend := b, shared := { host := h } } (before ++ x :: after) l)
    (hover : x.ended = true) :
    (reports x.thread (before ++ x :: after)).head? = (reports x.thread (before ++ [x])).head? := by
  obtain ⟨l₁, l₂, mover, mark, h₁, hm, hmark, rfl, hr⟩ := hd.split
  have h₂ := h₁.move mover hm
  rw [hmark, Option.map_some, Option.toList_some] at h₂
  rw [← report_of_deals hd, ← report_of_deals h₂]
  obtain ⟨t, ht, ho⟩ := (Option.any_eq_true ..).1 hover
  obtain ⟨t', ht', hi⟩ := hr.keeps_over ht ho
  rw [show l.threads[(l₂.moment mark).thread]? = some t' from ht',
    show l₂.threads[(l₂.moment mark).thread]? = some t from ht]
  exact CaptureThread.report_eq_of_inner_eq hi

omit [CaptureMechanism β] in
theorem exists_split_of_dealing {n : Nat} {ms : List Moment} {mark : Mark}
    (h : mark ∈ dealings n ms) :
    ∃ before x after, ms = before ++ x :: after ∧ x.thread = n ∧ x.mark = mark := by
  obtain ⟨x, hx, hmark⟩ := List.mem_filterMap.1 h
  obtain ⟨before, after, rfl⟩ := List.append_of_mem hx
  refine ⟨before, x, after, rfl, ?_⟩
  unfold Moment.dealing? at hmark
  split at hmark
  next hn =>
    refine ⟨hn, ?_⟩
    split at hmark
    · cases hmark
    · exact Option.some.inj hmark
  next => cases hmark

/-- The answer of a thread is its first report, or that it has none. -/
theorem answer_of_deals {b : β} {h : Host} {ms : List Moment}
    (hd : Deals { backend := b, shared := { host := h } } ms l) {n : Nat} {outcome : Answer}
    (hmem : .answered outcome ∈ dealings n ms) :
    outcome = (reports n ms).head?.getD (.error .silentStartup) := by
  obtain ⟨before, x, after, rfl, rfl, hx⟩ := exists_split_of_dealing hmem
  have hlawful := lawful_of_deals hd
  have hfirst : ∀ o, (reports x.thread before).head? = some o →
      (reports x.thread (before ++ x :: after)).head? = some o := by
    intro o ho
    rw [reports_append, List.head?_append, ho]
    rfl
  cases outcome with
  | ok waker =>
    simp only [Moment.Lawful, hx] at hlawful
    rw [hfirst _ hlawful]
    rfl
  | error e =>
    simp only [Moment.Lawful, hx] at hlawful
    obtain ⟨hreport | ⟨hnone, rfl⟩, -, hover⟩ := hlawful
    · rw [hfirst _ hreport]
      rfl
    · -- there was no report before, this is none, and there is none after it
      have hself : reports x.thread [x] = [] := by simp [reports, Moment.report?, hx]
      rw [reports_of_over hd hover, reports_append, hself, List.append_nil, hnone]
      rfl

end Listener

/-! ## The laws -/

/-- Whether a caller at the phase can go on, as far as the thread that it deals with is
concerned. -/
def Phase.due (t : CaptureThread) : Phase → Bool
  | .awaiting _ => t.report.isSome || !t.isAlive
  | .collecting .. | .joining .. => t.isOver
  | _ => true

namespace Listener

variable {β : Type} [CaptureMechanism β] {l : Listener β}

/-- A caller that deals with a thread goes on exactly if it is its turn. -/
theorem isSome_move?_of_watched {c n : Nat} {p : Phase} {t : CaptureThread}
    (hc : l.callers[c]? = some p) (hp : p.watched none = some n) (ht : l.threads[n]? = some t) :
    (l.move? (.caller c)).isSome = p.due t := by
  have hmove : l.move? (.caller c) = l.moveCaller c p := by
    simp only [move?, hc, Option.bind_eq_bind, Option.bind_some]
  rw [hmove]
  cases p with
  | awaiting =>
    cases hp
    simp only [moveCaller, ht, Phase.due]
    cases t.report with
    | none => cases t.isAlive <;> rfl
    | some outcome => cases outcome <;> rfl
  | collecting =>
    cases hp
    have hover : l.isOver n = t.isOver := by simp [isOver, ht]
    simp only [moveCaller, hover, Phase.due]
    cases t.isOver <;> rfl
  | joining s purpose =>
    cases hp
    have hover : l.isOver s.thread = t.isOver := by simp [isOver, ht]
    simp only [moveCaller, hover, Phase.due]
    cases t.isOver <;> cases purpose <;> rfl
  | waking s purpose =>
    simp only [moveCaller, Phase.due]
    cases s.waker <;> rfl
  | clearing | dropping | installing => rfl
  | entered | looking | probing | raising | spawning | failing | lowering | replied => cases hp

/-- What callers and capture threads can rely on, by what was done about the threads so far. -/
structure HandshakeLaws (ms : List Moment) (l : Listener β) : Prop where
  /-- A thread is spawned and answered once. If it captures, and its session is ended, the flag is
  lowered, the thread is woken once if it can be woken and not at all otherwise, and its end is
  waited for, in this order. -/
  order : ∀ n, ∃ outcome, dealings n ms <+: protocol outcome
  /-- The answer is what the thread reports, at first if it does so more than once. Without any
  report it is that the hook could not be installed. -/
  answer : ∀ n outcome, .answered outcome ∈ dealings n ms →
    outcome = (reports n ms).head?.getD (.error .silentStartup)
  /-- There is no answer before the thread has reported or has ended. If the answer is an error, or
  the end of the thread was waited for, then the thread has ended and the flag is down. The flag is
  down when the thread is woken. -/
  memory : ∀ before x after, ms = before ++ x :: after →
    x.Lawful (reports x.thread before).head?
  /-- Who has spawned a thread is held up only while the thread can report and has not done so. Who
  waits for the end of a thread is held up only until then. -/
  due : ∀ (c n : Nat) (p : Phase) (t : CaptureThread), l.callers[c]? = some p →
    p.watched none = some n → l.threads[n]? = some t → (l.move? (.caller c)).isSome = p.due t
  /-- A thread does not miss that its session is ended: while its end is waited for it can move,
  unless it waits to be woken and cannot be, or it waits for the lock. -/
  noticed : ∀ (c : Nat) (s : Session) (purpose : Purpose) (t : CaptureThread),
    l.callers[c]? = some (.joining s purpose) → l.threads[s.thread]? = some t →
    t.isOver = false → t.isDeaf s.waker = false → (l.move? (.thread s.thread)).isSome = true

/-- **The handshake**: the laws hold for all programs of the threads and for all orders of moves. -/
theorem handshake_laws {b : β} {h : Host} {ms : List Moment}
    (hd : Deals { backend := b, shared := { host := h } } ms l) : HandshakeLaws ms l where
  order n := isPrefix_of_deals hd n
  answer n outcome hmem := answer_of_deals hd hmem
  memory before x after hms := by
    subst hms
    exact lawful_of_deals hd
  due c n p t hc hp ht := isSome_move?_of_watched hc hp ht
  noticed c s purpose t hc ht ho hdeaf := by
    have ha := attended_of_reachable hd.reaches
    have hquit : s.waker.isSome = true → t.quit = true := by
      intro hs
      obtain ⟨t', ht', hq⟩ := ha.woken c s purpose hc hs
      rw [ht, Option.some.injEq] at ht'
      exact ht' ▸ hq
    simp only [move?, ht, Option.isSome_map]
    exact CaptureThread.isSome_move? (ha.lowered c _ hc rfl) ho hquit hdeaf

/-- A listener that is told to start twice and then to stop. Its first thread ends without a report,
its second one waits until its session is ended. -/
def twiceStarted : Listener ScriptedMechanism :=
  ((request { backend := { plans := [.silent, .ready true [] .waits] } } (.start (some {}))).request
    (.start (some {}))).request .stop

/-- The moves until the first start has failed, and the second one has succeeded; then the session
is ended. -/
def movesToJoin : List Mover :=
  List.replicate 4 (.caller 0) ++ [.thread 0, .caller 0, .thread 0, .caller 0, .thread 0] ++
    List.replicate 2 (.caller 0) ++ List.replicate 4 (.caller 1) ++
    [.thread 1, .caller 1, .caller 1, .thread 1] ++ List.replicate 3 (.caller 2) ++
    List.replicate 4 (.thread 1) ++ List.replicate 2 (.caller 2)

/-- The first thread is answered for without a report, the second one is woken and joined. -/
theorem handshake_laws_twiceStarted :
    ∃ (ms : List Moment) (l : Listener ScriptedMechanism),
      Deals { backend := twiceStarted.backend, shared := { host := {} } } ms l ∧
      reports 0 ms = [] ∧ dealings 0 ms = [.spawned, .answered (.error .silentStartup)] ∧
      dealings 1 ms = [.spawned, .answered (.ok (some .woken)), .cleared, .woken .woken, .joined] ∧
      HandshakeLaws ms l := by
  have hd : Deals { backend := twiceStarted.backend, shared := { host := {} } } [] twiceStarted :=
    .request _ (.request _ (.request _ .refl))
  have hmoves : twiceStarted.deal movesToJoin = some _ := rfl
  have hdeals := hd.deal hmoves
  exact ⟨_, _, hdeals, rfl, rfl, rfl, handshake_laws hdeals⟩

end Listener

end Keystroke
