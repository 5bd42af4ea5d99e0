import Keystroke.Proofs.Capture.Delivery
import Keystroke.Proofs.Capture.Traces

/-!
# Paths of a capture program

What a look at the flag sees depends on others. All else that a thread does follows from its program
and its callback: it goes along a path of the program, on which every look may see the flag up or
down.

## Main statements

- `Traced.path`: what the thread does itself is a path of its program.
- `path_bind`: a path of a program that never waits ends within it, or goes through it and on.
- `Underway.move?_ne_none`: on the way the thread is never stuck, unless the callback breaks or
  blocks it.
- `exists_settled`: a thread comes by itself to a point where it ends or waits for others.
-/

namespace Keystroke

namespace CaptureThread

variable {self : Nat} {m m' : Shared} {t t' : CaptureThread} {ds ds' : List Deed}

/-- What the next move of a thread does and where it leads, as far as that can be told without the
memory. The thread has called its callback `n` times. -/
inductive Step (callback : Callback) : Nat → Stage → List Deed → Nat → Stage → Prop where
  | done (n) : Step callback n (.body (.done ())) [] n .leaving
  | crash (n) : Step callback n (.body .crash) [] n (.over true)
  | report (n outcome next) : Step callback n (.body (.report outcome next)) [] n (.body next)
  | record (n entry next) :
      Step callback n (.body (.record entry next)) [.recorded entry] n (.body next)
  | defer (n entry next) : Step callback n (.body (.defer entry next)) [] n (.body next)
  | running (n next b) : Step callback n (.body (.running next)) [.looked b] n (.body (next b))
  | deliver (n event noted next) : Step callback n (.body (.deliver event next)) [.called event]
      (n + 1) (.calling (callback.react n event).acts noted next)
  | quitting (n next b) : Step callback n (.body (.quitting next)) [] n (.body (next b))
  | postQuit (n next) : Step callback n (.body (.postQuit next)) [.postedQuit] n (.body next)
  | idle (n next) : Step callback n (.body (.idle next)) [.looked false] n (.body next)
  | awaitQuit (n next) : Step callback n (.body (.awaitQuit next)) [] n (.body next)
  | serve (n next) : Step callback n (.body (.serve next)) [.looked true] n (.receiving next)
  | unserve (n next) : Step callback n (.body (.serve next)) [.looked false] n (.body next)
  | receive (n event noted next) : Step callback n (.receiving next) [.called event]
      (n + 1) (.calling (callback.react n event).acts noted (.serve next))
  | close (n next) : Step callback n (.receiving next) [.looked false] n (.body next)
  | back (n noted next) : Step callback n (.calling [] noted next) [] n (.body next)
  | act (n) {act acts noted noted' next} (h : act ≠ .panic) :
      Step callback n (.calling (act :: acts) noted next) act.deeds n (.calling acts noted' next)
  | panic (n acts noted next) :
      Step callback n (.calling (.panic :: acts) noted next) [] n (.over true)
  | leave (n) : Step callback n .leaving [] n .ending
  | finish (n) : Step callback n .ending [] n (.over false)

/-- Several moves. -/
inductive Path (callback : Callback) : Nat → Stage → List Deed → Nat → Stage → Prop where
  | refl (n s) : Path callback n s [] n s
  | step {n s ds n₁ s₁ ds' n' s'} (hs : Step callback n s ds n₁ s₁)
      (h : Path callback n₁ s₁ ds' n' s') : Path callback n s (ds ++ ds') n' s'

variable {callback : Callback} {n n₁ n' : Nat} {s s₁ s' : Stage}

theorem Path.concat (h : Path callback n s ds n₁ s₁) (hs : Step callback n₁ s₁ ds' n' s') :
    Path callback n s (ds ++ ds') n' s' := by
  induction h with
  | refl n s => simpa using Path.step hs (.refl n' s')
  | step hs' _ ih =>
    rw [List.append_assoc]
    exact .step hs' (ih hs)

theorem Step.own (h : Step callback n s ds n' s') : ds.filter Deed.isOwn = ds := by
  cases h with
  | @act act => cases act <;> rfl
  | _ => rfl

theorem step_of_moveBody {p : Capture Unit} (hs : t.stage = .body p)
    (h : t.moveBody self m p = some (m', t')) :
    Step t.callback t.calls (.body p) (t.deeds m) t'.calls t'.stage := by
  cases p <;> simp only [moveBody] at h
  case idle | awaitQuit =>
    split at h <;> cases h
    simp_all only [deeds, goto, Bool.not_eq_true]
    constructor
  case serve =>
    cases h
    cases hf : m.flag <;> simp only [deeds, goto, hs, hf] <;> constructor
  all_goals
    cases h
    simp only [deeds, hs, goto, call]
    constructor

theorem step_of_moveCall {acts : List Act} {noted : Heard} {rest : Capture Unit}
    (hs : t.stage = .calling acts noted rest)
    (h : t.moveCall self m noted rest acts = some (m', t')) :
    Step t.callback t.calls (.calling acts noted rest) (t.deeds m) t'.calls t'.stage := by
  cases acts with
  | nil =>
    cases h
    simp only [deeds, hs]
    exact .back _ _ _
  | cons act acts =>
    simp only [deeds, hs]
    cases act with
    | start =>
      simp only [moveCall] at h
      split at h <;> cases h
      exact .act _ (by simp)
    | panic =>
      cases h
      exact .panic _ _ _ _
    | cause | stop | look | note =>
      cases h
      exact .act _ (by simp)

theorem step_of_move? (h : t.move? self m = some (m', t')) :
    Step t.callback t.calls t.stage (t.deeds m) t'.calls t'.stage := by
  unfold move? at h
  split at h
  next p hs =>
    rw [hs]
    exact step_of_moveBody hs h
  next rest hs =>
    rw [hs]
    split at h
    next event later hp =>
      cases h
      simp only [deeds, hs, hp, call]
      exact .receive _ _ _ _
    next hp =>
      split at h <;> cases h
      next hf =>
        simp only [deeds, hs, hp, goto, Bool.eq_false_iff.2 hf]
        exact .close _ _
  next acts noted rest hs =>
    rw [hs]
    exact step_of_moveCall hs h
  next hs =>
    cases h
    simp only [deeds, hs]
    exact .leave _
  next hs =>
    cases h
    simp only [deeds, hs]
    exact .finish _
  next => cases h

/-- **Paths**: what a thread does itself is a path of its program. -/
theorem Traced.path (h : Traced self m t ds m' t') :
    t'.callback = t.callback ∧
      Path t.callback t.calls t.stage (ds.filter Deed.isOwn) t'.calls t'.stage := by
  induction h with
  | refl => exact ⟨rfl, .refl _ _⟩
  | move _ hm ih =>
    obtain ⟨hcallback, hpath⟩ := ih
    have hstep := step_of_move? hm
    rw [hcallback] at hstep
    refine ⟨(calls_of_move? hm).1.trans hcallback, ?_⟩
    rw [List.filter_append, hstep.own]
    exact hpath.concat hstep
  | @others m₁ m₂ _ t₁ t₂ ds _ hi _ ih =>
    have hown : (lowering m₁ m₂).filter Deed.isOwn = [] := by
      unfold lowering
      split <;> rfl
    rw [List.filter_append, hown, List.append_nil, stage_eq_of_inner_eq hi,
      calls_eq_of_inner_eq hi]
    exact ⟨(callback_eq_of_inner_eq hi).trans ih.1, ih.2⟩

end CaptureThread

/-! ## Programs that never wait -/

namespace Capture

variable {α β : Type} {callback : Callback}

/-- The program neither waits for anything nor breaks off. -/
inductive Prompt : Capture α → Prop where
  | done (a) : Prompt (done a)
  | report (outcome) {next} (h : Prompt next) : Prompt (report outcome next)
  | record (entry) {next} (h : Prompt next) : Prompt (record entry next)
  | defer (entry) {next} (h : Prompt next) : Prompt (defer entry next)
  | running {next} (h : ∀ b, Prompt (next b)) : Prompt (running next)
  | deliver (event) {next} (h : Prompt next) : Prompt (deliver event next)
  | quitting {next} (h : ∀ b, Prompt (next b)) : Prompt (quitting next)
  | postQuit {next} (h : Prompt next) : Prompt (postQuit next)

/-- The program comes to its end with a result, and this is done meanwhile. The callback has been
called `n` times before. -/
inductive Completes (callback : Callback) : Nat → Capture α → List Deed → Nat → α → Prop where
  | done (n a) : Completes callback n (done a) [] n a
  | report {n ds n' a} (outcome) {next} (h : Completes callback n next ds n' a) :
      Completes callback n (report outcome next) ds n' a
  | record {n ds n' a} (entry) {next} (h : Completes callback n next ds n' a) :
      Completes callback n (record entry next) (.recorded entry :: ds) n' a
  | defer {n ds n' a} (entry) {next} (h : Completes callback n next ds n' a) :
      Completes callback n (defer entry next) ds n' a
  | running {n ds n' a} (b) {next} (h : Completes callback n (next b) ds n' a) :
      Completes callback n (running next) (.looked b :: ds) n' a
  | deliver {n ds n' a} (event) {next} (h : Completes callback (n + 1) next ds n' a) :
      Completes callback n (deliver event next) (.called event :: (callback.deeds n event ++ ds))
        n' a
  | quitting {n ds n' a} (b) {next} (h : Completes callback n (next b) ds n' a) :
      Completes callback n (quitting next) ds n' a
  | postQuit {n ds n' a} {next} (h : Completes callback n next ds n' a) :
      Completes callback n (postQuit next) (.postedQuit :: ds) n' a

theorem Prompt.exists_completes {p : Capture α} (hp : Prompt p) (callback : Callback) (n : Nat) :
    ∃ ds n' a, Completes callback n p ds n' a := by
  induction hp generalizing n with
  | done a => exact ⟨_, _, _, .done n a⟩
  | report outcome _ ih =>
    obtain ⟨_, _, _, h⟩ := ih n
    exact ⟨_, _, _, .report outcome h⟩
  | record entry _ ih =>
    obtain ⟨_, _, _, h⟩ := ih n
    exact ⟨_, _, _, .record entry h⟩
  | defer entry _ ih =>
    obtain ⟨_, _, _, h⟩ := ih n
    exact ⟨_, _, _, .defer entry h⟩
  | running _ ih =>
    obtain ⟨_, _, _, h⟩ := ih true n
    exact ⟨_, _, _, .running true h⟩
  | deliver event _ ih =>
    obtain ⟨_, _, _, h⟩ := ih (n + 1)
    exact ⟨_, _, _, .deliver event h⟩
  | quitting _ ih =>
    obtain ⟨_, _, _, h⟩ := ih true n
    exact ⟨_, _, _, .quitting true h⟩
  | postQuit _ ih =>
    obtain ⟨_, _, _, h⟩ := ih n
    exact ⟨_, _, _, .postQuit h⟩

/-- Whether the first effect of the program is one for which it need not wait. -/
def isReady : Capture α → Bool
  | .done _ | .crash | .idle _ | .awaitQuit _ | .serve _ => false
  | _ => true

end Capture

/-- Whether the program has come to its end. -/
def Stage.isEnding : Stage → Bool
  | .body (.done _) | .leaving | .ending | .over false => true
  | _ => false

/-- Whether the program has come to its end or waits for nothing but the flag. -/
def Stage.hasFinished : Stage → Bool
  | .body (.idle _) => true
  | s => s.isEnding

theorem Stage.hasFinished_of_isEnding {s : Stage} (h : s.isEnding = true) :
    s.hasFinished = true := by
  unfold hasFinished
  split
  · rfl
  · exact h

namespace CaptureThread

open Capture (Prompt Completes)

/-- The thread is between two effects of a program that does not wait, or in a call, or it was
broken by a call. -/
inductive Underway (callback : Callback) : Stage → Prop where
  | body {p} (h : p.isReady = true) : Underway callback (.body p)
  | calling {n event acts} (noted rest) (h : acts <:+ (callback.react n event).acts) :
      Underway callback (.calling acts noted rest)
  | broken {n event} (h : (callback.react n event).panics = true) : Underway callback (.over true)

variable {callback : Callback} {self n n' : Nat} {m m' : Shared} {t t' : CaptureThread}
  {ds : List Deed} {s : Stage}

theorem Underway.not_hasFinished (h : Underway callback s) : s.hasFinished = false := by
  cases h with
  | @body p hready =>
    cases p <;> first | rfl | simp [Capture.isReady] at hready
  | calling | broken => rfl

/-- A path of a program that need not wait ends before its first effect or begins with it. -/
theorem path_ready {p : Capture Unit} (hp : p.isReady = true)
    (h : Path callback n (.body p) ds n' s) :
    (ds = [] ∧ Underway callback s) ∨ ∃ first n₁ s₁ rest, Step callback n (.body p) first n₁ s₁ ∧
      ds = first ++ rest ∧ Path callback n₁ s₁ rest n' s := by
  cases h with
  | refl => exact .inl ⟨rfl, .body hp⟩
  | step hs h => exact .inr ⟨_, _, _, _, hs, rfl, h⟩

/-- A thread whose program has come to its end does nothing more. -/
theorem path_of_isEnding {s₀ : Stage} (hs₀ : s₀.isEnding = true)
    (h : Path callback n s₀ ds n' s) : ds = [] ∧ s.isEnding = true := by
  induction h with
  | refl => exact ⟨rfl, hs₀⟩
  | step hs _ ih =>
    cases hs with
    | done | leave | finish => simpa using ih rfl
    | _ => cases hs₀

/-- A path of a thread in a call ends within the call, or goes through it and on. -/
theorem path_calling {k : Nat} {event : KeyEvent} {acts : List Act} {noted : Heard}
    {next : Capture Unit} (ha : acts <:+ (callback.react k event).acts)
    (h : Path callback n (.calling acts noted next) ds n' s) :
    (Underway callback s ∧ ds <+: acts.flatMap Act.deeds) ∨
      ∃ rest, ds = acts.flatMap Act.deeds ++ rest ∧ Path callback n (.body next) rest n' s := by
  induction acts generalizing noted ds with
  | nil =>
    cases h with
    | refl => exact .inl ⟨.calling _ _ ha, List.nil_prefix⟩
    | step hs h =>
      cases hs
      exact .inr ⟨_, rfl, h⟩
  | cons act acts ih =>
    cases h with
    | refl => exact .inl ⟨.calling _ _ ha, List.nil_prefix⟩
    | step hs h =>
      cases hs with
      | act hact =>
        rw [List.flatMap_cons]
        rcases ih ((List.suffix_cons act acts).trans ha) h with ⟨hs, hds⟩ | ⟨rest, rfl, hrest⟩
        · exact .inl ⟨hs, (List.prefix_append_right_inj _).2 hds⟩
        · exact .inr ⟨rest, (List.append_assoc ..).symm, hrest⟩
      | panic =>
        -- there are no moves after a panic
        cases h with
        | refl =>
          have hpanics := mem_acts_panic.1 (ha.subset List.mem_cons_self)
          exact .inl ⟨.broken hpanics, List.nil_prefix⟩
        | step hs => cases hs

/-- What a path of `p` followed by `f` comes to: it ends within `p`, or goes through `p` and on. -/
inductive Through {α : Type} (callback : Callback) (n : Nat) (p : Capture α) (f : α → Capture Unit)
    (ds : List Deed) (n' : Nat) (s : Stage) : Prop where
  | within {ds' n₁ a} (hs : Underway callback s) (hc : Completes callback n p ds' n₁ a)
      (hds : ds <+: ds') : Through callback n p f ds n' s
  | beyond {ds₁ ds₂ n₁ a} (he : ds = ds₁ ++ ds₂) (hc : Completes callback n p ds₁ n₁ a)
      (h : Path callback n₁ (.body (f a)) ds₂ n' s) : Through callback n p f ds n' s

/-- An effect in front of a program is one in front of all its ways. -/
theorem Through.after {α : Type} {p q : Capture α} {f : α → Capture Unit} {k : Nat}
    {first : List Deed}
    (hp : ∀ {ds n' a}, Completes callback k q ds n' a → Completes callback n p (first ++ ds) n' a)
    (h : Through callback k q f ds n' s) : Through callback n p f (first ++ ds) n' s := by
  cases h with
  | within hs hc hds => exact .within hs (hp hc) ((List.prefix_append_right_inj _).2 hds)
  | beyond he hc h =>
    rw [he, ← List.append_assoc]
    exact .beyond rfl (hp hc) h

/-- **Paths through a program**: a path of a program that never waits ends within it, or goes
through it and on. -/
theorem path_bind {α : Type} {p : Capture α} {f : α → Capture Unit} (hp : Prompt p)
    (h : Path callback n (.body (p.bind f)) ds n' s) : Through callback n p f ds n' s := by
  -- before anything has happened, any way through the program is one on which the path goes on
  have hstart {p : Capture α} (hp : Prompt p) (hready : (p.bind f).isReady = true) (n : Nat) :
      Through callback n p f [] n (.body (p.bind f)) := by
    obtain ⟨_, _, _, hc⟩ := hp.exists_completes callback n
    exact .within (.body hready) hc List.nil_prefix
  induction hp generalizing n ds with
  | done a => exact .beyond rfl (.done n a) h
  | report outcome hp ih =>
    cases h with
    | refl => exact hstart (.report outcome hp) rfl _
    | step hs h =>
      cases hs
      exact (ih h).after fun hc => .report outcome hc
  | record entry hp ih =>
    cases h with
    | refl => exact hstart (.record entry hp) rfl _
    | step hs h =>
      cases hs
      exact (ih h).after fun hc => .record entry hc
  | defer entry hp ih =>
    cases h with
    | refl => exact hstart (.defer entry hp) rfl _
    | step hs h =>
      cases hs
      exact (ih h).after fun hc => .defer entry hc
  | running hp ih =>
    cases h with
    | refl => exact hstart (.running hp) rfl _
    | step hs h =>
      cases hs with
      | running _ b => exact (ih b h).after fun hc => .running b hc
  | deliver event hp ih =>
    cases h with
    | refl => exact hstart (.deliver event hp) rfl _
    | step hs h =>
      cases hs with
      | deliver =>
        -- a call takes several moves, so that the path may end in the midst of it
        rcases path_calling List.suffix_rfl h with ⟨hs, hds⟩ | ⟨rest, rfl, hrest⟩
        · obtain ⟨ds', _, _, hc⟩ := hp.exists_completes callback (n + 1)
          refine .within hs (.deliver event hc) ?_
          exact List.cons_prefix_cons.2 ⟨rfl, hds.trans (List.prefix_append _ _)⟩
        · rw [← List.append_assoc]
          refine (ih hrest).after fun hc => ?_
          simpa [Callback.deeds] using Completes.deliver event hc
  | quitting hp ih =>
    cases h with
    | refl => exact hstart (.quitting hp) rfl _
    | step hs h =>
      cases hs with
      | quitting _ b => exact (ih b h).after fun hc => .quitting b hc
  | postQuit hp ih =>
    cases h with
    | refl => exact hstart (.postQuit hp) rfl _
    | step hs h =>
      cases hs
      exact (ih h).after fun hc => .postQuit hc

/-- On the way a thread is never stuck, unless the callback breaks or blocks it. -/
theorem Underway.move?_ne_none (h : Underway callback t.stage)
    (hc : ∀ i e, (callback.react i e).starts = false ∧ (callback.react i e).panics = false)
    (self : Nat) (m : Shared) : t.move? self m ≠ none := by
  generalize hs : t.stage = stage at h
  cases h with
  | @body p hready =>
    cases p <;> simp only [Capture.isReady, Bool.false_eq_true] at hready
    all_goals simp [CaptureThread.move?, hs, moveBody]
  | @calling i e acts _ _ hacts =>
    cases acts with
    | nil => simp [CaptureThread.move?, hs, moveCall]
    | cons act acts =>
      have hmem := hacts.subset List.mem_cons_self
      cases act with
      | start => rw [mem_acts_start, (hc _ _).1] at hmem; cases hmem
      | panic => rw [mem_acts_panic, (hc _ _).2] at hmem; cases hmem
      | stop | cause | look | note => simp [CaptureThread.move?, hs, moveCall]
  | broken hpanics =>
    rw [(hc _ _).2] at hpanics
    cases hpanics

/-! ## Going on -/

/-- The thread can come by its own moves to a point where it ends or waits for others. -/
theorem exists_settled (self : Nat) (m : Shared) (t : CaptureThread) :
    ∃ ds m' t', Traced self m t ds m' t' ∧ .lowered ∉ ds ∧ t'.move? self m' = none := by
  -- by induction on what is still ahead of the thread, which lessens with each move
  generalize hd : t.distance = d
  induction d using WellFounded.induction (r := Closer) WellFoundedRelation.wf
    generalizing m t with
  | _ d ih =>
  cases hm : t.move? self m with
  | none => exact ⟨[], m, t, .refl m t, by simp, hm⟩
  | some moved =>
    obtain ⟨m', t'⟩ := moved
    obtain ⟨ds, m'', t'', h, hlowered, hend⟩ := ih _ (hd ▸ closer_of_move? hm) m' t' rfl
    refine ⟨t.deeds m ++ ds, m'', t'', ?_, ?_, hend⟩
    · simpa using (Traced.move (.refl m t) hm).trans h
    · have hown := (step_of_move? hm).own
      rw [List.filter_eq_self] at hown
      rw [List.mem_append, not_or]
      exact ⟨fun hmem => absurd (hown _ hmem) (by decide), hlowered⟩

end CaptureThread

end Keystroke
