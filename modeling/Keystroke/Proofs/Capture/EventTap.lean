import Keystroke.Proofs.Capture.Paths
import Keystroke.Proofs.Capture.TapMessages

/-!
# Delivery on macOS

What the tap sees during a slice of the run loop waits in a queue until the slice is over. The
thread looks at the flag before it takes a message from the queue, before each slice and after each
queue. All these looks and all the slices leave one stream of messages, which is handled message by
message until a look sees the flag down.

When nobody but the callback lowers the flag, that comes after the first call in which it stops its
listener, however the messages are spread over the slices.

## Main statements

- `path_deliverQueue`, `outcome_of_path`: what a path of the loop comes to.
- `loop_drains`: how the messages are handled.
-/

namespace Keystroke

namespace EventTap

open CaptureThread (Path Traced Underway Through path_bind)
open Capture (Prompt Completes)
open Deed (Honest Guarded)

/-! ## What is to be done -/

/-- What is done about a message, by the event of which it tells: the callback is called with that,
and for want of one the tap is enabled again. -/
def deed : Option KeyEvent → Deed
  | some event => .called event
  | none => .recorded .tapEnabled

/-- What is done about a message together with what the callback does, with `n` calls before it. -/
def deeds (callback : Callback) (n : Nat) (answer : Option KeyEvent) : List Deed :=
  deed answer :: answer.elim [] (callback.deeds n)

def isDelivery : Deed → Bool
  | .called _ | .recorded .tapEnabled => true
  | _ => false

def deliveries (ds : List Deed) : List Deed := ds.filter isDelivery

theorem deliveries_append (ds ds' : List Deed) :
    deliveries (ds ++ ds') = deliveries ds ++ deliveries ds' :=
  List.filter_append ..

/-- What the messages of all slices tell of. -/
def seen (script : List (List Event)) : List (Option KeyEvent) :=
  (script.flatMap fun slice => slice.filterMap (·.message?)).map (·.event?)

/-- The number of calls that messages lead to. -/
def calls (answers : List (Option KeyEvent)) : Nat := answers.countP (·.isSome)

/-- Whether a message leads to a call in which the callback stops its listener, with `n` calls
before it. -/
def stops (callback : Callback) (n : Nat) (answer : Option KeyEvent) : Bool :=
  answer.any fun event => (callback.react n event).stops

/-- Whether one of the messages leads to such a call. -/
def stopsIn (callback : Callback) : Nat → List (Option KeyEvent) → Bool
  | _, [] => false
  | n, answer :: answers =>
    stops callback n answer || stopsIn callback (n + calls [answer]) answers

/-- The messages up to the first one that leads to such a call. -/
def untilStop (callback : Callback) : Nat → List (Option KeyEvent) → List (Option KeyEvent)
  | _, [] => []
  | n, answer :: answers =>
    if stops callback n answer then [answer]
    else answer :: untilStop callback (n + calls [answer]) answers

theorem calls_append (xs xs' : List (Option KeyEvent)) :
    calls (xs ++ xs') = calls xs + calls xs' :=
  List.countP_append

theorem calls_cons (x : Option KeyEvent) (xs : List (Option KeyEvent)) :
    calls (x :: xs) = calls [x] + calls xs := calls_append [x] xs

theorem stopsIn_append (callback : Callback) (n : Nat) (xs xs' : List (Option KeyEvent)) :
    stopsIn callback n (xs ++ xs') =
      (stopsIn callback n xs || stopsIn callback (n + calls xs) xs') := by
  induction xs generalizing n with
  | nil => rfl
  | cons x xs ih =>
    simp only [List.cons_append, stopsIn, ih, Bool.or_assoc, calls_cons x xs, Nat.add_assoc]

theorem untilStop_append {callback : Callback} {n : Nat} {xs : List (Option KeyEvent)}
    (h : stopsIn callback n xs = false) (xs' : List (Option KeyEvent)) :
    untilStop callback n (xs ++ xs') = xs ++ untilStop callback (n + calls xs) xs' := by
  induction xs generalizing n with
  | nil => rfl
  | cons x xs ih =>
    simp only [stopsIn, Bool.or_eq_false_iff] at h
    simp only [List.cons_append, untilStop, h.1, Bool.false_eq_true, if_false, ih h.2,
      calls_cons x xs, Nat.add_assoc]

/-! ## Traces of handled messages -/

/-- A trace in which the messages were handled, while each look saw the flag up. -/
inductive Drained (callback : Callback) : List (Option KeyEvent) → List Deed → Prop where
  | start : Drained callback [] []
  | slice {xs ds} (millis) (h : Drained callback xs ds) :
      Drained callback xs (ds ++ [.recorded (.ranSlice millis)])
  | look {xs ds} (h : Drained callback xs ds) : Drained callback xs (ds ++ [.looked true])
  | message {xs ds} (x : Option KeyEvent) (h : Drained callback xs ds) :
      Drained callback (xs ++ [x]) (ds ++ .looked true :: deeds callback (calls xs) x)

section Drained

variable {callback : Callback} {xs all : List (Option KeyEvent)} {ds : List Deed}

theorem isDelivery_deed (x : Option KeyEvent) : isDelivery (deed x) = true := by
  unfold deed
  cases x <;> rfl

/-- What the callback does is not done by the loop, not even if it is about the tap. -/
theorem isDelivery_of_mem_elim {n : Nat} {x : Option KeyEvent} {d : Deed}
    (h : d ∈ x.elim [] (callback.deeds n)) : isDelivery d = false := by
  cases x with
  | none => cases h
  | some event =>
    rw [Option.elim_some, Callback.mem_deeds] at h
    rcases h with ⟨entry, -, rfl⟩ | ⟨rfl, -⟩ <;> rfl

theorem deliveries_deeds (callback : Callback) (n : Nat) (x : Option KeyEvent) :
    deliveries (deeds callback n x) = [deed x] := by
  unfold deeds deliveries
  rw [List.filter_cons_of_pos (isDelivery_deed x), List.filter_eq_nil_iff.2]
  intro d hd
  simp [isDelivery_of_mem_elim hd]

theorem Drained.deliveries_eq (h : Drained callback xs ds) : deliveries ds = xs.map deed := by
  induction h with
  | start => rfl
  | slice millis _ ih =>
    rw [deliveries_append, ih]
    exact List.append_nil _
  | look _ ih =>
    rw [deliveries_append, ih]
    exact List.append_nil _
  | @message xs ds x _ ih =>
    have hlook : deliveries (.looked true :: deeds callback (calls xs) x) = [deed x] :=
      deliveries_deeds callback (calls xs) x
    rw [deliveries_append, ih, hlook, List.map_append]
    rfl

theorem looked_notMem_deeds (callback : Callback) (n : Nat) (x : Option KeyEvent) (b : Bool) :
    .looked b ∉ deeds callback n x := by
  unfold deeds deed
  cases x with
  | none => simp
  | some event => simp [Callback.mem_deeds]

theorem any_clears_deeds (callback : Callback) (n : Nat) (x : Option KeyEvent) :
    (deeds callback n x).any Deed.clears = stops callback n x := by
  unfold deeds deed stops
  cases x with
  | none => rfl
  | some event => simp [Callback.any_clears_deeds, Deed.clears]

/-- The flag is lowered in the trace if the callback stops its listener for one of the messages. -/
theorem Drained.any_clears (h : Drained callback xs ds) :
    ds.any Deed.clears = stopsIn callback 0 xs := by
  induction h with
  | start => rfl
  | slice millis _ ih => simpa [Deed.clears] using ih
  | look _ ih => simpa [Deed.clears] using ih
  | message x _ ih =>
    rw [List.any_append, List.any_cons, any_clears_deeds, ih, stopsIn_append]
    simp [stopsIn, Deed.clears]

/-- If the looks are honest and only the callback lowers the flag, it stops its listener for the
last message at the most. -/
theorem Drained.stopsIn_dropLast (h : Drained callback xs ds) (hh : Honest true ds) :
    stopsIn callback 0 xs.dropLast = false := by
  induction h with
  | start => rfl
  | slice millis _ ih => exact ih (Deed.honest_append.1 hh).1
  | look _ ih => exact ih (Deed.honest_append.1 hh).1
  | message x h _ =>
    have hlook := (Deed.honest_cons.1 (Deed.honest_append.1 hh).2).1 true rfl
    rw [h.any_clears] at hlook
    simpa using hlook

theorem Drained.guarded (h : Drained callback xs ds) : Guarded isDelivery ds := by
  induction h with
  | start => exact Deed.guarded_nil _
  | slice millis _ ih => exact ih.concat nofun
  | look _ ih => exact ih.concat nofun
  | @message xs ds x _ ih =>
    -- the delivery is the deed of the message itself, right after the look
    have hlooked : Guarded isDelivery (ds ++ [.looked true]) := ih.concat nofun
    have hdeed : Guarded isDelivery (ds ++ [.looked true] ++ [deed x]) :=
      hlooked.concat fun _ => by simp
    have hrest : Guarded isDelivery
        (ds ++ [.looked true] ++ [deed x] ++ x.elim [] (callback.deeds (calls xs))) :=
      hdeed.append fun _ hd => isDelivery_of_mem_elim hd
    simpa [deeds] using hrest

/-- Messages of which the last one at the most leads to a call that stops the listener are among
those up to the first that does. -/
theorem prefix_untilStop (hp : xs <+: all) (h : stopsIn callback 0 xs.dropLast = false) :
    xs <+: untilStop callback 0 all ∧
      (stopsIn callback 0 xs = true ∨ xs = all → untilStop callback 0 all = xs) := by
  obtain ⟨rest, rfl⟩ := hp
  rcases List.eq_nil_or_concat xs with rfl | ⟨init, x, rfl⟩
  · refine ⟨List.nil_prefix, ?_⟩
    rintro (hstop | hall)
    · cases hstop
    · rw [← hall]
      rfl
  · rw [List.concat_eq_append] at h ⊢
    rw [List.dropLast_concat] at h
    rw [List.append_assoc, List.singleton_append, untilStop_append h, untilStop,
      Nat.zero_add]
    cases hstop : stops callback (calls init) x with
    | true => simp
    | false =>
      refine ⟨by simp, ?_⟩
      rintro (hstops | hall)
      · simp [stopsIn_append, stopsIn, h, hstop] at hstops
      · obtain rfl : rest = [] := by simpa using hall
        simp [untilStop]

end Drained

/-! ## What a path of the loop comes to -/

/-- A path of the loop for the messages: it ends on the way, or has handled all of them and waits
for nothing but the flag, or has just seen the flag down. -/
inductive Outcome (callback : Callback) (all : List (Option KeyEvent)) (ds : List Deed) :
    Stage → Prop where
  | underway {s xs rest} (hs : Underway callback s) (hxs : xs <+: all)
      (h : Drained callback xs (ds ++ rest)) (hrest : ∀ b, .looked b ∉ rest) :
      Outcome callback all ds s
  | waiting (next) (h : Drained callback all ds) : Outcome callback all ds (.body (.idle next))
  | quit {s xs ds'} (hs : s.isEnding = true) (hxs : xs <+: all) (h : Drained callback xs ds')
      (hds : ds = ds' ++ [.looked false]) : Outcome callback all ds s

theorem Outcome.paused {callback : Callback} {xs all : List (Option KeyEvent)} {ds : List Deed}
    {s : Stage} (hs : Underway callback s) (hxs : xs <+: all) (h : Drained callback xs ds) :
    Outcome callback all ds s := by
  rw [← List.append_nil ds] at h
  exact .underway hs hxs h (by simp)

/-- What the thread does about a message. -/
def respond : Option KeyEvent → Capture Unit
  | some event => Capture.send event
  | none => Capture.leave .tapEnabled

theorem deliverQueue_cons (message : Message) (ms : List Message) :
    deliverQueue (message :: ms) = .running fun up =>
      if up then (respond message.event?).bind fun _ => deliverQueue ms else .done false := by
  refine congrArg Capture.running (funext fun up => ?_)
  cases message.event? <;> cases up <;> rfl

theorem prompt_respond (x : Option KeyEvent) : Prompt (respond x) := by
  cases x with
  | none => exact .record _ (.done ())
  | some event => exact .deliver event (.done ())

section Path

variable {callback : Callback} {n n' : Nat} {ds ds₀ : List Deed} {s : Stage} {ms : List Message}
  {done all : List (Option KeyEvent)}

theorem completes_respond {x : Option KeyEvent} {u : Unit}
    (h : Completes callback n (respond x) ds n' u) :
    ds = deeds callback n x ∧ n' = n + calls [x] := by
  cases x with
  | none =>
    cases h with
    | record _ h =>
      cases h
      exact ⟨rfl, rfl⟩
  | some event =>
    cases h with
    | deliver _ h =>
      cases h
      simp [deeds, deed, calls]

/-- A path of a look at the flag, and of a program that ends if the flag is down. -/
theorem outcome_of_path_running {next : Bool → Capture Unit} (hd : Drained callback done ds₀)
    (hall : done <+: all) (h : Path callback n (.body (.running next)) ds n' s)
    (hdown : next false = .done ())
    (hup : ∀ rest, Path callback n (.body (next true)) rest n' s →
      Outcome callback all (ds₀ ++ [.looked true] ++ rest) s) :
    Outcome callback all (ds₀ ++ ds) s := by
  rcases CaptureThread.path_ready rfl h with ⟨rfl, hs⟩ | ⟨_, _, _, rest, hstep, rfl, h⟩
  · rw [List.append_nil]
    exact .paused hs hall hd
  · cases hstep with
    | running _ b =>
      cases b with
      | false =>
        rw [hdown] at h
        obtain ⟨rfl, hs⟩ := CaptureThread.path_of_isEnding rfl h
        exact .quit hs hall hd (by simp)
      | true =>
        rw [← List.append_assoc]
        exact hup rest h

/-- A path of a queue, and of a program that ends if the flag was seen down. -/
theorem outcome_of_path_deliverQueue {f : Bool → Capture Unit} (hd : Drained callback done ds₀)
    (hall : done ++ ms.map (·.event?) <+: all)
    (h : Path callback (calls done) (.body ((deliverQueue ms).bind f)) ds n' s)
    (hdown : f false = .done ())
    (hup : ∀ ds₁ rest, Drained callback (done ++ ms.map (·.event?)) ds₁ →
      Path callback (calls (done ++ ms.map (·.event?))) (.body (f true)) rest n' s →
      Outcome callback all (ds₁ ++ rest) s) :
    Outcome callback all (ds₀ ++ ds) s := by
  induction ms generalizing done ds₀ ds with
  | nil =>
    rw [List.map_nil, List.append_nil] at hall hup
    exact outcome_of_path_running hd hall h hdown fun rest h => hup _ rest hd.look h
  | cons message ms ih =>
    rw [deliverQueue_cons] at h
    rw [List.map_cons] at hall hup
    have hnext : done ++ [message.event?] <+: all := by
      refine List.IsPrefix.trans ?_ hall
      simp
    refine outcome_of_path_running hd ((List.prefix_append _ _).trans hall) h hdown
      fun rest h => ?_
    simp only [if_true, Capture.bind_assoc] at h
    cases path_bind (prompt_respond message.event?) h with
    | within hs hc hds =>
      obtain ⟨rfl, -⟩ := completes_respond hc
      -- the message counts as handled, for what is missing contains no look
      obtain ⟨missing, hmissing⟩ := hds
      have hall : Drained callback (done ++ [message.event?])
          (ds₀ ++ [.looked true] ++ rest ++ missing) := by
        simpa [hmissing] using hd.message message.event?
      refine .underway hs hnext (by simpa using hall) fun b hb => ?_
      refine looked_notMem_deeds callback (calls done) message.event? b ?_
      rw [← hmissing]
      exact List.mem_append_right _ hb
    | beyond he hc h =>
      obtain ⟨rfl, rfl⟩ := completes_respond hc
      rw [← calls_append] at h
      have hrest := ih (hd.message message.event?) (by simpa using hall) h (by simpa using hup)
      simpa [he] using hrest

theorem loop_cons (millis : Nat) (slice : List Event) (script : List (List Event)) :
    loop millis (slice :: script) = .running fun up =>
      if up then
        .record (.ranSlice millis) <| (deliverQueue (slice.filterMap (·.message?))).bind fun all =>
          if all then loop millis script else .done ()
      else .done () := by
  refine congrArg Capture.running (funext fun up => ?_)
  cases up <;> rfl

theorem outcome_of_path_loop {millis : Nat} {script : List (List Event)}
    (hd : Drained callback done ds₀)
    (h : Path callback (calls done) (.body (loop millis script)) ds n' s) :
    Outcome callback (done ++ seen script) (ds₀ ++ ds) s := by
  induction script generalizing done ds₀ ds with
  | nil =>
    have hnone : done ++ seen [] = done := List.append_nil done
    rw [hnone]
    cases h with
    | refl =>
      rw [List.append_nil]
      exact .waiting _ hd
    | step hs h =>
      cases hs
      obtain ⟨rfl, hs⟩ := CaptureThread.path_of_isEnding rfl h
      exact .quit hs List.prefix_rfl hd rfl
  | cons slice script ih =>
    have hsplit : done ++ seen (slice :: script) =
        done ++ (slice.filterMap (·.message?)).map (·.event?) ++ seen script := by
      simp [seen]
    rw [hsplit]
    rw [loop_cons] at h
    refine outcome_of_path_running hd (by simp) h rfl fun rest h => ?_
    simp only [if_true] at h
    rcases CaptureThread.path_ready rfl h with ⟨rfl, hs⟩ | ⟨_, _, _, rest, hstep, rfl, h⟩
    · have hdone :
          done <+: done ++ (slice.filterMap (·.message?)).map (·.event?) ++ seen script := by
        rw [List.append_assoc]
        exact List.prefix_append _ _
      rw [List.append_nil]
      exact .paused hs hdone hd.look
    · cases hstep
      rw [← List.append_assoc]
      refine outcome_of_path_deliverQueue (hd.look.slice millis) (by simp) h rfl
        fun ds₁ rest hd h => ih hd h

end Path

/-! ## Delivery -/

/-- A program handles the messages, whatever the callback does and whoever lowers the flag when. -/
structure Drains (p : Capture Unit) (all : List (Option KeyEvent)) : Prop where
  /-- The callback is called with the events of the messages, and the tap is enabled again for each
  message that it was disabled, in the order of the messages and without gap or repetition. -/
  ordered {self m callback ds m' t'} : Traced self m (.begin p callback) ds m' t' →
    deliveries ds <+: all.map deed
  /-- That is done for each of them directly after a look that sees the flag up. -/
  guarded {self m callback ds m' t'} : Traced self m (.begin p callback) ds m' t' →
    Guarded isDelivery (ds.filter Deed.isOwn)
  /-- A look sees the flag up if and only if it was up at first and nobody has lowered it since. -/
  looked {self m callback ds m' t'} : Traced self m (.begin p callback) ds m' t' →
    Honest m.flag ds
  /-- After a look that sees the flag down nothing is done any more. -/
  dropped {self m callback ds m' t'} : Traced self m (.begin p callback) ds m' t' →
    ∀ ds₁ ds₂, ds = ds₁ ++ .looked false :: ds₂ → deliveries ds₂ = []
  /-- Unless a look saw the flag down, all messages are handled by the time the thread has come to
  its end or waits for nothing but the flag. -/
  complete {self m callback ds m' t'} : Traced self m (.begin p callback) ds m' t' →
    .looked false ∉ ds → t'.stage.hasFinished = true → deliveries ds = all.map deed
  /-- When nobody but the callback lowers the flag, the messages are handled up to the first one for
  which it does. -/
  calm {self m callback ds m' t'} : Traced self m (.begin p callback) ds m' t' →
    m.flag = true → .lowered ∉ ds →
    deliveries ds <+: (untilStop callback 0 all).map deed ∧
      (t'.stage.hasFinished = true → deliveries ds = (untilStop callback 0 all).map deed)
  /-- The thread comes there by itself, unless the callback breaks or blocks it. -/
  live {self m callback ds m' t'} : Traced self m (.begin p callback) ds m' t' →
    (∀ i e, (callback.react i e).starts = false ∧ (callback.react i e).panics = false) →
    ∃ ds' m'' t'', Traced self m' t' ds' m'' t'' ∧ .lowered ∉ ds' ∧ t''.stage.hasFinished = true

section Outcome

variable {callback : Callback} {all : List (Option KeyEvent)} {ds : List Deed} {s : Stage}

theorem Outcome.ordered (h : Outcome callback all ds s) :
    deliveries ds <+: all.map deed := by
  cases h with
  | @underway _ xs rest _ hxs hd _ =>
    have heq := hd.deliveries_eq
    rw [deliveries_append] at heq
    exact (List.prefix_append _ _).trans (heq ▸ hxs.map _)
  | waiting _ hd => exact hd.deliveries_eq ▸ List.prefix_rfl
  | quit _ hxs hd hds =>
    rw [hds, deliveries_append, hd.deliveries_eq]
    simpa [deliveries, isDelivery] using hxs.map _

theorem Outcome.guarded (h : Outcome callback all ds s) : Guarded isDelivery ds := by
  cases h with
  | underway _ _ hd _ => exact hd.guarded.of_append
  | waiting _ hd => exact hd.guarded
  | quit _ _ hd hds =>
    rw [hds]
    exact hd.guarded.concat nofun

theorem Outcome.complete (h : Outcome callback all ds s) (hds : .looked false ∉ ds)
    (hs : s.hasFinished = true) : deliveries ds = all.map deed := by
  cases h with
  | underway hunderway =>
    rw [hunderway.not_hasFinished] at hs
    cases hs
  | waiting _ hd => exact hd.deliveries_eq
  | quit _ _ _ hquit => exact absurd (by simp [hquit]) hds

theorem Outcome.hasFinished (h : Outcome callback all ds s) (hs : ¬ Underway callback s) :
    s.hasFinished = true := by
  cases h with
  | underway hunderway => exact absurd hunderway hs
  | waiting => rfl
  | quit hending => exact Stage.hasFinished_of_isEnding hending

theorem Outcome.calm (h : Outcome callback all ds s) (hh : Honest true ds) :
    deliveries ds <+: (untilStop callback 0 all).map deed ∧
      (s.hasFinished = true → deliveries ds = (untilStop callback 0 all).map deed) := by
  cases h with
  | @underway _ xs rest hunderway hxs hd hrest =>
    have hhonest := Deed.honest_append.2 ⟨hh, Deed.honest_of_looked_notMem hrest⟩
    have huntil := (prefix_untilStop hxs (hd.stopsIn_dropLast hhonest)).1
    have heq := hd.deliveries_eq
    rw [deliveries_append] at heq
    refine ⟨(List.prefix_append _ _).trans (heq ▸ huntil.map _), fun hs => ?_⟩
    rw [hunderway.not_hasFinished] at hs
    cases hs
  | waiting _ hd =>
    have huntil := (prefix_untilStop List.prefix_rfl (hd.stopsIn_dropLast hh)).2 (.inr rfl)
    rw [hd.deliveries_eq, huntil]
    exact ⟨List.prefix_rfl, fun _ => rfl⟩
  | @quit _ xs ds' _ hxs hd hquit =>
    rw [hquit] at hh
    have hd' := Deed.honest_append.1 hh
    -- it has seen the flag down because the callback has stopped the listener
    have hstops := (Deed.honest_cons.1 hd'.2).1 false rfl
    rw [hd.any_clears] at hstops
    have huntil := (prefix_untilStop hxs (hd.stopsIn_dropLast hd'.1)).2
      (.inl (by simpa using hstops.symm))
    have hdeliveries : deliveries ds = xs.map deed := by
      rw [hquit, deliveries_append, hd.deliveries_eq]
      exact List.append_nil _
    rw [hdeliveries, huntil]
    exact ⟨List.prefix_rfl, fun _ => rfl⟩

end Outcome

/-- What a run of the loop comes to. -/
theorem outcome_of_traced {self millis : Nat} {script : List (List Event)} {callback : Callback}
    {m m' : Shared} {t' : CaptureThread} {ds : List Deed}
    (h : Traced self m (.begin (loop millis script) callback) ds m' t') :
    Outcome callback (seen script) (ds.filter Deed.isOwn) t'.stage :=
  outcome_of_path_loop .start h.path.2

theorem isOwn_of_isDelivery {d : Deed} (h : isDelivery d = true) : d.isOwn = true := by
  cases d with
  | lowered => cases h
  | _ => rfl

theorem deliveries_own (ds : List Deed) : deliveries (ds.filter Deed.isOwn) = deliveries ds :=
  Deed.filter_own rfl ds

theorem drains_seen (millis : Nat) (script : List (List Event)) :
    Drains (loop millis script) (seen script) where
  ordered h := by
    rw [← deliveries_own]
    exact (outcome_of_traced h).ordered
  guarded h := (outcome_of_traced h).guarded
  looked h := h.looked_eq
  dropped h ds₁ ds₂ hds := by
    have hguarded := (outcome_of_traced h).guarded
    have hnone := hguarded.eq_false_of_mem (fun d hd => isOwn_of_isDelivery hd) h.looked_eq hds
    simpa [deliveries, List.filter_eq_nil_iff] using hnone
  complete h hds hs := by
    rw [← deliveries_own]
    exact (outcome_of_traced h).complete (fun hmem => hds (List.mem_filter.1 hmem).1) hs
  calm {self m callback ds m' t'} h hm hds := by
    have hown : ds.filter Deed.isOwn = ds := by
      rw [List.filter_eq_self]
      intro d hd
      cases d with
      | lowered => exact absurd hd hds
      | _ => rfl
    have houtcome := outcome_of_traced h
    rw [hown] at houtcome
    exact houtcome.calm (hm ▸ h.looked_eq)
  live h hc := by
    obtain ⟨ds', m'', t'', hmore, hlowered, hend⟩ := CaptureThread.exists_settled _ _ _
    refine ⟨ds', m'', t'', hmore, hlowered, ?_⟩
    -- on the way it would not be stuck
    refine (outcome_of_traced (h.trans hmore)).hasFinished fun hs => ?_
    exact hs.move?_ne_none hc _ _ hend

/-- **Delivery of the loop**: the messages that are in the queue after the slices are handled as
one stream, each by the event of which it tells. Whatever the tap sees leaves some queues, any
queues can come about, and each message tells of an event or of none. -/
theorem loop_drains (millis : Nat) :
    (∀ script, ∃ queues, List.Forall₂ Queued script queues) ∧
    (∀ queues, ∃ script, List.Forall₂ Queued script queues) ∧
    (∀ messages, ∃ answers, List.Forall₂ Message.Tells messages answers) ∧
    ∀ script queues answers, List.Forall₂ Queued script queues →
      List.Forall₂ Message.Tells queues.flatten answers → Drains (loop millis script) answers := by
  refine ⟨fun script => ⟨_, forall₂_queued_iff.2 rfl⟩, fun queues => ?_,
    fun messages => ⟨_, forall₂_tells_iff.2 rfl⟩, fun script queues answers hqueues hanswers => ?_⟩
  · induction queues with
    | nil => exact ⟨[], .nil⟩
    | cons queue queues ih =>
      obtain ⟨seen, hseen⟩ := exists_queued queue
      obtain ⟨script, hscript⟩ := ih
      exact ⟨seen :: script, .cons hseen hscript⟩
  · have hseen : seen script = answers := by
      rw [← forall₂_tells_iff.1 hanswers, ← forall₂_queued_iff.1 hqueues, seen, List.flatMap_def]
    exact hseen ▸ drains_seen millis script

/-- A run with two slices. A is pressed under Shift, something else is seen, and the tap is
disabled; then Shift comes up, for which the callback stops its listener, and B is not delivered any
more. Of the number of A only the low 16 bits count. -/
theorem loop_drains_stopped :
    let script : List (List Event) :=
      [[⟨.down, 0x30000, 0x20000⟩, ⟨.other, 0, 0⟩, ⟨.disabled, 0, 0⟩],
        [⟨.flagsChanged, 0x38, 0x100⟩, ⟨.down, 0x0B, 0⟩, ⟨.disabled, 0, 0⟩]]
    let queues : List (List Message) :=
      [[.key 0 0x20000 true, .disabled], [.flagsChanged 0x38 0x100, .key 0x0B 0 true, .disabled]]
    let answers : List (Option KeyEvent) :=
      [some ⟨65, .a, .shift, true⟩, none, some ⟨0, .shiftLeft, ∅, false⟩, some ⟨98, .b, ∅, true⟩,
        none]
    List.Forall₂ Queued script queues ∧ List.Forall₂ Message.Tells queues.flatten answers ∧
    ∃ ds m' t', Traced 0 { flag := true } (.begin (loop 100 script) (.stopsAfter 1)) ds m' t' ∧
      t'.stage.hasFinished = true ∧
      deliveries ds = [.called ⟨65, .a, .shift, true⟩, .recorded .tapEnabled,
        .called ⟨0, .shiftLeft, ∅, false⟩] := by
  intro script queues answers
  have hqueues : List.Forall₂ Queued script queues := forall₂_queued_iff.2 rfl
  have hanswers : List.Forall₂ Message.Tells queues.flatten answers :=
    forall₂_tells_iff.2 (by decide +kernel)
  have hrun := CaptureThread.traced_play 0 40 { flag := true }
    (.begin (loop 100 script) (.stopsAfter 1))
  refine ⟨hqueues, hanswers, _, _, _, hrun, rfl, ?_⟩
  have hcalm := ((loop_drains 100).2.2.2 script queues answers hqueues hanswers).calm hrun rfl
    (by decide +kernel)
  exact (hcalm.2 rfl).trans (by decide +kernel)

end EventTap

end Keystroke
