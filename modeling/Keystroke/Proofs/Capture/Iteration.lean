import Keystroke.Proofs.Capture.Effects
import Keystroke.Proofs.Capture.Evdev

/-!
# One iteration of the loop

A poll tells which keyboards are readable by their indices, and the keyboards that fail are removed
by their indices too, the last one first. So an iteration breaks off where there is no keyboard at
an index. Here it is shown that there always is one, and that the loop, which goes by the nodes of
the keyboards, is made of such iterations.

## Main statements

- `removeAt_indices`: the removal by indices leaves the keyboards that were not picked, in order.
- `loop_cons`: the loop is an iteration and the rest of the loop.
- `passed_of_ran`: all that an iteration can do, as the cases of `Passed`.
-/

namespace Keystroke

/-- Whether a poll found that there is something to be had from a keyboard, events or an error. -/
def PollTurn.readable (turn : PollTurn) (kb : Keyboard) : Bool := (turn.outcome? kb.node).isSome

/-- What a read gives. A keyboard with nothing to be read refuses, and does not wait. -/
def PollTurn.reading (turn : PollTurn) (kb : Keyboard) : Except OsError (List InputEvent) :=
  (turn.outcome? kb.node).getD (.error .wouldBlock)

namespace Evdev

open Capture (Effect Ran)

/-! ## Indices -/

/-- The indices of the keyboards that are picked, in order. -/
def indices (pick : Keyboard → Bool) (keyboards : List Keyboard) : List Nat :=
  (keyboards.zipIdx.filter fun entry => pick entry.1).map (·.2)

/-- The keyboards without those at the indices, of which the last one is removed first, unless
there is no keyboard any more at one of them. -/
def removeAt (keyboards : List Keyboard) : List Nat → Option (List Keyboard)
  | [] => some keyboards
  | i :: is => do
    let left ← removeAt keyboards is
    if i < left.length then some (left.eraseIdx i) else none

variable {pick : Keyboard → Bool}

theorem indices_cons (kb : Keyboard) (kbs : List Keyboard) :
    indices pick (kb :: kbs) = (if pick kb then [0] else []) ++ (indices pick kbs).map (· + 1) := by
  have hshift : (kbs.zipIdx 1).filter (fun entry => pick entry.1) =
      (kbs.zipIdx.filter fun entry => pick entry.1).map fun entry => (entry.1, entry.2 + 1) := by
    rw [List.zipIdx_succ, List.filter_map]
    rfl
  unfold indices
  rw [List.zipIdx_cons, Nat.zero_add, List.filter_cons, hshift]
  cases pick kb <;> simp

theorem map_getElem?_indices (kbs : List Keyboard) :
    (indices pick kbs).map (kbs[·]?) = (kbs.filter pick).map some := by
  induction kbs with
  | nil => rfl
  | cons kb kbs ih =>
    have hrest : (indices pick kbs).map (fun i => (kb :: kbs)[i + 1]?) =
        (kbs.filter pick).map some := by
      simpa only [List.getElem?_cons_succ] using ih
    rw [indices_cons, List.map_append, List.map_map, List.filter_cons]
    cases pick kb
    · exact hrest
    · exact congrArg (some kb :: ·) hrest

theorem filter_indices (also : Keyboard → Bool) (kbs : List Keyboard) :
    (indices pick kbs).filter (fun i => kbs[i]?.any also) =
      indices (fun kb => pick kb && also kb) kbs := by
  induction kbs with
  | nil => rfl
  | cons kb kbs ih =>
    rw [indices_cons, indices_cons, ← ih, List.filter_append, List.filter_map]
    cases hpick : pick kb <;> cases halso : also kb <;>
      simp [halso, Function.comp_def]

theorem removeAt_succ (kb : Keyboard) (kbs : List Keyboard) (is : List Nat) :
    removeAt (kb :: kbs) (is.map (· + 1)) = (removeAt kbs is).map (kb :: ·) := by
  induction is with
  | nil => rfl
  | cons i is ih =>
    simp only [List.map_cons, removeAt, ih]
    cases removeAt kbs is with
    | none => rfl
    | some left =>
      show (if i + 1 < (kb :: left).length then some ((kb :: left).eraseIdx (i + 1)) else none) =
        (if i < left.length then some (left.eraseIdx i) else none).map (kb :: ·)
      by_cases hi : i < left.length
      · simp [hi]
      · simp [hi]

/-- The removal by indices leaves the keyboards that were not picked, in order. -/
theorem removeAt_indices (kbs : List Keyboard) :
    removeAt kbs (indices pick kbs) = some (kbs.filter (!pick ·)) := by
  induction kbs with
  | nil => rfl
  | cons kb kbs ih =>
    have hrest : removeAt (kb :: kbs) ((indices pick kbs).map (· + 1)) =
        some (kb :: kbs.filter (!pick ·)) := by
      rw [removeAt_succ, ih]
      rfl
    rw [indices_cons, List.filter_cons]
    -- the first keyboard goes last, when all others that go are gone
    cases hpick : pick kb
    · simpa using hrest
    · simp [removeAt, hrest]

/-! ## The iteration -/

/-- Reads the keyboards at the indices and says at which of them one has to be removed. -/
def readAt (turn : PollTurn) (keyboards : List Keyboard) :
    List Nat → ModifierTracker → Capture (Option (List Nat × ModifierTracker))
  | [], t => return some ([], t)
  | i :: is, t => do
    match keyboards[i]? with
    | none => .crash
    | some kb =>
      match turn.reading kb with
      | .ok batch =>
        match ← deliverBatch batch t with
        | none => return none
        | some t => readAt turn keyboards is t
      | .error e =>
        if e = .wouldBlock then readAt turn keyboards is t
        else return (← readAt turn keyboards is t).map fun (lost, t) => (i :: lost, t)

/-- An iteration of the loop, and how the loop goes on from it, if it does. -/
def iterate (dir : String) (timeout : Nat) (step : PollStep) (k : InputLayer) (s : State) :
    Capture (Option (InputLayer × State)) := do
  if ← Capture.isRunning then
    let s := s.rescan k dir
    Capture.leave (.polled (s.keyboards.map (·.node)) timeout)
    match step with
    | .failed e wait => return if e = .interrupted then some (wait.apply k, s) else none
    | .passed turn =>
      match ← readAt turn s.keyboards (indices turn.readable s.keyboards) s.tracker with
      | none => return none
      | some (lost, tracker) =>
        match removeAt s.keyboards lost with
        | none => .crash
        | some keyboards => return some (turn.apply k, { s with keyboards, tracker })
  else return none

/-! ## The batches of an iteration -/

/-- Delivers what batches give, one after the other. -/
def deliverBatches : List (List InputEvent) → ModifierTracker → Capture (Option ModifierTracker)
  | [], t => return some t
  | batch :: rest, t => do
    match ← deliverBatch batch t with
    | none => return none
    | some t => deliverBatches rest t

/-- The batches that are read at a poll. -/
def batches (turn : PollTurn) (keyboards : List Keyboard) : List (List InputEvent) :=
  keyboards.filterMap fun kb => (turn.reading kb).toOption

theorem drops_eq (turn : PollTurn) (kb : Keyboard) :
    turn.drops kb = match turn.reading kb with
      | .ok _ => false
      | .error e => decide (e ≠ .wouldBlock) := by
  unfold PollTurn.drops PollTurn.reading
  cases turn.outcome? kb.node with
  | none => simp
  | some outcome => cases outcome <;> rfl

theorem readable_of_drops {turn : PollTurn} {kb : Keyboard} (h : turn.drops kb = true) :
    turn.readable kb = true := by
  unfold PollTurn.drops at h
  unfold PollTurn.readable
  split at h
  next e he => rw [he]; rfl
  next => cases h

section Batches

variable {turn : PollTurn} {kb : Keyboard} {kbs : List Keyboard}

theorem batches_cons_of_ok {batch : List InputEvent} (h : turn.reading kb = .ok batch) :
    batches turn (kb :: kbs) = batch :: batches turn kbs := by
  simp [batches, h, Except.toOption]

theorem batches_cons_of_error {e : OsError} (h : turn.reading kb = .error e) :
    batches turn (kb :: kbs) = batches turn kbs := by
  simp [batches, h, Except.toOption]

theorem flatten_batches (turn : PollTurn) (keyboards : List Keyboard) :
    (batches turn keyboards).flatten = keyboards.flatMap turn.batch := by
  induction keyboards with
  | nil => rfl
  | cons kb kbs ih =>
    rw [List.flatMap_cons, ← ih]
    cases h : turn.outcome? kb.node with
    | none => simp [batches, PollTurn.reading, PollTurn.batch, h, Except.toOption]
    | some outcome =>
      cases outcome <;> simp [batches, PollTurn.reading, PollTurn.batch, h, Except.toOption]

theorem batches_filter_readable (turn : PollTurn) (keyboards : List Keyboard) :
    batches turn (keyboards.filter turn.readable) = batches turn keyboards := by
  unfold batches
  rw [List.filterMap_filter]
  congr 1
  funext kb
  unfold PollTurn.readable PollTurn.reading
  cases turn.outcome? kb.node <;> rfl

/-- What is left to be done after the first keyboard depends on what its read gives. -/
theorem readReady_cons (t : ModifierTracker) :
    readReady turn (kb :: kbs) t = match turn.reading kb with
      | .ok batch => (deliverBatch batch t).bind fun
        | none => .done none
        | some t => readReady turn kbs t
      | .error e =>
        if e = .wouldBlock then readReady turn kbs t
        else (readReady turn kbs t).bind fun r =>
          .done (r.map fun (lost, t) => (kb.node :: lost, t)) := by
  rw [readReady]
  unfold PollTurn.reading
  cases turn.outcome? kb.node with
  | none => simp
  | some outcome => cases outcome <;> rfl

theorem readReady_eq (turn : PollTurn) (kbs : List Keyboard) (t : ModifierTracker) :
    readReady turn kbs t = (deliverBatches (batches turn kbs) t).bind fun r =>
      .done (r.map fun t => ((kbs.filter turn.drops).map (·.node), t)) := by
  induction kbs generalizing t with
  | nil => rfl
  | cons kb kbs ih =>
    rw [readReady_cons, List.filter_cons, drops_eq turn kb]
    cases h : turn.reading kb with
    | ok batch =>
      rw [batches_cons_of_ok h]
      show (deliverBatch batch t).bind _ = ((deliverBatch batch t).bind _).bind _
      rw [Capture.bind_assoc]
      congr 1
      funext r
      cases r with
      | none => rfl
      | some t => exact ih t
    | error e =>
      rw [batches_cons_of_error h]
      by_cases hblock : e = .wouldBlock
      · simpa [hblock] using ih t
      · simp only [hblock, if_false, ih t, Capture.bind_assoc]
        congr 1
        funext r
        cases r <;> simp [Capture.bind, hblock]

theorem readAt_cons {all : List Keyboard} {i : Nat} {is : List Nat} (t : ModifierTracker)
    (hi : all[i]? = some kb) :
    readAt turn all (i :: is) t = match turn.reading kb with
      | .ok batch => (deliverBatch batch t).bind fun
        | none => .done none
        | some t => readAt turn all is t
      | .error e =>
        if e = .wouldBlock then readAt turn all is t
        else (readAt turn all is t).bind fun r =>
          .done (r.map fun (lost, t) => (i :: lost, t)) := by
  simp only [readAt, hi]
  cases turn.reading kb <;> rfl

theorem readAt_eq (turn : PollTurn) (all : List Keyboard) (is : List Nat) (kbs : List Keyboard)
    (t : ModifierTracker) (h : is.map (all[·]?) = kbs.map some) :
    readAt turn all is t = (deliverBatches (batches turn kbs) t).bind fun r =>
      .done (r.map fun t => (is.filter (fun i => all[i]?.any turn.drops), t)) := by
  induction is generalizing kbs t with
  | nil =>
    cases kbs with
    | nil => rfl
    | cons kb kbs => cases h
  | cons i is ih =>
    cases kbs with
    | nil => cases h
    | cons kb kbs =>
      simp only [List.map_cons, List.cons.injEq] at h
      rw [readAt_cons t h.1, List.filter_cons, h.1, Option.any_some, drops_eq turn kb]
      cases hr : turn.reading kb with
      | ok batch =>
        rw [batches_cons_of_ok hr]
        show (deliverBatch batch t).bind _ = ((deliverBatch batch t).bind _).bind _
        rw [Capture.bind_assoc]
        congr 1
        funext r
        cases r with
        | none => rfl
        | some t => exact ih kbs t h.2
      | error e =>
        rw [batches_cons_of_error hr]
        by_cases hblock : e = .wouldBlock
        · simpa [hblock] using ih kbs t h.2
        · simp only [hblock, if_false, ih kbs t h.2, Capture.bind_assoc]
          congr 1
          funext r
          cases r <;> simp [Capture.bind, hblock]

end Batches

/-- The state after the keyboards were read with a tracker that has seen all batches. -/
theorem read_eq (turn : PollTurn) (s : State) :
    s.read turn = { s with
      keyboards := s.keyboards.filter (!turn.drops ·)
      tracker := s.tracker.after (transitions (batches turn s.keyboards).flatten) } := by
  rw [flatten_batches]
  rfl

/-- Programs that look at the flag and then poll are equal if they go on alike after the poll, and
after the flag was seen down. -/
theorem polling_congr {α : Type} {entry : Entry} {f g : Bool → Capture α} {p q : Capture α}
    (hf : f true = .record entry p) (hg : g true = .record entry q) (down : f false = g false)
    (up : p = q) : Capture.running f = Capture.running g := by
  congr 1
  funext b
  cases b with
  | false => exact down
  | true => rw [hf, hg, up]

/-- An iteration whose poll does not fail delivers the batches, and then the keyboards are removed
that could not be read. -/
theorem iterate_passed (dir : String) (timeout : Nat) (turn : PollTurn) (k : InputLayer)
    (s : State) :
    iterate dir timeout (.passed turn) k s = .running fun up =>
      if up then .record (.polled ((s.rescan k dir).keyboards.map (·.node)) timeout)
        ((deliverBatches (batches turn (s.rescan k dir).keyboards) (s.rescan k dir).tracker).bind
          fun r => .done (r.map fun t => (turn.apply k,
            { s.rescan k dir with
              keyboards := (s.rescan k dir).keyboards.filter (!turn.drops ·), tracker := t })))
      else .done none := by
  have hlost : (indices turn.readable (s.rescan k dir).keyboards).filter
        (fun i => (s.rescan k dir).keyboards[i]?.any turn.drops) =
      indices turn.drops (s.rescan k dir).keyboards := by
    rw [filter_indices]
    congr 1
    funext kb
    cases hdrops : turn.drops kb with
    | false => simp
    | true => simp [readable_of_drops hdrops]
  unfold iterate
  refine polling_congr rfl rfl rfl ?_
  show (readAt turn _ _ _).bind _ = _
  rw [readAt_eq turn _ _ _ _ (map_getElem?_indices _), batches_filter_readable, hlost,
    Capture.bind_assoc]
  congr 1
  funext r
  cases r with
  | none => rfl
  | some t => simp [Capture.bind, removeAt_indices]

/-- The loop is an iteration and the rest of the loop, if the iteration does not end it. -/
theorem loop_cons (dir : String) (timeout : Nat) (step : PollStep) (script : List PollStep)
    (k : InputLayer) (s : State) :
    loop dir timeout (step :: script) k s = (iterate dir timeout step k s).bind fun
      | none => .done ()
      | some (k, s) => loop dir timeout script k s := by
  cases step with
  | failed e wait =>
    rw [loop]
    refine polling_congr rfl rfl rfl ?_
    show (if e = .interrupted then _ else _) = _
    by_cases he : e = .interrupted <;> simp [he, Capture.bind]
  | passed turn =>
    rw [iterate_passed, loop]
    refine polling_congr rfl rfl rfl ?_
    show (readReady turn _ _).bind _ = _
    rw [readReady_eq, Capture.bind_assoc, Capture.bind_assoc]
    congr 1
    funext r
    cases r with
    | none => rfl
    | some t => simp only [Capture.bind, Option.map_some, filter_lost]

/-! ## The effects of an iteration -/

/-- The flag was up at all looks and there is a result, or it was seen down and that was the end. -/
inductive Heeded {α : Type} (a : α) : List Effect → Capture.Outcome (Option α) → Prop where
  | up {es} (h : .looked false ∉ es) : Heeded a es (.returned (some a))
  | down {es} (h : es.getLast? = some (.looked false)) : Heeded a es (.returned none)

theorem Heeded.cons {α : Type} {a : α} {es : List Effect} {o : Capture.Outcome (Option α)}
    {e : Effect} (h : Heeded a es o) (he : e ≠ .looked false) : Heeded a (e :: es) o := by
  cases h with
  | up h =>
    apply Heeded.up
    intro hmem
    rcases List.mem_cons.1 hmem with heq | hmem
    · exact he heq.symm
    · exact h hmem
  | down h =>
    apply Heeded.down
    rw [List.getLast?_cons, h]
    rfl

theorem heeded_of_deliverBatch {batch : List InputEvent} {t : ModifierTracker} {es : List Effect}
    {o : Capture.Outcome (Option ModifierTracker)} (h : Ran (deliverBatch batch t) es o) :
    Heeded (t.after (transitions batch)) es o := by
  induction batch generalizing t es with
  | nil =>
    cases h with
    | running up h =>
      cases up with
      | false =>
        cases h
        exact .down rfl
      | true =>
        cases h
        exact .up (by simp)
  | cons e batch ih =>
    cases h with
    | running up h =>
      cases up with
      | false =>
        cases h
        exact .down rfl
      | true =>
        rw [transitions_cons]
        apply Heeded.cons _ (by simp)
        cases hmove : transition? e with
        | none =>
          simp only [Capture.bind, decode, hmove] at h
          exact ih h
        | some move =>
          obtain ⟨key, pressed⟩ := move
          simp only [Capture.bind, decode, hmove, Capture.send] at h
          cases h with
          | deliver event h =>
            apply Heeded.cons _ (by simp)
            exact ih h

/-- A batch can be delivered as a whole. -/
theorem ran_deliverBatch (batch : List InputEvent) (t : ModifierTracker) :
    ∃ es, .looked false ∉ es ∧
      Ran (deliverBatch batch t) es (.returned (some (t.after (transitions batch)))) := by
  induction batch generalizing t with
  | nil => exact ⟨[.looked true], by simp, .running true (.done _)⟩
  | cons e batch ih =>
    rw [transitions_cons]
    cases hmove : transition? e with
    | none =>
      obtain ⟨es, hes, h⟩ := ih t
      refine ⟨.looked true :: es, by simpa using hes, .running true ?_⟩
      simpa [Capture.bind, decode, hmove] using h
    | some move =>
      obtain ⟨key, pressed⟩ := move
      obtain ⟨es, hes, h⟩ := ih (t.step key pressed)
      refine ⟨.looked true :: .delivered (.of key (t.onKey key pressed).1 pressed) :: es,
        by simpa using hes, .running true ?_⟩
      simp only [decode, hmove]
      exact .deliver _ h

theorem heeded_of_deliverBatches {bs : List (List InputEvent)} {t : ModifierTracker}
    {es : List Effect} {o : Capture.Outcome (Option ModifierTracker)}
    (h : Ran (deliverBatches bs t) es o) : Heeded (t.after (transitions bs.flatten)) es o := by
  induction bs generalizing t es with
  | nil =>
    cases h
    exact .up (by simp)
  | cons batch bs ih =>
    rw [List.flatten_cons, transitions_append, ModifierTracker.after_append]
    rcases Capture.ran_bind h with ⟨-, hbroken⟩ | ⟨es₁, es₂, r, rfl, hr, h⟩
    · cases heeded_of_deliverBatch hbroken
    · cases heeded_of_deliverBatch hr with
      | down hlast =>
        cases h
        rw [List.append_nil]
        exact .down hlast
      | up hup =>
        cases ih h with
        | up hup' => exact .up (by simp [hup, hup'])
        | down hlast => exact .down (by simp [hlast])

theorem ran_deliverBatches (bs : List (List InputEvent)) (t : ModifierTracker) :
    ∃ es, .looked false ∉ es ∧
      Ran (deliverBatches bs t) es (.returned (some (t.after (transitions bs.flatten)))) := by
  induction bs generalizing t with
  | nil => exact ⟨[], by simp, .done _⟩
  | cons batch bs ih =>
    rw [List.flatten_cons, transitions_append, ModifierTracker.after_append]
    obtain ⟨es, hes, h⟩ := ran_deliverBatch batch t
    obtain ⟨es', hes', h'⟩ := ih (t.after (transitions batch))
    exact ⟨es ++ es', by simp [hes, hes'], h.bind h'⟩

/-- The poll of an iteration, as the journal has it. -/
def polled (dir : String) (timeout : Nat) (k : InputLayer) (s : State) : Effect :=
  .recorded (.polled ((s.rescan k dir).keyboards.map (·.node)) timeout)

/-- What an iteration can do: the flag was down before the poll, the poll failed, the flag was seen
down among the events, or the keyboards were read. -/
inductive Passed (dir : String) (timeout : Nat) (k : InputLayer) (s : State) :
    PollStep → List Effect → Capture.Outcome (Option (InputLayer × State)) → Prop where
  | down (step) : Passed dir timeout k s step [.looked false] (.returned none)
  | interrupted (wait) : Passed dir timeout k s (.failed .interrupted wait)
      [.looked true, polled dir timeout k s] (.returned (some (wait.apply k, s.rescan k dir)))
  | failed {e} (wait) (he : e ≠ .interrupted) : Passed dir timeout k s (.failed e wait)
      [.looked true, polled dir timeout k s] (.returned none)
  | stopped (turn) {es} (h : es.getLast? = some (.looked false)) :
      Passed dir timeout k s (.passed turn)
        (.looked true :: polled dir timeout k s :: es) (.returned none)
  | read (turn) {es} (h : .looked false ∉ es) :
      Passed dir timeout k s (.passed turn) (.looked true :: polled dir timeout k s :: es)
        (.returned (some (turn.apply k, (s.rescan k dir).read turn)))

theorem passed_of_ran {dir : String} {timeout : Nat} {step : PollStep} {k : InputLayer}
    {s : State} {es : List Effect} {o : Capture.Outcome (Option (InputLayer × State))}
    (h : Ran (iterate dir timeout step k s) es o) : Passed dir timeout k s step es o := by
  cases step with
  | failed e wait =>
    cases h with
    | running up h =>
      cases up with
      | false =>
        cases h
        exact .down _
      | true =>
        cases h with
        | record _ h =>
          by_cases he : e = .interrupted
          · subst he
            cases h
            exact .interrupted wait
          · simp only [he, if_false] at h
            cases h
            exact .failed wait he
  | passed turn =>
    rw [iterate_passed] at h
    cases h with
    | running up h =>
      cases up with
      | false =>
        cases h
        exact .down _
      | true =>
        cases h with
        | record _ h =>
          rcases Capture.ran_bind h with ⟨-, hbroken⟩ | ⟨es₁, es₂, r, rfl, hr, h⟩
          · cases heeded_of_deliverBatches hbroken
          · cases h
            rw [List.append_nil]
            cases heeded_of_deliverBatches hr with
            | up hup =>
              rw [Option.map_some, ← read_eq]
              exact .read turn hup
            | down hlast => exact .stopped turn hlast

/-- While the flag is up an interrupted poll is followed by the next iteration. -/
theorem ran_iterate_interrupted (dir : String) (timeout : Nat) (wait : PollWait) (k : InputLayer)
    (s : State) : Ran (iterate dir timeout (.failed .interrupted wait) k s)
      [.looked true, polled dir timeout k s]
      (.returned (some (wait.apply k, s.rescan k dir))) :=
  .running true (.record _ (.done _))

/-- While the flag is up a poll that does not fail is followed by the next iteration. -/
theorem ran_iterate (dir : String) (timeout : Nat) (turn : PollTurn) (k : InputLayer) (s : State) :
    ∃ es, .looked false ∉ es ∧ Ran (iterate dir timeout (.passed turn) k s) es
      (.returned (some (turn.apply k, (s.rescan k dir).read turn))) := by
  obtain ⟨es, hes, h⟩ := ran_deliverBatches
    (batches turn (s.rescan k dir).keyboards) (s.rescan k dir).tracker
  refine ⟨.looked true :: polled dir timeout k s :: (es ++ []), by simpa [polled] using hes, ?_⟩
  rw [iterate_passed, read_eq]
  exact .running true (.record _ (h.bind (.done _)))

end Evdev

end Keystroke
