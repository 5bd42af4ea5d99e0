import Keystroke.Proofs.Capture.Iteration
import Keystroke.Proofs.FileSystem.Listing

/-!
# Keyboards that come and go

While the loop runs, keyboards are unplugged and others are plugged in. An iteration drops those
that cannot be read any more. From time to time the directory is read again, which adds the
keyboards that are not kept yet. The loop goes on with any keyboards and with none.

## Main statements

- `exists_adopt`: the keyboards that a rescan adds, in which order, and which it does not.
- `sound_of_reaches`: the kept keyboards have distinct nodes at every point of the loop.
- `ran_loop`: the loop ends only in an iteration that sees the flag down or whose poll fails.
- `loop_laws`: what holds at every point of the loop.
-/

namespace Keystroke

/-! ## The input layer while a poll waits -/

namespace InputLayer

variable {k : InputLayer}

theorem proper_plug (h : k.fs.Proper) (node : String) : (k.plug node).fs.Proper := by
  unfold plug
  cases hw : k.fs.writeFile (Path.join k.nodeDir node) ByteArray.empty with
  | error e => exact h
  | ok fs => exact h.writeFile hw

theorem proper_unplug (h : k.fs.Proper) (node : String) : (k.unplug node).fs.Proper :=
  h.removeFile _

theorem proper_removeDir (h : k.fs.Proper) : k.removeDir.fs.Proper := h.removeFile _

/-- The files after a poll are a proper file system, and the clock has gone on. -/
theorem apply_keeps (wait : PollWait) (h : k.fs.Proper) :
    (wait.apply k).fs.Proper ∧ (wait.apply k).clock = k.clock + wait.elapsed := by
  unfold PollWait.apply
  let Kept (k' : InputLayer) : Prop := k'.fs.Proper ∧ k'.clock = k.clock + wait.elapsed
  have hplug : Kept (wait.plugged.foldl .plug { k with clock := k.clock + wait.elapsed }) := by
    apply List.foldlRecOn (motive := Kept)
    · exact ⟨h, rfl⟩
    · intro k' hk' node _
      exact ⟨proper_plug hk'.1 node, hk'.2⟩
  have hunplug : Kept (wait.unplugged.foldl .unplug
      (wait.plugged.foldl .plug { k with clock := k.clock + wait.elapsed })) := by
    apply List.foldlRecOn (motive := Kept)
    · exact hplug
    · intro k' hk' node _
      exact ⟨proper_unplug hk'.1 node, hk'.2⟩
  apply List.foldlRecOn (motive := Kept)
  · cases wait.dirRemoved with
    | false => exact hunplug
    | true => exact ⟨proper_removeDir hunplug.1, hunplug.2⟩
  · intro k' hk' entry _
    exact hk'

/-! ## Event nodes -/

/-- What is sorted is the names in the directory that are those of event nodes. -/
theorem exists_list_of_eventNodes {dir : String} {nodes : List String}
    (h : k.eventNodes dir = .ok nodes) :
    ∃ names, k.fs.list dir = .ok names ∧
      nodes = (names.filter ("event".isPrefixOf ·)).mergeSort fun a b => !decide (b < a) := by
  unfold eventNodes at h
  cases hl : k.fs.list dir with
  | error e => rw [hl] at h; cases h
  | ok names =>
    rw [hl] at h
    cases h
    exact ⟨names, rfl, rfl⟩

theorem mem_eventNodes {dir node : String} {nodes : List String}
    (h : k.eventNodes dir = .ok nodes) :
    node ∈ nodes ↔
      ∃ names, k.fs.list dir = .ok names ∧ node ∈ names ∧ "event".isPrefixOf node = true := by
  obtain ⟨names, hl, rfl⟩ := exists_list_of_eventNodes h
  simp [hl, List.mem_mergeSort]

/-- The nodes are sorted. -/
theorem sorted_eventNodes {dir : String} {nodes : List String} (h : k.eventNodes dir = .ok nodes) :
    nodes.Pairwise (· ≤ ·) := by
  obtain ⟨names, -, rfl⟩ := exists_list_of_eventNodes h
  let le (a b : String) : Bool := !decide (b < a)
  have hle : ∀ a b, le a b = true ↔ a ≤ b := by
    intro a b
    simp only [le, Bool.not_eq_true', decide_eq_false_iff_not, String.not_lt]
  have hsorted : ((names.filter ("event".isPrefixOf ·)).mergeSort le).Pairwise (le · ·) := by
    apply List.pairwise_mergeSort
    · intro a b c hab hbc
      rw [hle] at hab hbc ⊢
      exact String.le_trans hab hbc
    · intro a b
      rw [Bool.or_eq_true, hle, hle]
      exact String.le_total a b
  exact hsorted.imp fun {a b} => (hle a b).1

/-- In a proper file system none of them is there twice. -/
theorem pairwise_eventNodes (hk : k.fs.Proper) {dir : String} {nodes : List String}
    (h : k.eventNodes dir = .ok nodes) : nodes.Pairwise (· < ·) := by
  have hsorted := sorted_eventNodes h
  obtain ⟨names, hl, rfl⟩ := exists_list_of_eventNodes h
  have hnodup := (FileSystem.nodup_of_list hk hl).filter ("event".isPrefixOf ·)
  apply List.Pairwise.imp₂ _ hsorted ((List.mergeSort_perm _ _).nodup_iff.2 hnodup)
  intro a b hle hne
  apply String.not_le.1
  intro hba
  exact hne (String.le_antisymm hle hba)

end InputLayer

namespace Evdev

open Capture (Effect Ran)

/-! ## Adoption -/

/-- The keyboard is what opening its node gives. -/
structure Opens (k : InputLayer) (kb : Keyboard) : Prop where
  device : k.device kb.node = kb.device
  admitted : kb.device.refusal = none
  isKeyboard : kb.device.isKeyboard = true
  pollable : kb.device.pollable = true

theorem keyboard?_eq_some_iff {k : InputLayer} {node : String} {kb : Keyboard} :
    keyboard? k node = .ok (some kb) ↔ kb.node = node ∧ Opens k kb := by
  unfold keyboard?
  constructor
  · intro h
    cases hr : (k.device node).refusal with
    | some e => simp only [hr] at h; cases h
    | none =>
      simp only [hr, Except.ok.injEq, Option.ite_none_right_eq_some, Option.some.injEq,
        Bool.and_eq_true] at h
      obtain ⟨⟨hkeys, hpoll⟩, rfl⟩ := h
      exact ⟨rfl, rfl, hr, hkeys, hpoll⟩
  · rintro ⟨rfl, hdevice, hadmitted, hkeys, hpoll⟩
    simp [hdevice, hadmitted, hkeys, hpoll]

theorem mem_keyboardsOf {k : InputLayer} {nodes : List String} {kb : Keyboard} :
    kb ∈ keyboardsOf k nodes ↔ kb.node ∈ nodes ∧ Opens k kb := by
  have hjoin : ∀ node, (keyboard? k node).toOption.join = some kb ↔
      kb.node = node ∧ Opens k kb := by
    intro node
    rw [← keyboard?_eq_some_iff]
    cases keyboard? k node <;> simp [Except.toOption]
  unfold keyboardsOf
  rw [List.mem_filterMap]
  constructor
  · rintro ⟨node, hnode, h⟩
    obtain ⟨rfl, hopens⟩ := (hjoin node).1 h
    exact ⟨hnode, hopens⟩
  · rintro ⟨hnode, hopens⟩
    exact ⟨kb.node, hnode, (hjoin kb.node).2 ⟨rfl, hopens⟩⟩

theorem pairwise_keyboardsOf {k : InputLayer} {nodes : List String} (h : nodes.Pairwise (· < ·)) :
    (keyboardsOf k nodes).Pairwise (·.node < ·.node) := by
  have hnode : ∀ node kb, (keyboard? k node).toOption.join = some kb → kb.node = node := by
    intro node kb h
    have hmem : kb ∈ keyboardsOf k [node] := by simp [keyboardsOf, h]
    exact List.mem_singleton.1 (mem_keyboardsOf.1 hmem).1
  apply List.Pairwise.filterMap _ _ h
  intro node node' hlt kb hkb kb' hkb'
  rw [hnode node kb hkb, hnode node' kb' hkb']
  exact hlt

/-- The new keyboards are those in the directory whose nodes are not kept, sorted by their nodes. If
the directory cannot be read there are none. -/
structure Appeared (k : InputLayer) (dir : String) (kept new : List Keyboard) : Prop where
  sorted : new.Pairwise (·.node < ·.node)
  mem_iff (kb : Keyboard) : kb ∈ new ↔ ∃ names, k.fs.list dir = .ok names ∧ kb.node ∈ names ∧
    "event".isPrefixOf kb.node = true ∧ (∀ old ∈ kept, old.node ≠ kb.node) ∧ Opens k kb

theorem exists_adopt {k : InputLayer} (hk : k.fs.Proper) (dir : String) (kept : List Keyboard) :
    ∃ new, adopt k dir kept = kept ++ new ∧ Appeared k dir kept new := by
  unfold adopt
  cases hn : k.eventNodes dir with
  | error e =>
    refine ⟨[], (List.append_nil _).symm, .nil, ?_⟩
    intro kb
    constructor
    · intro hkb
      cases hkb
    · rintro ⟨names, hl, -⟩
      simp only [InputLayer.eventNodes, hl] at hn
      cases hn
  | ok nodes =>
    refine ⟨_, rfl, ?_, ?_⟩
    · apply pairwise_keyboardsOf
      exact (InputLayer.pairwise_eventNodes hk hn).filter _
    · intro kb
      rw [mem_keyboardsOf, List.mem_filter, InputLayer.mem_eventNodes hn]
      simp only [List.all_eq_true, bne_iff_ne, ne_eq]
      constructor
      · rintro ⟨⟨⟨names, hl, hmem, hevent⟩, hkept⟩, hopens⟩
        exact ⟨names, hl, hmem, hevent, hkept, hopens⟩
      · rintro ⟨names, hl, hmem, hevent, hkept, hopens⟩
        exact ⟨⟨⟨names, hl, hmem, hevent⟩, hkept⟩, hopens⟩

theorem Appeared.nodup {k : InputLayer} {dir : String} {kept new : List Keyboard}
    (h : Appeared k dir kept new) (hkept : (kept.map (·.node)).Nodup) :
    ((kept ++ new).map (·.node)).Nodup := by
  rw [List.map_append, List.nodup_append]
  refine ⟨hkept, ?_, ?_⟩
  · apply List.pairwise_map.2
    apply h.sorted.imp
    intro kb kb' hlt
    exact String.ne_of_lt hlt
  · intro node hnode node' hnode'
    obtain ⟨old, hold, rfl⟩ := List.mem_map.1 hnode
    obtain ⟨kb, hkb, rfl⟩ := List.mem_map.1 hnode'
    obtain ⟨_, _, _, _, hne, _⟩ := (h.mem_iff kb).1 hkb
    exact hne old hold

/-! ## Points of the loop -/

/-- Where the loop stands before an iteration. -/
structure Point where
  script : List PollStep
  layer : InputLayer
  state : State

namespace Point

/-- The state of the iteration that begins at the point, when it polls. -/
def polling (p : Point) (dir : String) : State := p.state.rescan p.layer dir

/-- What is left of the loop. -/
def program (p : Point) (dir : String) (timeout : Nat) : Capture Unit :=
  loop dir timeout p.script p.layer p.state

/-- The iteration at the point, if its poll ends with the step. -/
def iteration (p : Point) (dir : String) (timeout : Nat) (step : PollStep) :
    Capture (Option (InputLayer × State)) :=
  iterate dir timeout step p.layer p.state

end Point

variable {dir : String} {timeout : Nat}

/-- The loop comes from one point to another by way of the effects. -/
inductive Reaches (dir : String) (timeout : Nat) : Point → List Effect → Point → Prop where
  | refl (p) : Reaches dir timeout p [] p
  | turn {p q : Point} {es es' step script k s} (h : Reaches dir timeout p es q)
      (hq : q.script = step :: script)
      (hr : Ran (q.iteration dir timeout step) es' (.returned (some (k, s)))) :
      Reaches dir timeout p (es ++ es') ⟨script, k, s⟩

theorem Reaches.trans {p q r : Point} {es es' : List Effect} (h : Reaches dir timeout p es q)
    (h' : Reaches dir timeout q es' r) : Reaches dir timeout p (es ++ es') r := by
  induction h' with
  | refl =>
    rw [List.append_nil]
    exact h
  | turn _ hq hr ih =>
    rw [← List.append_assoc]
    exact .turn ih hq hr

/-- What is kept by every iteration. -/
structure Sound (p : Point) : Prop where
  proper : p.layer.fs.Proper
  distinct : (p.state.keyboards.map (·.node)).Nodup
  scanned_le : p.state.scanned ≤ p.layer.clock

theorem rescan_of_due (dir : String) {k : InputLayer} {s : State} (hk : k.fs.Proper)
    (h : rescanMillis ≤ k.clock - s.scanned) :
    ∃ new, s.rescan k dir = { s with keyboards := s.keyboards ++ new, scanned := k.clock } ∧
      Appeared k dir s.keyboards new := by
  obtain ⟨new, hadopt, hnew⟩ := exists_adopt hk dir s.keyboards
  refine ⟨new, ?_, hnew⟩
  rw [State.rescan, if_pos h, hadopt]

theorem rescan_of_not_due {k : InputLayer} {s : State} (h : k.clock - s.scanned < rescanMillis) :
    s.rescan k dir = s := if_neg (Nat.not_le.2 h)

theorem Sound.polling {p : Point} (h : Sound p) (dir : String) :
    Sound { p with state := p.polling dir } := by
  rcases Nat.lt_or_ge (p.layer.clock - p.state.scanned) rescanMillis with hlt | hge
  · have hsame : p.polling dir = p.state := rescan_of_not_due hlt
    rw [hsame]
    exact h
  · obtain ⟨new, hrescan, hnew⟩ := rescan_of_due dir h.proper hge
    have hpolling : p.polling dir = _ := hrescan
    rw [hpolling]
    exact ⟨h.proper, hnew.nodup h.distinct, Nat.le_refl _⟩

/-- One iteration keeps what is kept. -/
theorem Sound.turn {p : Point} (h : Sound p) {step : PollStep} {es : List Effect}
    {k : InputLayer} {s : State} (script : List PollStep)
    (hr : Ran (p.iteration dir timeout step) es (.returned (some (k, s)))) :
    Sound ⟨script, k, s⟩ := by
  have hpolling := h.polling dir
  cases passed_of_ran hr with
  | interrupted wait =>
    obtain ⟨hproper, hclock⟩ := InputLayer.apply_keeps wait h.proper
    refine ⟨hproper, hpolling.distinct, ?_⟩
    show (p.polling dir).scanned ≤ (wait.apply p.layer).clock
    rw [hclock]
    exact Nat.le_add_right_of_le hpolling.scanned_le
  | read turn =>
    obtain ⟨hproper, hclock⟩ := InputLayer.apply_keeps turn.toPollWait h.proper
    refine ⟨hproper, ?_, ?_⟩
    · -- the keyboards that are left are some of those that were polled
      have hsub : ((p.polling dir).keyboards.filter (!turn.drops ·)).Sublist
        (p.polling dir).keyboards := List.filter_sublist
      exact hpolling.distinct.sublist (hsub.map _)
    · show (p.polling dir).scanned ≤ (turn.apply p.layer).clock
      rw [hclock]
      exact Nat.le_add_right_of_le hpolling.scanned_le

theorem sound_of_reaches {p q : Point} {es : List Effect} (h : Reaches dir timeout p es q)
    (hp : Sound p) : Sound q := by
  induction h with
  | refl => exact hp
  | turn _ _ hr ih => exact ih.turn _ hr

/-- The loop begins with keyboards that were opened as those that appear in an empty list would
be. -/
theorem sound_of_openAll {k : InputLayer} {keyboards : List Keyboard} (hk : k.fs.Proper)
    (h : openAll k dir = .ok keyboards) (script : List PollStep) :
    Sound ⟨script, k, .fresh k keyboards⟩ := by
  unfold openAll at h
  cases hn : k.eventNodes dir with
  | error e => rw [hn] at h; cases h
  | ok nodes =>
    have hkeyboards : keyboardsOf k nodes = keyboards := by
      simp only [hn] at h
      split at h
      · cases h
      · cases h
      · exact Except.ok.inj h
    refine ⟨hk, ?_, Nat.le_refl _⟩
    rw [← hkeyboards]
    apply List.pairwise_map.2
    apply (pairwise_keyboardsOf (InputLayer.pairwise_eventNodes hk hn)).imp
    intro kb kb' hlt
    exact String.ne_of_lt hlt

/-! ## The end of the loop -/

/-- How the last iteration goes: the flag is seen down, or the poll fails and was not just
interrupted. -/
inductive Ends (dir : String) (timeout : Nat) (p : Point) : List Effect → Prop where
  | down {es} (h : es.getLast? = some (.looked false)) : Ends dir timeout p es
  | failed {e wait script} (hp : p.script = .failed e wait :: script) (he : e ≠ .interrupted) :
      Ends dir timeout p [.looked true, polled dir timeout p.layer p.state]

/-- The loop ends only in an iteration that sees the flag down or whose poll fails. -/
theorem ran_loop {script : List PollStep} {k : InputLayer} {s : State} {es : List Effect}
    {o : Capture.Outcome Unit} (h : Ran (loop dir timeout script k s) es o) :
    o = .returned () ∧ ∃ q es₁ es₂, es = es₁ ++ es₂ ∧ Reaches dir timeout ⟨script, k, s⟩ es₁ q ∧
      Ends dir timeout q es₂ := by
  induction script generalizing k s es with
  | nil =>
    cases h with
    | idle h =>
      cases h
      exact ⟨rfl, _, [], _, rfl, .refl _, .down rfl⟩
  | cons step script ih =>
    rw [loop_cons] at h
    rcases Capture.ran_bind h with ⟨-, hbroken⟩ | ⟨es₁, es₂, r, rfl, hr, h⟩
    · cases passed_of_ran hbroken
    · cases r with
      | none =>
        cases h
        refine ⟨rfl, ⟨step :: script, k, s⟩, [], es₁ ++ [], rfl, .refl _, ?_⟩
        rw [List.append_nil]
        cases passed_of_ran hr with
        | down => exact .down rfl
        | failed _ he => exact .failed rfl he
        | stopped turn hlast =>
          apply Ends.down
          rw [List.getLast?_cons, List.getLast?_cons, hlast]
          rfl
      | some next =>
        obtain ⟨k', s'⟩ := next
        obtain ⟨ho, q, es₁', es₂', rfl, hreach, hends⟩ := ih h
        have hturn : Reaches dir timeout ⟨step :: script, k, s⟩ ([] ++ es₁) ⟨script, k', s'⟩ :=
          .turn (.refl _) rfl hr
        refine ⟨ho, q, es₁ ++ es₁', es₂', (List.append_assoc _ _ _).symm, ?_, hends⟩
        exact hturn.trans hreach

/-! ## The laws of the loop -/

/-- What holds at a point of the loop. -/
structure LoopLaws (dir : String) (timeout : Nat) (p : Point) : Prop where
  /-- The loop is made of iterations, which go by the indices of the keyboards. -/
  unfolds {step script} : p.script = step :: script → p.program dir timeout =
    (p.iteration dir timeout step).bind fun
      | none => .done ()
      | some (k, s) => loop dir timeout script k s
  /-- No iteration breaks off, which it would do at an index where there is no keyboard. -/
  inRange {step es} : ¬ Ran (p.iteration dir timeout step) es .broken
  distinct : (p.state.keyboards.map (·.node)).Nodup
  distinct_polling : ((p.polling dir).keyboards.map (·.node)).Nodup
  scanned_le : p.state.scanned ≤ p.layer.clock
  /-- A rescan that is due adds the keyboards that have appeared, and leaves the others alone. -/
  due : 2000 ≤ p.layer.clock - p.state.scanned → ∃ new,
    p.polling dir = { p.state with
      keyboards := p.state.keyboards ++ new, scanned := p.layer.clock } ∧
    Appeared p.layer dir p.state.keyboards new
  notDue : p.layer.clock - p.state.scanned < 2000 → p.polling dir = p.state
  /-- If the flag is up an iteration begins with the poll of the keyboards after the rescan. -/
  polls {step es r} : Ran (p.iteration dir timeout step) es (.returned r) →
    es = [.looked false] ∨ ∃ rest, es = .looked true ::
      .recorded (.polled ((p.polling dir).keyboards.map (·.node)) timeout) :: rest
  drops_iff (turn : PollTurn) (kb : Keyboard) : turn.drops kb = true ↔
    ∃ e, turn.outcome? kb.node = some (.error e) ∧ e ≠ .wouldBlock
  /-- The keyboards are dropped that could not be read, and no others. -/
  reads {turn es k s} : Ran (p.iteration dir timeout (.passed turn)) es (.returned (some (k, s))) →
    k = turn.apply p.layer ∧ s.keyboards = (p.polling dir).keyboards.filter (!turn.drops ·) ∧
      s.scanned = (p.polling dir).scanned
  /-- A poll that fails is repeated if it was interrupted, after what happened while it waited. -/
  interrupted {e wait es k s} :
    Ran (p.iteration dir timeout (.failed e wait)) es (.returned (some (k, s))) →
      e = .interrupted ∧ k = wait.apply p.layer ∧ s = p.polling dir
  retries (wait : PollWait) :
    Ran (p.iteration dir timeout (.failed .interrupted wait))
      [.looked true, .recorded (.polled ((p.polling dir).keyboards.map (·.node)) timeout)]
      (.returned (some (wait.apply p.layer, p.polling dir)))
  /-- While the flag is up, a poll that passes is followed by the next iteration, with whatever
  keyboards and with none. -/
  goesOn (turn : PollTurn) : ∃ es, .looked false ∉ es ∧
    Ran (p.iteration dir timeout (.passed turn)) es
      (.returned (some (turn.apply p.layer, (p.polling dir).read turn)))
  /-- An iteration is the last one if the flag was seen down or the poll failed, and only then. -/
  last_iff {step es r} : Ran (p.iteration dir timeout step) es (.returned r) →
    (r = none ↔ .looked false ∈ es ∨ ∃ e wait, step = .failed e wait ∧ e ≠ .interrupted)
  ends {es o} : Ran (p.program dir timeout) es o → o = .returned () ∧
    ∃ q es₁ es₂, es = es₁ ++ es₂ ∧ Reaches dir timeout p es₁ q ∧ Ends dir timeout q es₂

theorem drops_iff (turn : PollTurn) (kb : Keyboard) : turn.drops kb = true ↔
    ∃ e, turn.outcome? kb.node = some (.error e) ∧ e ≠ .wouldBlock := by
  unfold PollTurn.drops
  constructor
  · intro h
    split at h
    next e he => exact ⟨e, he, by simpa using h⟩
    next => cases h
  · rintro ⟨e, he, hne⟩
    simp [he, hne]

theorem last_iff {k : InputLayer} {s : State} {step : PollStep} {es : List Effect}
    {r : Option (InputLayer × State)} (h : Passed dir timeout k s step es (.returned r)) :
    r = none ↔ .looked false ∈ es ∨ ∃ e wait, step = .failed e wait ∧ e ≠ .interrupted := by
  cases h with
  | down => simp
  | interrupted => simp [polled]
  | failed _ he => simp [he]
  | stopped turn hlast =>
    have hmem := List.mem_of_getLast? hlast
    simp [hmem]
  | read turn hup => simp [polled, hup]

/-- **The laws of hotplug**: they hold at every point that the loop comes to, from the keyboards
that were opened at the beginning. -/
theorem loop_laws {k : InputLayer} {keyboards : List Keyboard} {script : List PollStep}
    {es : List Effect} {p : Point} (hk : k.fs.Proper) (hopen : openAll k dir = .ok keyboards)
    (h : Reaches dir timeout ⟨script, k, .fresh k keyboards⟩ es p) : LoopLaws dir timeout p := by
  have hsound : Sound p := sound_of_reaches h (sound_of_openAll hk hopen script)
  exact {
    unfolds := by
      intro step script hscript
      rw [Point.program, hscript, loop_cons]
      rfl
    inRange := by
      intro step es hr
      cases passed_of_ran hr
    distinct := hsound.distinct
    distinct_polling := (hsound.polling dir).distinct
    scanned_le := hsound.scanned_le
    due := rescan_of_due dir hsound.proper
    notDue := rescan_of_not_due
    polls := by
      intro step es r hr
      cases passed_of_ran hr with
      | down => exact .inl rfl
      | interrupted | failed | stopped | read => exact .inr ⟨_, rfl⟩
    drops_iff := drops_iff
    reads := by
      intro turn es k s hr
      cases passed_of_ran hr with
      | read => exact ⟨rfl, rfl, rfl⟩
    interrupted := by
      intro e wait es k s hr
      cases passed_of_ran hr with
      | interrupted => exact ⟨rfl, rfl, rfl⟩
    retries := by
      intro wait
      exact ran_iterate_interrupted dir timeout wait p.layer p.state
    goesOn := by
      intro turn
      exact ran_iterate dir timeout turn p.layer p.state
    last_iff := by
      intro step es r hr
      exact last_iff (passed_of_ran hr)
    ends := by
      intro es o hr
      exact ran_loop hr }

/-- A directory with a keyboard and a node that has no device yet. -/
def lone : InputLayer where
  fs := { nodes := [(["work"], .dir), (["work", "input"], .dir),
    (["work", "input", "event0"], .file ByteArray.empty),
    (["work", "input", "event1"], .file ByteArray.empty)] }
  devices := [("event0", {})]

/-- A poll during which the keyboard goes away and another one gets the other node. -/
def swap : PollTurn where
  elapsed := 2500
  devices := [("event0", .absent), ("event1", {})]
  ready := [{ node := "event0", outcome := .error ⟨19⟩ }]

/-- The point after that poll, at which no keyboard is left and a rescan is due. -/
def swapped : Point where
  script := []
  layer := swap.apply lone
  state := ((State.fresh lone [⟨"event0", {}⟩]).rescan lone "input").read swap

theorem loop_laws_swapped :
    lone.fs.Proper ∧ openAll lone "input" = .ok [⟨"event0", {}⟩] ∧
      (∃ es, Reaches "input" 100 ⟨[.passed swap], lone, .fresh lone [⟨"event0", {}⟩]⟩ es swapped) ∧
      swapped.state.keyboards = [] ∧ (swapped.polling "input").keyboards = [⟨"event1", {}⟩] ∧
      LoopLaws "input" 100 swapped := by
  have hproper : lone.fs.Proper := by decide
  have hnodes : ∀ k : InputLayer, k.fs = lone.fs →
      k.eventNodes "input" = .ok ["event0", "event1"] := by
    intro k hfs
    have hlist : k.fs.list "input" = .ok ["event0", "event1"] := by
      rw [hfs]
      rfl
    have hsorted : (["event0", "event1"] : List String).Pairwise
        fun a b => (!decide (b < a)) = true := by
      decide
    have hfilter : ["event0", "event1"].filter ("event".isPrefixOf ·) = ["event0", "event1"] := by
      decide +kernel
    unfold InputLayer.eventNodes
    rw [hlist]
    show Except.ok ((["event0", "event1"].filter ("event".isPrefixOf ·)).mergeSort _) = _
    rw [hfilter, List.mergeSort_of_pairwise hsorted]
  have hopen : openAll lone "input" = .ok [⟨"event0", {}⟩] := by
    unfold openAll
    rw [hnodes lone rfl]
    rfl
  have hadopt : adopt (swap.apply lone) "input" [] = [⟨"event1", {}⟩] := by
    unfold adopt
    rw [hnodes (swap.apply lone) rfl]
    rfl
  obtain ⟨es, -, hr⟩ := ran_iterate "input" 100 swap lone (.fresh lone [⟨"event0", {}⟩])
  have hreach := Reaches.turn (.refl ⟨[.passed swap], lone, .fresh lone [⟨"event0", {}⟩]⟩) rfl hr
  exact ⟨hproper, hopen, ⟨_, hreach⟩, rfl, hadopt, loop_laws hproper hopen hreach⟩

end Evdev

end Keystroke
