import Keystroke.Proofs.Capture.Evdev

/-!
# The masks of several keyboards

One tracker follows the transitions on all keyboards, by the key and not by the keyboard, and it is
not told when a keyboard is dropped. So a chord modifier is in the mask if the last transition of
one of its keys, on whatever keyboard, was a press. That is the same as a key that is down on a kept
keyboard unless a key is released on one keyboard while it is down on another one, or a keyboard is
dropped while a key on it is down.

## Main statements

- `moves_happenings`: the transitions of the keyboards are those that the loop delivers.
- `Tallied.after`: what one record of all transitions has in common with one for each keyboard.
- `masks_of_runs`: the masks of the events that are delivered.
- `masks_astray`: two runs in which a mask is not that of the keys that are down.
-/

namespace Keystroke.Evdev

open CaptureThread (Runs begin)

/-! ## What happens to the keyboards -/

/-- What happens to the keyboards of the loop, which are known by their nodes. -/
inductive Happening where
  | polled (nodes : List String)
  | moved (node : String) (key : Key) (pressed : Bool)
  | dropped (nodes : List String)
  deriving DecidableEq, Repr

def Happening.move? : Happening → Option (Key × Bool)
  | .moved _ key pressed => some (key, pressed)
  | _ => none

/-- The transitions among the happenings, whatever keyboard they are on. -/
def moves (hs : List Happening) : List (Key × Bool) := hs.filterMap (·.move?)

/-- The transitions that are read at a poll. -/
def strokes (turn : PollTurn) (keyboards : List Keyboard) : List Happening :=
  keyboards.flatMap fun kb => (transitions (turn.batch kb)).map fun move =>
    .moved kb.node move.1 move.2

/-- What happens to the keyboards if the flag is never lowered. -/
def happenings (dir : String) : List PollStep → InputLayer → State → List Happening
  | [], _, _ => []
  | .failed e wait :: script, k, s =>
    .polled ((s.rescan k dir).keyboards.map (·.node)) ::
      if e = .interrupted then happenings dir script (wait.apply k) (s.rescan k dir) else []
  | .passed turn :: script, k, s =>
    let s := s.rescan k dir
    .polled (s.keyboards.map (·.node)) :: strokes turn s.keyboards ++
      .dropped ((s.keyboards.filter turn.drops).map (·.node)) ::
        happenings dir script (turn.apply k) (s.read turn)

theorem moves_append (hs hs' : List Happening) : moves (hs ++ hs') = moves hs ++ moves hs' :=
  List.filterMap_append

theorem moves_strokes (turn : PollTurn) (keyboards : List Keyboard) :
    moves (strokes turn keyboards) = transitions (keyboards.flatMap turn.batch) := by
  induction keyboards with
  | nil => rfl
  | cons kb keyboards ih =>
    have hone : moves ((transitions (turn.batch kb)).map fun move =>
        .moved kb.node move.1 move.2) = transitions (turn.batch kb) := by
      unfold moves
      rw [List.filterMap_map]
      exact List.filterMap_some
    rw [List.flatMap_cons, transitions_append, ← ih, ← hone]
    exact moves_append _ _

/-- The transitions of the keyboards are those that the loop delivers. -/
theorem moves_happenings (dir : String) (script : List PollStep) (k : InputLayer) (s : State) :
    moves (happenings dir script k s) = transitions (fetched dir script k s) := by
  induction script generalizing k s with
  | nil => rfl
  | cons step script ih =>
    cases step with
    | failed e wait =>
      simp only [happenings, fetched]
      by_cases he : e = .interrupted
      · rw [if_pos he, if_pos he]
        exact ih (wait.apply k) (s.rescan k dir)
      · rw [if_neg he, if_neg he]
        rfl
    | passed turn =>
      simp only [happenings, fetched]
      rw [transitions_append, ← ih, ← moves_strokes]
      exact moves_append _ _

/-! ## The desk -/

/-- The kept keyboards, with the transitions on each keyboard since it was opened. -/
structure Desk where
  kept : List String
  moves : String → List (Key × Bool)

namespace Desk

def empty : Desk := ⟨[], fun _ => []⟩

def step (d : Desk) : Happening → Desk
  | .polled nodes => { d with kept := nodes }
  | .moved node key pressed =>
    { d with moves := fun n => if n = node then d.moves n ++ [(key, pressed)] else d.moves n }
  | .dropped nodes =>
    { kept := d.kept.filter (· ∉ nodes), moves := fun n => if n ∈ nodes then [] else d.moves n }

def after (d : Desk) (hs : List Happening) : Desk := hs.foldl step d

/-- Each happening in turn fits the desk as it is then. -/
def Throughout (P : Desk → Happening → Prop) : Desk → List Happening → Prop
  | _, [] => True
  | d, h :: hs => P d h ∧ Throughout P (d.step h) hs

/-- A poll leaves out no kept keyboard, and only kept keyboards have transitions. -/
def Admits (d : Desk) : Happening → Prop
  | .polled nodes => d.kept ⊆ nodes
  | .moved node _ _ => node ∈ d.kept
  | .dropped _ => True

/-- A chord key that comes up on one keyboard is not down on another one. -/
def Unshared (d : Desk) : Happening → Prop
  | .moved node key false => key ∈ Key.chordKeys → ∀ other ∈ d.kept, other ≠ node →
    key.isDownAfter (d.moves other) = false
  | _ => True

/-- A keyboard that is dropped has no chord key down. -/
def Unburdened (d : Desk) : Happening → Prop
  | .dropped nodes => ∀ node ∈ nodes, ∀ key ∈ Key.chordKeys,
    key.isDownAfter (d.moves node) = false
  | _ => True

/-- The chord modifiers of the mask are those of which a key is down on a kept keyboard. -/
def Shows (d : Desk) (m : Modifier) : Prop :=
  ∀ b < 4, m.bit b = true ↔
    ∃ node ∈ d.kept, ∃ key ∈ Key.sides b, key.isDownAfter (d.moves node) = true

variable {P : Desk → Happening → Prop} {d : Desk}

theorem throughout_append (hs hs' : List Happening) :
    d.Throughout P (hs ++ hs') ↔ d.Throughout P hs ∧ (d.after hs).Throughout P hs' := by
  induction hs generalizing d with
  | nil => exact ⟨fun h => ⟨trivial, h⟩, fun h => h.2⟩
  | cons h hs ih =>
    show P d h ∧ (d.step h).Throughout P (hs ++ hs') ↔
      (P d h ∧ (d.step h).Throughout P hs) ∧ ((d.step h).after hs).Throughout P hs'
    rw [ih, and_assoc]

theorem admits_moved {hs : List Happening}
    (h : ∀ h ∈ hs, ∃ node key pressed, h = .moved node key pressed ∧ node ∈ d.kept) :
    d.Throughout Admits hs ∧ (d.after hs).kept = d.kept := by
  induction hs generalizing d with
  | nil => exact ⟨trivial, rfl⟩
  | cons h' hs ih =>
    obtain ⟨node, key, pressed, rfl, hnode⟩ := h h' List.mem_cons_self
    have hrest := ih (d := d.step (.moved node key pressed)) fun h' hmem =>
      h h' (List.mem_cons_of_mem _ hmem)
    exact ⟨⟨hnode, hrest.1⟩, hrest.2⟩

end Desk

theorem node_mem_rescan {s : State} {k : InputLayer} {dir node : String}
    (h : node ∈ s.keyboards.map (·.node)) : node ∈ (s.rescan k dir).keyboards.map (·.node) := by
  unfold State.rescan
  split
  · show node ∈ (adopt k dir s.keyboards).map (·.node)
    unfold adopt
    split
    · exact h
    · rw [List.map_append]
      exact List.mem_append_left _ h
  · exact h

/-- The happenings of the loop fit the desk, if that keeps no more keyboards than the loop. -/
theorem admits_happenings (dir : String) {script : List PollStep} {k : InputLayer} {s : State}
    {d : Desk} (h : d.kept ⊆ s.keyboards.map (·.node)) :
    d.Throughout Desk.Admits (happenings dir script k s) := by
  induction script generalizing k s d with
  | nil => trivial
  | cons step script ih =>
    have hpolled : d.kept ⊆ (s.rescan k dir).keyboards.map (·.node) := by
      intro node hnode
      exact node_mem_rescan (h hnode)
    cases step with
    | failed e wait =>
      refine ⟨hpolled, ?_⟩
      split
      · exact ih (List.Subset.refl _)
      · trivial
    | passed turn =>
      simp only [happenings]
      show Desk.Throughout _ d ((.polled _ :: strokes turn _) ++ _)
      have hstrokes : ∀ h ∈ strokes turn (s.rescan k dir).keyboards,
          ∃ node key pressed, h = .moved node key pressed ∧
            node ∈ (d.step (.polled ((s.rescan k dir).keyboards.map (·.node)))).kept := by
        intro h hmem
        obtain ⟨kb, hkb, hmem⟩ := List.mem_flatMap.1 hmem
        obtain ⟨move, -, rfl⟩ := List.mem_map.1 hmem
        exact ⟨kb.node, move.1, move.2, rfl, List.mem_map.2 ⟨kb, hkb, rfl⟩⟩
      obtain ⟨hadmits, hkept⟩ := Desk.admits_moved hstrokes
      rw [Desk.throughout_append]
      refine ⟨⟨hpolled, hadmits⟩, trivial, ih ?_⟩
      -- what the desk keeps after the keyboards were dropped, the loop keeps too
      intro node hnode
      obtain ⟨hnode, hnot⟩ := List.mem_filter.1 hnode
      have hpoll : node ∈ (s.rescan k dir).keyboards.map (·.node) :=
        (congrArg (node ∈ ·) hkept).mp hnode
      obtain ⟨kb, hkb, rfl⟩ := List.mem_map.1 hpoll
      refine List.mem_map.2 ⟨kb, List.mem_filter.2 ⟨hkb, ?_⟩, rfl⟩
      cases hdrops : turn.drops kb with
      | false => rfl
      | true =>
        have hmem : kb.node ∈ ((s.rescan k dir).keyboards.filter turn.drops).map (·.node) :=
          List.mem_map.2 ⟨kb, List.mem_filter.2 ⟨hkb, hdrops⟩, rfl⟩
        exact absurd hmem (by simpa using hnot)

/-! ## One record and many -/

/-- The record of all transitions has a chord key down if one of the kept keyboards has. -/
structure Tallied (d : Desk) (merged : List (Key × Bool)) : Prop where
  kept : ∀ node, d.moves node ≠ [] → node ∈ d.kept
  down : ∀ key ∈ Key.chordKeys, key.isDownAfter merged = true ↔
    ∃ node ∈ d.kept, key.isDownAfter (d.moves node) = true

theorem tallied_empty : Tallied .empty [] where
  kept _ h := absurd rfl h
  down _ _ := ⟨nofun, fun ⟨_, hmem, _⟩ => nomatch hmem⟩

variable {d : Desk} {merged : List (Key × Bool)}

theorem Tallied.polled (h : Tallied d merged) {nodes : List String} (hadmits : d.kept ⊆ nodes) :
    Tallied (d.step (.polled nodes)) merged := by
  refine ⟨fun node hmoves => hadmits (h.kept node hmoves), ?_⟩
  intro key hkey
  rw [h.down key hkey]
  constructor
  · rintro ⟨node, hnode, hdown⟩
    exact ⟨node, hadmits hnode, hdown⟩
  · rintro ⟨node, -, hdown⟩
    have hmoves : d.moves node ≠ [] := by
      intro hnil
      rw [show (d.step (.polled nodes)).moves node = [] from hnil] at hdown
      cases hdown
    exact ⟨node, h.kept node hmoves, hdown⟩

theorem Tallied.moved (h : Tallied d merged) {node : String} {key : Key} {pressed : Bool}
    (hnode : node ∈ d.kept) (hshared : d.Unshared (.moved node key pressed)) :
    Tallied (d.step (.moved node key pressed)) (merged ++ [(key, pressed)]) := by
  have hmoves : ∀ other key', key'.isDownAfter ((d.step (.moved node key pressed)).moves other) =
      if other = node ∧ key = key' then pressed else key'.isDownAfter (d.moves other) := by
    intro other key'
    show key'.isDownAfter (if other = node then d.moves other ++ [(key, pressed)]
      else d.moves other) = _
    by_cases hother : other = node
    · rw [if_pos hother, Key.isDownAfter_concat]
      simp [hother]
    · simp [hother]
  constructor
  · intro other hother
    by_cases heq : other = node
    · rw [heq]
      exact hnode
    · apply h.kept other
      simpa [Desk.step, heq] using hother
  · intro key' hkey'
    rw [Key.isDownAfter_concat]
    by_cases hkey : key = key'
    · subst hkey
      rw [if_pos rfl]
      cases pressed with
      | true => exact ⟨fun _ => ⟨node, hnode, by rw [hmoves]; simp⟩, fun _ => rfl⟩
      | false =>
        -- nowhere else is the key down
        refine ⟨nofun, ?_⟩
        rintro ⟨other, hother, hdown⟩
        rw [hmoves] at hdown
        by_cases heq : other = node
        · simp [heq] at hdown
        · rw [if_neg (fun hand => heq hand.1)] at hdown
          rw [hshared hkey' other hother heq] at hdown
          exact hdown
    · rw [if_neg hkey, h.down key' hkey']
      constructor
      · rintro ⟨other, hother, hdown⟩
        exact ⟨other, hother, by rw [hmoves, if_neg (fun hand => hkey hand.2)]; exact hdown⟩
      · rintro ⟨other, hother, hdown⟩
        rw [hmoves, if_neg (fun hand => hkey hand.2)] at hdown
        exact ⟨other, hother, hdown⟩

theorem Tallied.dropped (h : Tallied d merged) {nodes : List String}
    (hlost : d.Unburdened (.dropped nodes)) : Tallied (d.step (.dropped nodes)) merged := by
  constructor
  · intro node hmoves
    show node ∈ d.kept.filter (· ∉ nodes)
    by_cases hmem : node ∈ nodes
    · simp [Desk.step, hmem] at hmoves
    · have hkept : node ∈ d.kept := by
        apply h.kept node
        simpa [Desk.step, hmem] using hmoves
      simp [hkept, hmem]
  · intro key hkey
    rw [h.down key hkey]
    constructor
    · rintro ⟨node, hnode, hdown⟩
      have hmem : node ∉ nodes := by
        intro hmem
        rw [hlost node hmem key hkey] at hdown
        cases hdown
      exact ⟨node, by simp [Desk.step, hnode, hmem], by simpa [Desk.step, hmem] using hdown⟩
    · rintro ⟨node, hnode, hdown⟩
      obtain ⟨hnode, hmem⟩ := List.mem_filter.1 hnode
      have hmem : node ∉ nodes := by simpa using hmem
      exact ⟨node, hnode, by simpa [Desk.step, hmem] using hdown⟩

theorem Tallied.after {hs : List Happening} (h : Tallied d merged)
    (hadmits : d.Throughout Desk.Admits hs) (hshared : d.Throughout Desk.Unshared hs)
    (hlost : d.Throughout Desk.Unburdened hs) : Tallied (d.after hs) (merged ++ moves hs) := by
  induction hs generalizing d merged with
  | nil =>
    rw [show moves [] = [] from rfl, List.append_nil]
    exact h
  | cons happening hs ih =>
    obtain ⟨hfit, hadmits⟩ := hadmits
    obtain ⟨hshare, hshared⟩ := hshared
    obtain ⟨hlose, hlost⟩ := hlost
    cases happening with
    | polled nodes => exact ih (h.polled hfit) hadmits hshared hlost
    | moved node key pressed =>
      have hrest := ih (h.moved hfit hshare) hadmits hshared hlost
      rw [List.append_assoc] at hrest
      exact hrest
    | dropped nodes => exact ih (h.dropped hlose) hadmits hshared hlost

/-! ## Masks -/

/-- What is known of the mask of the event that is delivered for a transition on the keyboard `node`
when the happenings `past` were before it. -/
structure MaskLaws (hs past : List Happening) (node : String) (e : KeyEvent) (i : Nat) : Prop where
  here : past ++ [.moved node e.key e.pressed] <+: hs
  /-- It is the event with the number `i`. -/
  index : (moves past).length = i
  /-- A chord modifier holds if the last transition of one of its keys was a press, no matter on
  which keyboard and whether that one is still kept. -/
  bits : ∀ b < 4, e.modifiers.bit b = true ↔ ∃ key ∈ Key.sides b,
    key.isDownAfter (moves (past ++ [.moved node e.key e.pressed])) = true
  shows : let now := past ++ [.moved node e.key e.pressed]
    Desk.empty.Throughout Desk.Unshared now → Desk.empty.Throughout Desk.Unburdened now →
      (Desk.empty.after now).Shows e.modifiers

/-- The happening that an event with a number belongs to. -/
theorem exists_moved {hs : List Happening} {i : Nat} {move : Key × Bool}
    (h : (moves hs)[i]? = some move) :
    ∃ past node, past ++ [.moved node move.1 move.2] <+: hs ∧ moves past = (moves hs).take i := by
  obtain ⟨hi, hmove⟩ := List.getElem?_eq_some_iff.1 h
  have hsplit : moves hs = (moves hs).take i ++ move :: (moves hs).drop (i + 1) := by
    rw [← hmove, ← List.drop_eq_getElem_cons hi, List.take_append_drop]
  obtain ⟨past, later, hhs, hpast, hlater⟩ := List.filterMap_eq_append_iff.1 hsplit
  obtain ⟨between, here, rest, hcons, hnone, hhere, -⟩ := List.filterMap_eq_cons_iff.1 hlater
  have hbetween : moves between = [] := List.filterMap_eq_nil_iff.2 hnone
  cases here with
  | polled | dropped => cases hhere
  | moved node key pressed =>
    cases hhere
    refine ⟨past ++ between, node, ⟨rest, ?_⟩, ?_⟩
    · rw [hhs, hcons]
      simp
    · rw [moves_append, hbetween, List.append_nil]
      exact hpast

/-- **Masks of several keyboards**: the mask of each event that a run delivers. -/
theorem masks_of_runs {dir : String} {timeout : Nat} {script : List PollStep} {k : InputLayer}
    {keyboards : List Keyboard} {self : Nat} {m m' : Shared} {callback : Callback}
    {t' : CaptureThread} {es : List KeyEvent} {i : Nat} {e : KeyEvent}
    (h : Runs self m (begin (loop dir timeout script k (.fresh k keyboards)) callback) es m' t')
    (he : es[i]? = some e) :
    ∃ past node, MaskLaws (happenings dir script k (.fresh k keyboards)) past node e i := by
  let tracker := ModifierTracker.ofLocks (initialLocks keyboards)
  let hs := happenings dir script k (.fresh k keyboards)
  -- the event is that of the transition with the same number
  have hprefix : es <+: tracker.events (moves hs) := by
    have hplays := plays_loop dir timeout script k (.fresh k keyboards) false
    rw [← moves_happenings] at hplays
    exact (Capture.delivers_of_plays hplays).ordered h
  have hevent : (tracker.events (moves hs))[i]? = some e := by
    obtain ⟨later, hlater⟩ := hprefix
    rw [← hlater]
    exact (List.getElem?_append_left (List.getElem?_eq_some_iff.1 he).1).trans he
  have hmove : (moves hs)[i]? = some (e.key, e.pressed) := by
    rw [← tracker.map_events (moves hs), List.getElem?_map, hevent]
    rfl
  obtain ⟨past, node, hhere, hpast⟩ := exists_moved hmove
  have hmoves : moves (past ++ [.moved node e.key e.pressed]) = (moves hs).take (i + 1) := by
    rw [moves_append, hpast, List.take_add_one, hmove]
    rfl
  have hbits : ∀ b < 4, e.modifiers.bit b = true ↔ ∃ key ∈ Key.sides b,
      key.isDownAfter (moves (past ++ [.moved node e.key e.pressed])) = true := by
    intro b hb
    rw [tracker.getElem?_events hevent, ModifierTracker.bit_current_after _ _ hb, hmoves,
      List.any_eq_true]
  refine ⟨past, node, hhere, ?_, hbits, ?_⟩
  · rw [hpast, List.length_take]
    exact Nat.min_eq_left (Nat.le_of_lt (List.getElem?_eq_some_iff.1 hmove).1)
  · intro now hshared hlost b hb
    have hadmits : Desk.empty.Throughout Desk.Admits now := by
      obtain ⟨rest, hrest⟩ := hhere
      have hall : Desk.empty.Throughout Desk.Admits hs :=
        admits_happenings dir (List.nil_subset _)
      rw [show hs = now ++ rest from hrest.symm, Desk.throughout_append] at hall
      exact hall.1
    have htallied := tallied_empty.after hadmits hshared hlost
    rw [hbits b hb]
    constructor
    · rintro ⟨key, hside, hdown⟩
      obtain ⟨node, hnode, hdown⟩ := (htallied.down key (Key.mem_chordKeys.2 ⟨b, hside⟩)).1 hdown
      exact ⟨node, hnode, key, hside, hdown⟩
    · rintro ⟨node, hnode, key, hside, hdown⟩
      exact ⟨key, hside, (htallied.down key (Key.mem_chordKeys.2 ⟨b, hside⟩)).2
        ⟨node, hnode, hdown⟩⟩

/-! ## Runs with two keyboards -/

/-- While nobody lowers the flag all events are delivered. -/
theorem exists_run (dir : String) (timeout : Nat) (script : List PollStep) (k : InputLayer)
    (keyboards : List Keyboard) :
    ∃ m t, Runs 0 { flag := true } (begin (loop dir timeout script k (.fresh k keyboards)) {})
      ((ModifierTracker.ofLocks (initialLocks keyboards)).events
        (moves (happenings dir script k (.fresh k keyboards)))) m t := by
  have hplays := plays_loop dir timeout script k (.fresh k keyboards) false
  rw [← moves_happenings] at hplays
  obtain ⟨es, m, t, hruns, hend⟩ := (Capture.delivers_of_plays hplays).live
    (.refl { flag := true } (begin _ {})) (fun _ _ => ⟨rfl, rfl⟩) rfl rfl
  rcases hend with hall | ⟨_, _, _, hstops⟩
  · rw [List.nil_append] at hall
    rw [hall] at hruns
    exact ⟨m, t, hruns⟩
  · cases hstops

def twoKeyboards : List Keyboard := [⟨"event0", {}⟩, ⟨"event1", {}⟩]

/-- A poll after which one keyboard has events. -/
def reads (node : String) (events : List InputEvent) : PollStep :=
  .passed { ready := [{ node, outcome := .ok events }] }

/-- The left Shift key goes down on both keyboards and comes up on one. -/
def releasedOnOne : List PollStep :=
  [reads "event0" [⟨1, 42, 1⟩], reads "event1" [⟨1, 42, 1⟩], reads "event0" [⟨1, 42, 0⟩]]

/-- The left Shift key goes down on one keyboard, which then fails. -/
def lostWhileDown : List PollStep :=
  [reads "event0" [⟨1, 42, 1⟩],
   .passed { ready := [{ node := "event0", outcome := .error ⟨19⟩ }] },
   reads "event1" [⟨1, 30, 1⟩]]

/-- The event of the key that comes up has no modifiers. -/
theorem getElem?_events_released :
    ((ModifierTracker.ofLocks (initialLocks twoKeyboards)).events
      (moves (happenings "input" releasedOnOne {} (.fresh {} twoKeyboards))))[2]? =
    some ⟨0, .shiftLeft, ∅, false⟩ := by
  decide

theorem masks_of_runs_released : ∃ es m t e,
    Runs 0 { flag := true } (begin (loop "input" 100 releasedOnOne {} (.fresh {} twoKeyboards)) {})
      es m t ∧ es[2]? = some e ∧ e.modifiers = ∅ ∧
      ∃ past node, MaskLaws (happenings "input" releasedOnOne {} (.fresh {} twoKeyboards))
        past node e 2 := by
  obtain ⟨m, t, hruns⟩ := exists_run "input" 100 releasedOnOne {} twoKeyboards
  exact ⟨_, m, t, _, hruns, getElem?_events_released, rfl,
    masks_of_runs hruns getElem?_events_released⟩

/-- Shift is not in the mask although its key is still down on the other keyboard; and it is in the
mask of a letter although no kept keyboard has its key down. Of the happenings that are taken the
last one is that of the event. -/
theorem masks_astray :
    (∃ es m t e, Runs 0 { flag := true }
      (begin (loop "input" 100 releasedOnOne {} (.fresh {} twoKeyboards)) {}) es m t ∧
      es[2]? = some e ∧ ¬ (Desk.empty.after
        ((happenings "input" releasedOnOne {} (.fresh {} twoKeyboards)).take 8)).Shows
        e.modifiers) ∧
    (∃ es m t e, Runs 0 { flag := true }
      (begin (loop "input" 100 lostWhileDown {} (.fresh {} twoKeyboards)) {}) es m t ∧
      es[1]? = some e ∧ ¬ (Desk.empty.after
        ((happenings "input" lostWhileDown {} (.fresh {} twoKeyboards)).take 7)).Shows
        e.modifiers) := by
  constructor
  · obtain ⟨m, t, hruns⟩ := exists_run "input" 100 releasedOnOne {} twoKeyboards
    refine ⟨_, m, t, _, hruns, getElem?_events_released, ?_⟩
    intro hshows
    have hdown := (hshows 0 (by decide)).2 ⟨"event1", by decide, .shiftLeft, by decide, by decide⟩
    exact absurd hdown (by decide)
  · obtain ⟨m, t, hruns⟩ := exists_run "input" 100 lostWhileDown {} twoKeyboards
    have hevent : ((ModifierTracker.ofLocks (initialLocks twoKeyboards)).events
        (moves (happenings "input" lostWhileDown {} (.fresh {} twoKeyboards))))[1]? =
        some (.of .a .shift true) := by
      decide
    refine ⟨_, m, t, _, hruns, hevent, ?_⟩
    intro hshows
    have hdown := (hshows 0 (by decide)).1 (by decide)
    exact absurd hdown (by decide)

end Keystroke.Evdev
