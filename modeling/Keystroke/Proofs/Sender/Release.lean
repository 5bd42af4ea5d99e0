import Keystroke.Driver.Recorder
import Keystroke.Proofs.Sender.Bookkeeping
import Keystroke.Proofs.Sender.Loopback
import Mathlib.Data.List.Induction

/-!
# What is released

A combination takes back the modifiers that it has pressed, and a sender can be told to release all
modifiers. Both go by the bits of a mask and by the left keys of these. So the keys of the right
side are not among the keys that are released, and a key that a combination only taps is released by
the tap alone, which leaves it on the account if it could not be pressed.

## Main statements

- `bit_account_leftKeys`: what going through the left keys of a mask does to the account.
- `active_combo`: the account after a combination.
- `combo_leaves`: which modifiers are on the account after a combination and were not before.
- `notes_performAll`: the transitions of a run of which none failed.
- `releaseAll_releases`: which keys are down after all modifiers were released.
-/

namespace Keystroke

/-! ## The left keys of a mask -/

namespace Modifier

theorem any_ite_singleton (b : Bool) (key : Key) (p : Key → Bool) :
    (if b = true then [key] else []).any p = (b && p key) := by
  cases b <;> simp

/-- The left keys of a mask are on the sides of its chord modifiers. -/
theorem any_leftKeys (m : Modifier) (i : Nat) :
    m.leftKeys.any (Key.sides i).contains = (m ∩ .chord).bit i := by
  have h₀ : m.contains .shift = m.bit 0 := m.contains_eq_bit (by decide) (by decide)
  have h₁ : m.contains .ctrl = m.bit 1 := m.contains_eq_bit (by decide) (by decide)
  have h₂ : m.contains .alt = m.bit 2 := m.contains_eq_bit (by decide) (by decide)
  have h₃ : m.contains .super = m.bit 3 := m.contains_eq_bit (by decide) (by decide)
  simp only [leftKeys, h₀, h₁, h₂, h₃, List.any_append, any_ite_singleton, bit_inter, bit_chord]
  match i with
  | 0 | 1 | 2 | 3 => simp [Key.sides]
  | i + 4 => simp [Key.sides]

/-- Going through the left keys of a mask sets or clears its chord modifiers. -/
theorem bit_account_leftKeys (m mask : Modifier) (down : Bool) (i : Nat) :
    (m.account (mask.leftKeys.map fun key => (key, down))).bit i =
      if (mask ∩ .chord).bit i then down else m.bit i := by
  have hfold : ∀ (keys : List Key) (b : Bool),
      (keys.map fun key => (key, down)).foldl
        (fun held move => if move.1 ∈ Key.sides i then move.2 else held) b =
      if keys.any (Key.sides i).contains then down else b := by
    intro keys
    induction keys with
    | nil => exact fun _ => rfl
    | cons key keys ih =>
      intro b
      simp only [List.map_cons, List.foldl_cons, ih, List.any_cons]
      by_cases hside : key ∈ Key.sides i <;> simp [hside]
  rw [bit_account, hfold, any_leftKeys]

end Modifier

/-! ## The account -/

namespace Sender

variable {δ : Type} [KeyboardDriver δ]

theorem active_keyDown (key : Key) (r : Rig (Sender δ)) :
    (keyDown key r).2.front.active = r.front.active.account [(key, true)] := rfl

theorem active_keyUp (key : Key) (r : Rig (Sender δ)) :
    (keyUp key r).2.front.active = r.front.active.account [(key, false)] := rfl

omit [KeyboardDriver δ] in
theorem active_forKeys {act : Key → StateM (Rig (Sender δ)) Bool} {down : Bool}
    (h : ∀ key r, (act key r).2.front.active = r.front.active.account [(key, down)])
    (keys : List Key) (r : Rig (Sender δ)) :
    (forKeys act keys r).2.front.active =
      r.front.active.account (keys.map fun key => (key, down)) := by
  induction keys generalizing r with
  | nil => rfl
  | cons key keys ih =>
    change (forKeys act keys (act key r).2).2.front.active = _
    rw [ih, h, ← Modifier.account_append]
    rfl

/-- Holding a mask puts its chord modifiers on the account, whatever fails. -/
theorem active_hold (mask : Modifier) (r : Rig (Sender δ)) :
    (hold mask r).2.front.active = r.front.active ∪ (mask ∩ .chord) := by
  rw [hold_eq, active_forKeys active_keyDown]
  apply Modifier.ext_bit
  intro i _
  rw [Modifier.bit_account_leftKeys, Modifier.bit_union]
  cases (mask ∩ .chord).bit i <;> simp

/-- Releasing a mask takes its chord modifiers off the account, whatever fails. -/
theorem active_release (mask : Modifier) (r : Rig (Sender δ)) :
    (release mask r).2.front.active = r.front.active \ (mask ∩ .chord) := by
  rw [release_eq, active_forKeys active_keyUp]
  apply Modifier.ext_bit
  intro i _
  rw [Modifier.bit_account_leftKeys, Modifier.bit_sdiff]
  cases (mask ∩ .chord).bit i <;> simp

/-- The release of a key takes its modifier off the account, so a tap leaves it there only if the
press failed. -/
theorem active_tap (key : Key) (r : Rig (Sender δ)) :
    (tap key r).2.front.active =
      if (keyDown key r).1 then r.front.active \ key.modifierBit
      else r.front.active ∪ key.modifierBit := by
  change ((if (!(keyDown key r).1) = true then pure false
    else (do drive KeyboardDriver.delay; keyUp key) :
      StateM (Rig (Sender δ)) Bool) (keyDown key r).2).2.front.active = _
  cases (keyDown key r).1 with
  | false => rfl
  | true =>
    change (r.front.active ∪ key.modifierBit) \ key.modifierBit = r.front.active \ key.modifierBit
    apply Modifier.ext_bit
    intro i _
    simp only [Modifier.bit_sdiff, Modifier.bit_union]
    cases r.front.active.bit i <;> cases key.modifierBit.bit i <;> rfl

/-- The account after a combination follows from the one before it, from whether the modifiers could
be pressed, and from whether the key could be. -/
theorem active_combo (mask : Modifier) (key : Key) (r : Rig (Sender δ)) :
    let held := hold mask r
    let pressed := keyDown key (drive KeyboardDriver.delay held.2).2
    (combo mask key r).2.front.active =
      (if held.1 then
        if pressed.1 then r.front.active \ key.modifierBit else r.front.active ∪ key.modifierBit
      else r.front.active) \ (mask ∩ .chord) := by
  intro held pressed
  let waited := (drive KeyboardDriver.delay held.2).2
  have hhold : held.2.front.active = r.front.active ∪ (mask ∩ .chord) := active_hold mask r
  have htap : (tap key waited).2.front.active =
      if pressed.1 then held.2.front.active \ key.modifierBit
      else held.2.front.active ∪ key.modifierBit := active_tap key waited
  -- either way the release comes last
  have hend : (combo mask key r).2.front.active =
      (if held.1 then (tap key waited).2.front.active else held.2.front.active) \
        (mask ∩ .chord) := by
    change ((if held.1 = true then (do
        drive KeyboardDriver.delay
        let tapped ← tap key
        drive KeyboardDriver.delay
        let _ ← release mask
        return tapped) else (do
        let _ ← release mask
        return false) : StateM (Rig (Sender δ)) Bool) held.2).2.front.active = _
    cases held.1 with
    | false => exact active_release mask held.2
    | true => exact active_release mask (drive KeyboardDriver.delay (tap key waited).2).2
  rw [hend, htap, hhold]
  apply Modifier.ext_bit
  intro i _
  -- what the hold has put on the account comes off again, whatever the tap does in between
  rw [Modifier.bit_sdiff, Modifier.bit_sdiff]
  cases held.1 <;> cases pressed.1 <;> cases hbit : (mask ∩ .chord).bit i <;> simp [hbit]

/-- **What a combination leaves behind**, over any driver, whatever it refuses and whatever was on
the account before. None of the chord modifiers of the mask is on the account afterwards. A modifier
is there that was not there before exactly if the mask could be held, the key is one of those of the
modifier, and the key could not be pressed: it is on the account before the press is tried, and a
tap whose press failed ends without the release. -/
theorem combo_leaves (mask : Modifier) (key : Key) (r : Rig (Sender δ)) :
    let held := hold mask r
    let pressed := keyDown key (drive KeyboardDriver.delay held.2).2
    let before := r.front.active
    let after := (combo mask key r).2.front.active
    after ∩ (mask ∩ .chord) = ∅ ∧
      ∀ i, after.bit i = true ∧ before.bit i = false ↔
        held.1 = true ∧ pressed.1 = false ∧ key ∈ Key.sides i ∧ mask.bit i = false ∧
          before.bit i = false := by
  intro held pressed before after
  have hafter : after =
      (if held.1 then if pressed.1 then before \ key.modifierBit else before ∪ key.modifierBit
      else before) \ (mask ∩ .chord) := active_combo mask key r
  constructor
  · apply Modifier.ext_bit
    intro i _
    rw [hafter, Modifier.bit_inter, Modifier.bit_sdiff, Modifier.bit_empty]
    cases (mask ∩ .chord).bit i <;> simp
  · intro i
    -- the bits of a key are all chord modifiers
    have hchord : key ∈ Key.sides i → Modifier.chord.bit i = true := by
      intro hside
      rw [Modifier.bit_chord, decide_eq_true_eq]
      exact Key.lt_of_mem_sides hside
    clear_value before
    rw [hafter, Modifier.bit_sdiff, Modifier.bit_inter]
    cases held.1 with
    | false => simp +contextual
    | true =>
      cases pressed.1 with
      | true => simp +contextual
      | false =>
        simp only [if_true, Bool.false_eq_true, if_false, Modifier.bit_union, Key.bit_modifierBit]
        by_cases hside : key ∈ Key.sides i
        · simp [hside, hchord hside]
        · simp +contextual [hside]

/-- Shift has no code, so its tap fails, and it stays on the account though nothing holds it. -/
theorem modifier_left_behind :
    let r : Rig (Sender Recorder) :=
      ⟨{ driver := { Recorder.new with unmapped := [.shiftLeft] } }, {}⟩
    let after := (combo .ctrl .shiftLeft r).2.front
    r.front.active = ∅ ∧ after.active = .shift ∧
      after.driver.record = [.key .ctrlLeft true, .delay, .delay, .key .ctrlLeft false] := by
  decide +kernel

/-! ## Releasing all modifiers -/

/-- The transitions of keys that an operation is made of, if all of them succeed. -/
def Operation.moves : Operation → List (Key × Bool)
  | .keyDown key => [(key, true)]
  | .keyUp key => [(key, false)]
  | .tap key => [(key, true), (key, false)]
  | .hold mask => mask.leftKeys.map fun key => (key, true)
  | .release mask => mask.leftKeys.map fun key => (key, false)
  | .releaseAll => Modifier.chord.leftKeys.map fun key => (key, false)
  | .combo mask key =>
    (mask.leftKeys.map fun key => (key, true)) ++ [(key, true), (key, false)] ++
      mask.leftKeys.map fun key => (key, false)
  | .typeText _ | .typeUtf32 _ | .typeChar _ | .flush | .requestPermissions | .setKeyDelay _ => []

open Logged (sent)

/-- The operation is asked for the key itself and ends with its release. -/
def Operation.Releases (op : Operation) (key : Key) : Prop :=
  op = .keyUp key ∨ op = .tap key ∨ ∃ mask, op = .combo mask key

/-- All transitions of keys that were asked for succeeded. -/
def AllSent (log : List (Scripted.Call × Bool)) : Prop :=
  ∀ entry ∈ log, entry.1.kind = .sendKey → entry.2 = true

instance : DecidablePred AllSent := fun log =>
  inferInstanceAs (Decidable (∀ entry ∈ log, entry.1.kind = .sendKey → entry.2 = true))

theorem allSent_append {log log' : List (Scripted.Call × Bool)} :
    AllSent (log ++ log') ↔ AllSent log ∧ AllSent log' :=
  List.forall_mem_append

/-- If all transitions of keys that are noted succeeded, they are the given ones, and the result is
that of success. -/
def Carries (moves : List (Key × Bool)) (noted : List (Scripted.Call × Bool))
    (done : Bool) : Prop :=
  AllSent noted → done = true ∧ sent noted = moves

theorem carries_nil : Carries [] [] true := fun _ => ⟨rfl, rfl⟩

theorem Carries.append {moves moves' : List (Key × Bool)}
    {noted noted' : List (Scripted.Call × Bool)} {done done' : Bool}
    (h : Carries moves noted done) (h' : Carries moves' noted' done') :
    Carries (moves ++ moves') (noted ++ noted') (done && done') := by
  intro hall
  rw [allSent_append] at hall
  obtain ⟨rfl, hsent⟩ := h hall.1
  obtain ⟨rfl, hsent'⟩ := h' hall.2
  exact ⟨rfl, by rw [Logged.sent_append, hsent, hsent']⟩

theorem carries_sendKey (key : Key) (down done : Bool) :
    Carries [(key, down)] [(.sendKey key down, done)] done := by
  intro hall
  obtain rfl : done = true := hall _ List.mem_cons_self rfl
  exact ⟨rfl, rfl⟩

variable {α β : Type}

/-- Over a driver with a log, what the action notes and its result belong together. -/
def Notes (act : StateM (Rig (Sender (Logged δ))) α)
    (post : List (Scripted.Call × Bool) → α → Prop) : Prop :=
  ∀ r, ∃ noted, (act r).2.front.driver.log = r.front.driver.log ++ noted ∧ post noted (act r).1

omit [KeyboardDriver δ] in
theorem Notes.pure {post : List (Scripted.Call × Bool) → α → Prop} {a : α} (h : post [] a) :
    Notes (δ := δ) (pure a) post :=
  fun _ => ⟨[], (List.append_nil _).symm, h⟩

omit [KeyboardDriver δ] in
theorem Notes.bind {act : StateM (Rig (Sender (Logged δ))) α}
    {post : List (Scripted.Call × Bool) → α → Prop}
    {next : α → StateM (Rig (Sender (Logged δ))) β} {post' : List (Scripted.Call × Bool) → β → Prop}
    (h : Notes act post)
    (h' : ∀ noted a, post noted a → Notes (next a) fun later b => post' (noted ++ later) b) :
    Notes (act >>= next) post' := by
  intro r
  obtain ⟨noted, hlog, hpost⟩ := h r
  obtain ⟨later, hlog', hpost'⟩ := h' noted _ hpost (act r).2
  exact ⟨noted ++ later, by rw [← List.append_assoc, ← hlog]; exact hlog', hpost'⟩

omit [KeyboardDriver δ] in
theorem Notes.imp {act : StateM (Rig (Sender (Logged δ))) α}
    {post post' : List (Scripted.Call × Bool) → α → Prop} (h : Notes act post)
    (himp : ∀ noted a, post noted a → post' noted a) : Notes act post' := by
  intro r
  obtain ⟨noted, hlog, hpost⟩ := h r
  exact ⟨noted, hlog, himp noted _ hpost⟩

theorem notes_keyDown (key : Key) : Notes (δ := δ) (keyDown key) (Carries [(key, true)]) :=
  fun _ => ⟨[(.sendKey key true, _)], rfl, carries_sendKey key true _⟩

theorem notes_keyUp (key : Key) : Notes (δ := δ) (keyUp key) (Carries [(key, false)]) :=
  fun _ => ⟨[(.sendKey key false, _)], rfl, carries_sendKey key false _⟩

theorem notes_delay : Notes (δ := δ) (drive KeyboardDriver.delay) fun noted _ =>
    Carries [] noted true :=
  fun _ => ⟨[(.delay, true)], rfl, fun _ => ⟨rfl, rfl⟩⟩

/-- A press that failed ends the tap, but then not all that is noted succeeded. -/
theorem notes_tap (key : Key) :
    Notes (δ := δ) (tap key) (Carries [(key, true), (key, false)]) := by
  refine (notes_keyDown key).bind fun press down hpress => ?_
  cases down with
  | false => exact .pure fun hall => absurd (hpress (allSent_append.1 hall).1).1 Bool.false_ne_true
  | true =>
    refine notes_delay.bind fun pause _ hpause => ?_
    exact (notes_keyUp key).imp fun _ _ hrelease => hpress.append (hpause.append hrelease)

omit [KeyboardDriver δ] in
/-- What asks for a transition of a key asks for one of each of several keys. -/
theorem notes_forKeys {act : Key → StateM (Rig (Sender (Logged δ))) Bool} {down : Bool}
    (h : ∀ key, Notes (act key) (Carries [(key, down)])) (keys : List Key) :
    Notes (forKeys act keys) (Carries (keys.map fun key => (key, down))) := by
  induction keys with
  | nil => exact .pure carries_nil
  | cons key keys ih =>
    refine (h key).bind fun noted done hnoted => ih.bind fun later others hlater => .pure ?_
    rw [List.append_nil]
    exact hnoted.append hlater

theorem notes_hold (mask : Modifier) :
    Notes (δ := δ) (hold mask) (Carries (mask.leftKeys.map fun key => (key, true))) := by
  rw [hold_eq]
  exact notes_forKeys notes_keyDown mask.leftKeys

theorem notes_release (mask : Modifier) :
    Notes (δ := δ) (release mask) (Carries (mask.leftKeys.map fun key => (key, false))) := by
  rw [release_eq]
  exact notes_forKeys notes_keyUp mask.leftKeys

theorem notes_combo (mask : Modifier) (key : Key) :
    Notes (δ := δ) (combo mask key) (Carries (Operation.combo mask key).moves) := by
  refine (notes_hold mask).bind fun holds held hholds => ?_
  cases held with
  | false =>
    refine (notes_release mask).bind fun releases _ _ => .pure fun hall => ?_
    exact absurd (hholds (allSent_append.1 hall).1).1 Bool.false_ne_true
  | true =>
    refine notes_delay.bind fun pause _ hpause => ?_
    refine (notes_tap key).bind fun taps tapped htaps => ?_
    refine notes_delay.bind fun pause' _ hpause' => ?_
    refine (notes_release mask).bind fun releases released hreleases => .pure fun hall => ?_
    -- whether the releases succeed is not part of the result
    have hcarries := hholds.append
      (hpause.append (htaps.append (hpause'.append (hreleases.append carries_nil))))
    obtain ⟨hdone, hsent⟩ := hcarries hall
    refine ⟨?_, ?_⟩
    · simp only [Bool.and_eq_true] at hdone
      exact hdone.2.2.1
    · rw [hsent]
      simp [Operation.moves]

/-- If all transitions that an operation asks for succeed, they are those that it is made of. -/
theorem notes_perform (op : Operation) : Notes (δ := δ) (perform op) fun noted _ =>
    AllSent noted → sent noted = op.moves := by
  have hquiet : ∀ {act : StateM (Rig (Sender (Logged δ))) Bool},
      (∀ r, ∃ noted, (act r).2.front.driver.log = r.front.driver.log ++ noted ∧ sent noted = []) →
      Notes act fun noted _ => AllSent noted → sent noted = [] := by
    intro act h r
    obtain ⟨noted, hlog, hsent⟩ := h r
    exact ⟨noted, hlog, fun _ => hsent⟩
  cases op with
  | keyDown key => exact (notes_keyDown key).imp fun _ _ h hall => (h hall).2
  | keyUp key => exact (notes_keyUp key).imp fun _ _ h hall => (h hall).2
  | tap key => exact (notes_tap key).imp fun _ _ h hall => (h hall).2
  | hold mask => exact (notes_hold mask).imp fun _ _ h hall => (h hall).2
  | release mask => exact (notes_release mask).imp fun _ _ h hall => (h hall).2
  | releaseAll => exact (notes_release .chord).imp fun _ _ h hall => (h hall).2
  | combo mask key => exact (notes_combo mask key).imp fun _ _ h hall => (h hall).2
  | typeText s => exact hquiet fun _ => ⟨[(.typeText s, _)], rfl, rfl⟩
  | typeUtf32 values =>
    change Notes (typeUtf32 values) _
    unfold typeUtf32
    cases charsOf values with
    | ok cs => exact hquiet fun _ => ⟨[(.typeText (String.ofList cs), _)], rfl, rfl⟩
    | error value => exact hquiet fun _ => ⟨[], (List.append_nil _).symm, rfl⟩
  | typeChar value =>
    change Notes (typeChar value) _
    unfold typeChar
    cases charOf? value with
    | some c => exact hquiet fun _ => ⟨[(.typeChar c, _)], rfl, rfl⟩
    | none => exact hquiet fun _ => ⟨[], (List.append_nil _).symm, rfl⟩
  | flush =>
    refine hquiet fun r => ?_
    change ∃ noted, (flush r).2.front.driver.log = _ ∧ _
    rw [flush_eq]
    split
    next => exact ⟨[(.flush, _)], rfl, rfl⟩
    next => exact ⟨[], (List.append_nil _).symm, rfl⟩
  | requestPermissions => exact hquiet fun _ => ⟨[], rfl, rfl⟩
  | setKeyDelay micros => exact hquiet fun _ => ⟨[], (List.append_nil _).symm, rfl⟩

/-- If all transitions of a run succeeded, they are those of its operations in order. -/
theorem notes_performAll (ops : List Operation) : Notes (δ := δ) (performAll ops) fun noted _ =>
    AllSent noted → sent noted = ops.flatMap (·.moves) := by
  induction ops with
  | nil => exact .pure fun _ => rfl
  | cons op ops ih =>
    refine (notes_perform op).bind fun noted _ hnoted => ih.bind fun later _ hlater => .pure ?_
    intro hall
    rw [List.append_nil, allSent_append] at hall
    rw [List.append_nil, Logged.sent_append, hnoted hall.1, hlater hall.2, List.flatMap_cons]

/-- The same transition of several keys decides for these and for no other. -/
theorem isDownAfter_append_map (key : Key) (moves : List (Key × Bool)) (keys : List Key)
    (down : Bool) :
    key.isDownAfter (moves ++ keys.map fun key => (key, down)) =
      if key ∈ keys then down else key.isDownAfter moves := by
  induction keys generalizing moves with
  | nil => simp
  | cons other keys ih =>
    rw [List.map_cons, List.append_cons, ih, Key.isDownAfter_concat]
    by_cases hmem : key ∈ keys <;> by_cases heq : other = key <;> grind

theorem notMem_leftKeys {key : Key} (hright : key ∈ Key.rightSide) (mask : Modifier) :
    key ∉ mask.leftKeys := by
  simp only [Key.rightSide, List.mem_cons, List.not_mem_nil, or_false] at hright
  unfold Modifier.leftKeys
  rcases hright with rfl | rfl | rfl | rfl <;> simp

/-- A right key is down after an operation if the operation leaves it down, or leaves it alone and
it was down before. -/
theorem Operation.isDownAfter_moves {key : Key} (hright : key ∈ Key.rightSide)
    (earlier : List (Key × Bool)) (op : Operation) :
    key.isDownAfter (earlier ++ op.moves) = true ↔
      op = .keyDown key ∨ ¬ op.Releases key ∧ key.isDownAfter earlier = true := by
  have hkeys : ∀ (mask : Modifier) (earlier : List (Key × Bool)) (down : Bool),
      key.isDownAfter (earlier ++ mask.leftKeys.map fun key => (key, down)) =
        key.isDownAfter earlier := by
    intro mask earlier down
    rw [isDownAfter_append_map, if_neg (notMem_leftKeys hright mask)]
  unfold Releases
  cases op with
  | keyDown other =>
    rw [Operation.moves, Key.isDownAfter_concat]
    by_cases heq : other = key <;> simp [heq]
  | keyUp other =>
    rw [Operation.moves, Key.isDownAfter_concat]
    by_cases heq : other = key <;> simp [heq]
  | tap other =>
    rw [Operation.moves, List.append_cons, Key.isDownAfter_concat, Key.isDownAfter_concat]
    by_cases heq : other = key <;> simp [heq]
  | combo mask other =>
    rw [Operation.moves, ← List.append_assoc, hkeys, ← List.append_assoc, List.append_cons,
      Key.isDownAfter_concat, Key.isDownAfter_concat, hkeys]
    by_cases heq : other = key <;> simp [heq]
  | hold mask | release mask | releaseAll =>
    rw [Operation.moves, hkeys]
    simp
  | typeText | typeUtf32 | typeChar | flush | requestPermissions | setKeyDelay =>
    rw [Operation.moves, List.append_nil]
    simp

/-- A right key is down after several operations if one of them pressed it and none after that
released it. -/
theorem Operation.isDownAfter_flatMap_moves {key : Key} (hright : key ∈ Key.rightSide)
    (ops : List Operation) :
    key.isDownAfter (ops.flatMap (·.moves)) = true ↔
      ∃ before after, ops = before ++ .keyDown key :: after ∧
        ∀ op ∈ after, ¬ op.Releases key := by
  induction ops using List.reverseRecOn with
  | nil => simp [Key.isDownAfter]
  | append_singleton ops op ih =>
    rw [List.flatMap_append, List.flatMap_singleton, isDownAfter_moves hright, ih]
    constructor
    · rintro (rfl | ⟨hop, before, after, rfl, hafter⟩)
      · exact ⟨ops, [], rfl, fun _ hmem => absurd hmem List.not_mem_nil⟩
      · refine ⟨before, after ++ [op], by simp, fun later hmem => ?_⟩
        rcases List.mem_append.1 hmem with hmem | hmem
        · exact hafter later hmem
        · rw [List.mem_singleton.1 hmem]
          exact hop
    · rintro ⟨before, after, hops, hafter⟩
      rcases List.eq_nil_or_concat after with rfl | ⟨after, last, rfl⟩
      · exact .inl (List.singleton_inj.1 (List.append_inj_right' hops rfl))
      · -- the last operation is one of those after the press
        rw [List.concat_eq_append, ← List.cons_append, ← List.append_assoc] at hops
        obtain ⟨rfl, hlast⟩ := List.append_inj' hops rfl
        obtain rfl := List.singleton_inj.1 hlast
        rw [List.concat_eq_append, List.forall_mem_append, List.forall_mem_singleton] at hafter
        exact .inr ⟨hafter.2, before, after, rfl, hafter.1⟩

/-- **What is left down**: a sender over any driver is asked for anything, and to release all
modifiers in the end. If all transitions of keys that it asks for succeed, they are those of the
operations one after the other. None of the left keys of the chord modifiers is down in the end. A
right key of theirs is not released at the end, whatever the account says: it is down exactly if
there was a `keyDown` of it that no operation with a release of it came after. -/
theorem releaseAll_releases (d : δ) (h : Host) (ops : List Operation) :
    let start : Rig (Sender (Logged δ)) := ⟨{ driver := { inner := d } }, h⟩
    let run := performAll (ops ++ [.releaseAll]) start
    let log := run.2.front.driver.log
    performAll (ops ++ [.releaseAll]) ⟨{ driver := d }, h⟩ = (run.1, erase run.2) ∧
      (AllSent log →
        sent log = ops.flatMap (·.moves) ++ Operation.releaseAll.moves ∧
        (∀ key ∈ Modifier.chord.leftKeys, key.isDownAfter (sent log) = false) ∧
        ∀ key ∈ Key.rightSide, key.isDownAfter (sent log) = true ↔
          ∃ before after, ops = before ++ .keyDown key :: after ∧
            ∀ op ∈ after, ¬ op.Releases key) := by
  intro start run log
  refine ⟨erase_performAll _ start, fun hall => ?_⟩
  obtain ⟨noted, hlog, hnoted⟩ := notes_performAll (ops ++ [.releaseAll]) start
  obtain rfl : log = noted := hlog
  have hsent : sent log = ops.flatMap (·.moves) ++ Operation.releaseAll.moves := by
    rw [hnoted hall, List.flatMap_append, List.flatMap_singleton]
  have hend : ∀ key : Key, key.isDownAfter (sent log) =
      if key ∈ Modifier.chord.leftKeys then false else key.isDownAfter (ops.flatMap (·.moves)) := by
    intro key
    rw [hsent]
    exact isDownAfter_append_map key _ _ false
  refine ⟨hsent, fun key hleft => ?_, fun key hright => ?_⟩
  · rw [hend, if_pos hleft]
  · rw [hend, if_neg (notMem_leftKeys hright .chord)]
    exact Operation.isDownAfter_flatMap_moves hright ops

/-- Both Shift keys are pressed. The right one stays down, though the account holds nothing. -/
theorem releaseAll_releases_left :
    let start : Rig (Sender (Logged Recorder)) := ⟨{ driver := { inner := Recorder.new } }, {}⟩
    let log := (performAll [.keyDown .shiftRight, .hold .shift, .tap .ctrlRight, .releaseAll]
      start).2.front.driver.log
    AllSent log ∧ Key.isDownAfter .shiftLeft (sent log) = false ∧
      Key.isDownAfter .shiftRight (sent log) = true := by
  dsimp only
  obtain ⟨-, hsent⟩ := releaseAll_releases Recorder.new {}
    [.keyDown .shiftRight, .hold .shift, .tap .ctrlRight]
  simp only [List.cons_append, List.nil_append] at hsent
  obtain ⟨-, hleft, hright⟩ := hsent (by decide +kernel)
  refine ⟨by decide +kernel, hleft .shiftLeft (by decide +kernel), ?_⟩
  refine (hright .shiftRight (by decide)).2 ⟨[], [.hold .shift, .tap .ctrlRight], rfl, ?_⟩
  simp [Operation.Releases]

/-- The right Shift key is down when all modifiers were released: its last transition is the press,
and nothing failed. -/
theorem right_key_left_down :
    let start : Rig (Sender (Logged Recorder)) := ⟨{ driver := { inner := Recorder.new } }, {}⟩
    let final := (performAll [.keyDown .shiftRight, .releaseAll] start).2.front
    start.front.isReady = true ∧ AllSent final.driver.log ∧
      sent final.driver.log =
        [(.shiftRight, true), (.shiftLeft, false), (.ctrlLeft, false), (.altLeft, false),
         (.superLeft, false)] ∧
      Key.isDownAfter .shiftRight (sent final.driver.log) = true ∧ final.active = ∅ := by
  decide +kernel

end Sender

end Keystroke
