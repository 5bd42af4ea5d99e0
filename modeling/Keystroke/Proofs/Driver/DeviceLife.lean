import Keystroke.Proofs.Driver.Readiness
import Keystroke.Proofs.Driver.Requests

/-!
# The life of a virtual device

A driver that was opened owns the device that was created for it. A program may move the driver from
place to place, leave an empty one behind, put another in its place or give it up; so the device has
at most one owner at any time, and what happens to it can be read off the places alone. `Places` are
the places of a program at which senders can be, together with the machine.

## Main statements

- `UinputDriver.keeps_since`: a request writes to the device if there is one, and else only waits.
- `Places.step_cases`: every step either works for the owners that there are, or destroys the device
  together with one of them.
- `Places.device_life`: the device is created at most once, and destroyed once if it was created.
-/

namespace Keystroke

/-! ## Entries of the journal -/

/-- Nothing but time has passed. -/
def Quiet (log : List Entry) : Prop := ∀ entry ∈ log, ∃ micros, entry = .slept micros

/-- The device was written to, and time has passed. -/
def Busy (log : List Entry) : Prop :=
  ∀ entry ∈ log, (∃ micros, entry = .slept micros) ∨ ∃ batch, entry = .wrote batch

theorem Quiet.nil : Quiet [] := List.forall_mem_nil _

theorem Quiet.append {log log' : List Entry} (h : Quiet log) (h' : Quiet log') :
    Quiet (log ++ log') :=
  List.forall_mem_append.2 ⟨h, h'⟩

theorem Quiet.busy {log : List Entry} (h : Quiet log) : Busy log :=
  fun entry hentry => .inl (h entry hentry)

theorem Busy.append {log log' : List Entry} (h : Busy log) (h' : Busy log') : Busy (log ++ log') :=
  List.forall_mem_append.2 ⟨h, h'⟩

/-! ## Requests -/

namespace UinputDriver

/-- What is known of a driver and the machine since an earlier state: the driver has its device if it
had it then, and was written to only if it has one. -/
structure Since (r₀ r : Rig UinputDriver) : Prop where
  device : r.front.device = r₀.front.device
  journal : ∃ log, r.host.journal = r₀.host.journal ++ log ∧ Busy log ∧
    (r₀.front.device = false → Quiet log)

theorem Since.refl (r : Rig UinputDriver) : Since r r :=
  ⟨rfl, [], (List.append_nil _).symm, Quiet.nil.busy, fun _ => Quiet.nil⟩

variable {r₀ r : Rig UinputDriver}

/-- Something was noted in the journal by a driver that stays as it is. -/
theorem Since.note (h : Since r₀ r) {r' : Rig UinputDriver} {log : List Entry}
    (hdevice : r'.front.device = r.front.device) (hlog : r'.host.journal = r.host.journal ++ log)
    (hbusy : Busy log) (hquiet : r.front.device = false → Quiet log) : Since r₀ r' := by
  obtain ⟨hsame, before, hbefore, hbusy', hquiet'⟩ := h
  refine ⟨hdevice.trans hsame, before ++ log, ?_, hbusy'.append hbusy, fun hnone => ?_⟩
  · rw [hlog, hbefore, List.append_assoc]
  · exact (hquiet' hnone).append (hquiet (hsame.trans hnone))

theorem Since.emit (h : Since r₀ r) (hdevice : r.front.device = true) (batch : List InputEvent) :
    Since r₀ (emit batch r).2 := by
  have hnone : ∀ {log : List Entry}, r.front.device = false → Quiet log := by
    intro log hfalse
    rw [hdevice] at hfalse
    cases hfalse
  simp only [UinputDriver.emit, bind, StateT.bind, Rig.atHost, Host.write]
  cases r.host.uinput.fault r.host.uinput.writes with
  | some e => exact h.note rfl (List.append_nil _).symm Quiet.nil.busy hnone
  | none =>
    have hbusy : Busy [.wrote batch] :=
      fun entry hentry => .inr ⟨batch, List.mem_singleton.1 hentry⟩
    exact h.note rfl rfl hbusy hnone

theorem since_sendKey (key : Key) (down : Bool) : Keeps (Since r₀) (sendKey key down) := by
  intro r h
  simp only [sendKey, bind, StateT.bind, get, getThe, MonadStateOf.get, StateT.get, pure]
  cases hdevice : r.front.device with
  | false => exact h
  | true =>
    cases r.front.codes.lookup key with
    | none => exact h
    | some code => exact h.emit hdevice _

theorem since_flush : Keeps (Since r₀) (KeyboardDriver.flush (δ := UinputDriver)) := by
  intro r h
  change Since r₀ ((if r.front.device = true then emit [] else pure (.ok ())) r).2
  split
  next hdevice => exact h.emit hdevice []
  next => exact h

theorem since_delay : Keeps (Since r₀) (KeyboardDriver.delay (δ := UinputDriver)) := by
  intro r h
  have hquiet : Quiet (r.front.keyDelay.sleeps.map .slept) := by
    intro entry hentry
    obtain ⟨micros, -, rfl⟩ := List.mem_map.1 hentry
    exact ⟨micros, rfl⟩
  exact h.note rfl rfl hquiet.busy fun _ => hquiet

/-- A request writes to the device if there is one, and else only waits. -/
theorem keeps_since (request : Request) : Keeps (Since r₀) (request.run (δ := UinputDriver)) := by
  by_cases hrequest : request = .requestPermissions
  · subst hrequest
    exact fun _ h => h
  · exact Request.keeps_run since_sendKey (fun _ => Keeps.pure _) (fun _ => Keeps.pure _)
      since_flush since_delay (fun _ _ h => ⟨h.device, h.journal⟩) hrequest

end UinputDriver

/-! ## Places -/

/-- The places at which senders can be, and the machine. -/
structure Places where
  senders : List (Option (Sender UinputDriver)) := []
  host : Host := {}

namespace Places

inductive Step where
  | operate (k : Nat) (op : Sender.Operation)
  /-- The driver of the sender is asked for something. -/
  | request (k : Nat) (request : Request)
  /-- One more place, with an empty sender. -/
  | released
  /-- What is at the place is taken away and gets a place of its own. -/
  | take (k : Nat)
  /-- What is at the place `j` is put to the place `k`, and what was there is given up. -/
  | restore (k j : Nat)
  | drop (k : Nat)
  /-- The machine refuses other writes from now on. -/
  | change (port : UinputPort)

/-- The sender at a place, if there is one. -/
def at? (w : Places) (k : Nat) : Option (Sender UinputDriver) := w.senders[k]?.join

/-- Whether the sender at a place has a device. -/
def owns (w : Places) (k : Nat) : Bool := (w.at? k).any (·.isReady)

/-- The number of senders that have a device. -/
def owners (w : Places) : Nat := w.senders.countP fun place => place.any (·.isReady)

/-- Lets the sender at a place do something. -/
def act {α : Type} (w : Places) (k : Nat) (action : StateM (Rig (Sender UinputDriver)) α) :
    Places :=
  match w.at? k with
  | some s =>
    let r := (action ⟨s, w.host⟩).2
    { senders := w.senders.set k (some r.front), host := r.host }
  | none => w

def step (w : Places) : Step → Places
  | .operate k op => w.act k (Sender.perform op)
  | .request k request => w.act k (Sender.drive request.run)
  | .released => { w with senders := w.senders ++ [some .released] }
  | .take k =>
    match w.at? k with
    | some s =>
      let (taken, r) := Sender.take ⟨s, w.host⟩
      { senders := w.senders.set k (some r.front) ++ [some taken], host := r.host }
    | none => w
  | .restore k j =>
    match w.at? k, w.at? j with
    | some s, some s' =>
      -- nothing can be put to where it is
      if k = j then w
      else
        let r := (Sender.restore s' ⟨s, w.host⟩).2
        { senders := (w.senders.set j none).set k (some r.front), host := r.host }
    | _, _ => w
  | .drop k =>
    match w.at? k with
    | some s => { senders := w.senders.set k none, host := s.close w.host }
    | none => w
  | .change port => { w with host := { w.host with uinput := port } }

def run (w : Places) : List Step → Places
  | [] => w
  | step :: steps => (w.step step).run steps

/-- Gives up what is left. -/
def dropAll (w : Places) : Places := w.run ((List.range w.senders.length).map .drop)

/-- The place that a step is about. -/
def Step.place? : Step → Option Nat
  | operate k _ | request k _ | take k | restore k _ | drop k => some k
  | released | change _ => none

/-! ## What a step does -/

theorem countP_set_add {α : Type} (p : α → Bool) {l : List α} {k : Nat} {a : α}
    (h : l[k]? = some a) (a' : α) :
    (l.set k a').countP p + (p a).toNat = l.countP p + (p a').toNat := by
  induction l generalizing k with
  | nil => cases h
  | cons b l ih =>
    cases k with
    | zero =>
      obtain rfl : b = a := by simpa using h
      simp only [List.set_cons_zero, List.countP_cons]
      cases p b <;> cases p a' <;> simp
    | succ k =>
      have ih := ih (k := k) (by simpa using h)
      simp only [List.set_cons_succ, List.countP_cons]
      omega

/-- The owners are the same, and unless there are any nothing was written. -/
structure Works (w w' : Places) : Prop where
  owners : w'.owners = w.owners
  journal : ∃ log, w'.host.journal = w.host.journal ++ log ∧ Busy log ∧ (w.owners = 0 → Quiet log)

/-- An owner was given up, and the device with it. -/
structure GivesUp (w w' : Places) : Prop where
  owners : w.owners = w'.owners + 1
  journal : w'.host.journal = w.host.journal ++ [.destroyed]

variable {w w' : Places} {k j : Nat} {s s' : Sender UinputDriver}

theorem Works.of_journal_eq (howners : w'.owners = w.owners)
    (hjournal : w'.host.journal = w.host.journal) : Works w w' :=
  ⟨howners, [], by rw [hjournal, List.append_nil], Quiet.nil.busy, fun _ => Quiet.nil⟩

theorem getElem?_of_at? (h : w.at? k = some s) : w.senders[k]? = some (some s) :=
  Option.join_eq_some_iff.1 h

theorem lt_of_at? (h : w.at? k = some s) : k < w.senders.length :=
  (List.getElem?_eq_some_iff.1 (getElem?_of_at? h)).1

theorem step_take (h : w.at? k = some s) : w.step (.take k) =
    { senders := w.senders.set k (some .released) ++ [some s], host := w.host } := by
  simp only [Places.step, h]
  rfl

theorem step_take_of_none (h : w.at? k = none) : w.step (.take k) = w := by
  simp only [Places.step, h]

theorem step_drop (h : w.at? k = some s) : w.step (.drop k) =
    { senders := w.senders.set k none, host := s.close w.host } := by
  simp only [Places.step, h]

theorem step_drop_of_none (h : w.at? k = none) : w.step (.drop k) = w := by
  simp only [Places.step, h]

theorem at?_set (place : Option (Sender UinputDriver)) (host : Host) (hk : k < w.senders.length) :
    ({ senders := w.senders.set k place, host } : Places).at? j =
      if k = j then place else w.at? j := by
  unfold at?
  rw [List.getElem?_set, if_pos hk]
  split <;> rfl

/-- How the number of owners changes with what is at a place. -/
theorem owners_set (h : w.at? k = some s) (place : Option (Sender UinputDriver)) (host : Host) :
    ({ senders := w.senders.set k place, host } : Places).owners + s.isReady.toNat =
      w.owners + (place.any (·.isReady)).toNat :=
  countP_set_add _ (getElem?_of_at? h) place

theorem not_isReady_of_owners (h : w.at? k = some s) (hnone : w.owners = 0) :
    s.isReady = false := by
  have hmem := List.mem_of_getElem? (getElem?_of_at? h)
  have hnot := List.countP_eq_zero.1 hnone (some s) hmem
  exact Bool.eq_false_iff.2 hnot

/-- What a sender does has to do with the device of its own driver only. -/
def Private {α : Type} (action : StateM (Rig (Sender UinputDriver)) α) : Prop :=
  ∀ r₀, Keeps (fun r => UinputDriver.Since r₀ r.inner) action

theorem private_perform (op : Sender.Operation) : Private (Sender.perform op) := by
  intro r₀
  apply Sender.keeps_perform_of_requests
  · exact fun request _ => UinputDriver.keeps_since request
  · exact fun message _ => Keeps.modify fun _ h => ⟨h.device, h.journal⟩

theorem private_request (request : Request) : Private (Sender.drive request.run) :=
  fun _ r h => UinputDriver.keeps_since request r.inner h

theorem works_act {α : Type} {action : StateM (Rig (Sender UinputDriver)) α}
    (haction : Private action) (w : Places) (k : Nat) : Works w (w.act k action) := by
  unfold act
  cases hk : w.at? k with
  | none => exact .of_journal_eq rfl rfl
  | some s =>
    obtain ⟨hdevice, log, hlog, hbusy, hquiet⟩ := haction _ ⟨s, w.host⟩ (.refl _)
    have hready : (action ⟨s, w.host⟩).2.front.isReady = s.isReady := hdevice
    constructor
    case owners =>
      have hset := owners_set hk (some (action ⟨s, w.host⟩).2.front) (action ⟨s, w.host⟩).2.host
      simp only [Option.any_some, hready] at hset
      exact Nat.add_right_cancel hset
    case journal =>
      exact ⟨log, hlog, hbusy, fun hnone => hquiet (not_isReady_of_owners hk hnone)⟩

theorem journal_close (s : Sender UinputDriver) (h : Host) :
    (s.close h).journal = h.journal ++ if s.isReady then [.destroyed] else [] := by
  change (if s.driver.device = true then h.record .destroyed else h).journal =
    h.journal ++ if s.driver.device = true then [.destroyed] else []
  split
  · rfl
  · exact (List.append_nil _).symm

/-- To give a sender up is to give up an owner if the sender is one. -/
theorem works_or_givesUp (howners : w'.owners + s.isReady.toNat = w.owners)
    (hjournal : w'.host.journal = (s.close w.host).journal) : Works w w' ∨ GivesUp w w' := by
  rw [journal_close] at hjournal
  cases hs : s.isReady with
  | false =>
    rw [hs] at howners hjournal
    exact .inl (.of_journal_eq howners (hjournal.trans (List.append_nil _)))
  | true =>
    rw [hs] at howners hjournal
    exact .inr ⟨howners.symm, hjournal⟩

/-- Every step either works for the owners that there are, or gives up one of them. -/
theorem step_cases (w : Places) (step : Step) : Works w (w.step step) ∨ GivesUp w (w.step step) := by
  cases step with
  | operate k op => exact .inl (works_act (private_perform op) w k)
  | request k request => exact .inl (works_act (private_request request) w k)
  | released =>
    refine .inl (.of_journal_eq ?_ rfl)
    exact List.countP_append.trans (Nat.add_zero _)
  | take k =>
    cases hk : w.at? k with
    | none =>
      rw [step_take_of_none hk]
      exact .inl (.of_journal_eq rfl rfl)
    | some s =>
      rw [step_take hk]
      refine .inl (.of_journal_eq ?_ rfl)
      -- the one that is left behind has no device, and the one that is taken away keeps it
      have hset := owners_set hk (some .released) w.host
      have hlast : ({ senders := [some s], host := w.host } : Places).owners = s.isReady.toNat := by
        cases hs : s.isReady <;> simp [owners, hs]
      exact List.countP_append.trans ((congrArg _ hlast).trans (hset.trans (Nat.add_zero _)))
  | restore k j =>
    simp only [Places.step]
    split
    next s s' hk hj =>
      split
      next => exact .inl (.of_journal_eq rfl rfl)
      next hne =>
        apply works_or_givesUp (s := s) ?_ rfl
        have hmoved := owners_set hj none w.host
        have hk' : ({ senders := w.senders.set j none, host := w.host } : Places).at? k = some s := by
          rw [at?_set none w.host (lt_of_at? hj), if_neg (Ne.symm hne), hk]
        have hput := owners_set hk' (some s') w.host
        simp only [Option.any_none, Option.any_some, Bool.toNat_false, Nat.add_zero] at hmoved hput
        exact hput.trans hmoved
    next => exact .inl (.of_journal_eq rfl rfl)
  | drop k =>
    cases hk : w.at? k with
    | none =>
      rw [step_drop_of_none hk]
      exact .inl (.of_journal_eq rfl rfl)
    | some s =>
      rw [step_drop hk]
      exact works_or_givesUp (owners_set hk none _) rfl
  | change port => exact .inl (.of_journal_eq rfl rfl)

/-! ## Places without a device -/

theorem owns_of_at? (h : w.at? k = some s) : w.owns k = s.isReady := by
  rw [owns, h]
  rfl

theorem owns_set (place : Option (Sender UinputDriver)) (host : Host) (hk : k < w.senders.length) :
    ({ senders := w.senders.set k place, host } : Places).owns j =
      if k = j then place.any (·.isReady) else w.owns j := by
  unfold owns
  rw [at?_set place host hk]
  split <;> rfl

theorem owns_append (place : Option (Sender UinputDriver)) (host : Host) :
    ({ senders := w.senders ++ [place], host } : Places).owns j =
      if j = w.senders.length then place.any (·.isReady) else w.owns j := by
  unfold owns at?
  rcases Nat.lt_trichotomy j w.senders.length with hlt | rfl | hgt
  · rw [List.getElem?_append_left hlt, if_neg (Nat.ne_of_lt hlt)]
  · rw [List.getElem?_concat_length, if_pos rfl]
    rfl
  · have hnone : w.senders[j]? = none := List.getElem?_eq_none (Nat.le_of_lt hgt)
    have hnone' : (w.senders ++ [place])[j]? = none :=
      List.getElem?_eq_none (by rw [List.length_append]; exact hgt)
    rw [hnone, hnone', if_neg (Nat.ne_of_gt hgt)]

theorem owns_of_none (h : w.at? k = none) : w.owns k = false := by
  rw [owns, h]
  rfl

/-- How places come to own after a sender was taken away. -/
theorem owns_step_take (hk : w.at? k = some s) (hlt : j < w.senders.length) :
    (w.step (.take k)).owns j = if k = j then false else w.owns j := by
  have hne : j ≠ (w.senders.set k (some .released)).length := by
    rw [List.length_set]
    exact Nat.ne_of_lt hlt
  rw [step_take hk]
  refine (owns_append (w := { w with senders := w.senders.set k (some .released) }) _ _).trans ?_
  rw [if_neg hne]
  exact owns_set _ w.host (lt_of_at? hk)

/-- What is left behind has no device. -/
theorem owns_take (w : Places) (k : Nat) : (w.step (.take k)).owns k = false := by
  cases hk : w.at? k with
  | none => rw [step_take_of_none hk, owns_of_none hk]
  | some s => rw [owns_step_take hk (lt_of_at? hk), if_pos rfl]

theorem length_step_le (w : Places) (step : Step) :
    w.senders.length ≤ (w.step step).senders.length := by
  cases step with
  | operate | request =>
    simp only [Places.step, act]
    split <;> simp
  | released => simp [Places.step]
  | take k =>
    cases hk : w.at? k with
    | none => exact Nat.le_of_eq (by rw [step_take_of_none hk])
    | some s => simp [step_take hk]
  | drop k =>
    cases hk : w.at? k with
    | none => exact Nat.le_of_eq (by rw [step_drop_of_none hk])
    | some s => simp [step_drop hk]
  | restore k j =>
    simp only [Places.step]
    split
    · split <;> simp
    · exact Nat.le_refl _
  | change => exact Nat.le_refl _

theorem owns_act {α : Type} {action : StateM (Rig (Sender UinputDriver)) α}
    (haction : Private action) (w : Places) (k j : Nat) : (w.act k action).owns j = w.owns j := by
  unfold act
  cases hk : w.at? k with
  | none => rfl
  | some s =>
    have hready : (action ⟨s, w.host⟩).2.front.isReady = s.isReady :=
      (haction _ ⟨s, w.host⟩ (.refl _)).device
    dsimp only
    rw [owns_set _ _ (lt_of_at? hk)]
    split
    next hkj => rw [← hkj, owns_of_at? hk, Option.any_some, hready]
    next => rfl

/-- A place without a device gets one only if it is put there. -/
theorem not_owns_step (hlt : k < w.senders.length) (h : w.owns k = false) {step : Step}
    (hstep : ∀ j, step ≠ .restore k j) : (w.step step).owns k = false := by
  cases step with
  | operate i op => exact (owns_act (private_perform op) w i k).trans h
  | request i request => exact (owns_act (private_request request) w i k).trans h
  | released => exact (owns_append _ _).trans ((if_neg (Nat.ne_of_lt hlt)).trans h)
  | take i =>
    cases hi : w.at? i with
    | none => rw [step_take_of_none hi, h]
    | some s =>
      rw [owns_step_take hi hlt, h]
      split <;> rfl
  | restore i j =>
    simp only [Places.step]
    split
    next s s' hi hj =>
      split
      next => exact h
      next =>
        have hik : i ≠ k := fun hik => hstep j (hik ▸ rfl)
        have hlen : i < (w.senders.set j none).length := by
          rw [List.length_set]
          exact lt_of_at? hi
        refine (owns_set (w := { w with senders := w.senders.set j none }) _ _ hlen).trans ?_
        rw [if_neg hik]
        refine (owns_set none w.host (lt_of_at? hj)).trans ?_
        split
        · rfl
        · exact h
    next => exact h
  | drop i =>
    cases hi : w.at? i with
    | none => rw [step_drop_of_none hi, h]
    | some s =>
      rw [step_drop hi]
      refine (owns_set none _ (lt_of_at? hi)).trans ?_
      split
      · rfl
      · exact h
  | change port => exact h

theorem not_owns_run (hlt : k < w.senders.length) (h : w.owns k = false) {steps : List Step}
    (hsteps : ∀ j, Step.restore k j ∉ steps) : (w.run steps).owns k = false := by
  induction steps generalizing w with
  | nil => exact h
  | cons step steps ih =>
    have hstep : ∀ j, step ≠ .restore k j := by
      rintro j rfl
      exact hsteps j List.mem_cons_self
    apply ih (Nat.lt_of_lt_of_le hlt (length_step_le w step)) (not_owns_step hlt h hstep)
    exact fun j hj => hsteps j (List.mem_cons_of_mem _ hj)

/-- What is done at a place without a device leaves no trace but of time. -/
theorem quiet_step (h : w.owns k = false) {step : Step} (hstep : step.place? = some k) :
    ∃ log, (w.step step).host.journal = w.host.journal ++ log ∧ Quiet log := by
  have hnothing : ∀ {w' : Places}, w'.host.journal = w.host.journal →
      ∃ log, w'.host.journal = w.host.journal ++ log ∧ Quiet log :=
    fun heq => ⟨[], heq.trans (List.append_nil _).symm, Quiet.nil⟩
  have hact : ∀ {α : Type} {action : StateM (Rig (Sender UinputDriver)) α}, Private action →
      ∃ log, (w.act k action).host.journal = w.host.journal ++ log ∧ Quiet log := by
    intro α action haction
    unfold act
    cases hk : w.at? k with
    | none => exact hnothing rfl
    | some s =>
      obtain ⟨-, log, hlog, -, hquiet⟩ := haction _ ⟨s, w.host⟩ (.refl _)
      exact ⟨log, hlog, hquiet ((owns_of_at? hk).symm.trans h)⟩
  have hclose : ∀ {s : Sender UinputDriver}, w.at? k = some s →
      (s.close w.host).journal = w.host.journal := by
    intro s hk
    rw [journal_close, ← owns_of_at? hk, h]
    exact List.append_nil _
  cases step with
  | operate i op =>
    cases hstep
    exact hact (private_perform op)
  | request i request =>
    cases hstep
    exact hact (private_request request)
  | take i =>
    cases hstep
    cases hk : w.at? k with
    | none => exact hnothing (by rw [step_take_of_none hk])
    | some s => exact hnothing (by rw [step_take hk])
  | restore i j =>
    cases hstep
    simp only [Places.step]
    split
    next s s' hk hj =>
      split
      next => exact hnothing rfl
      next => exact hnothing (hclose hk)
    next => exact hnothing rfl
  | drop i =>
    cases hstep
    cases hk : w.at? k with
    | none => exact hnothing (by rw [step_drop_of_none hk])
    | some s =>
      rw [step_drop hk]
      exact hnothing (hclose hk)
  | released | change => cases hstep

/-! ## Giving everything up -/

theorem at?_drop (w : Places) (k j : Nat) :
    (w.step (.drop k)).at? j = if k = j then none else w.at? j := by
  cases hk : w.at? k with
  | none =>
    rw [step_drop_of_none hk]
    split
    next hkj => rw [← hkj, hk]
    next => rfl
  | some s =>
    rw [step_drop hk]
    exact at?_set none _ (lt_of_at? hk)

theorem at?_run_drop (w : Places) (ks : List Nat) (j : Nat) :
    (w.run (ks.map .drop)).at? j = if j ∈ ks then none else w.at? j := by
  induction ks generalizing w with
  | nil => rfl
  | cons k ks ih =>
    rw [List.map_cons, run, ih, at?_drop]
    by_cases hj : j ∈ ks
    · rw [if_pos hj, if_pos (List.mem_cons_of_mem k hj)]
    · rw [if_neg hj]
      by_cases hkj : k = j
      · rw [if_pos hkj, if_pos (hkj ▸ List.mem_cons_self)]
      · rw [if_neg hkj, if_neg (by simp [hj, Ne.symm hkj])]

theorem at?_dropAll (w : Places) (j : Nat) : w.dropAll.at? j = none := by
  rw [dropAll, at?_run_drop]
  split
  next => rfl
  next hj =>
    rw [List.mem_range, Nat.not_lt] at hj
    rw [at?, List.getElem?_eq_none hj]
    rfl

theorem owners_eq_zero (h : ∀ j, w.at? j = none) : w.owners = 0 := by
  apply List.countP_eq_zero.2
  intro place hplace
  obtain ⟨j, hj⟩ := List.mem_iff_getElem?.1 hplace
  have hnone := h j
  rw [at?, hj] at hnone
  obtain rfl : place = none := hnone
  simp

/-! ## The life of the device -/

/-- The device is there, with its owner, and was only written to. -/
def Alive (before : List Entry) (w : Places) : Prop :=
  w.owners = 1 ∧ ∃ log, w.host.journal = before ++ log ∧ Busy log

/-- The device was destroyed after it was only written to, and nothing was written since then. -/
def Gone (before : List Entry) (w : Places) : Prop :=
  w.owners = 0 ∧ ∃ log later, w.host.journal = before ++ log ++ [.destroyed] ++ later ∧
    Busy log ∧ Quiet later

/-- There is no device, and nothing was written. -/
def Absent (before : List Entry) (w : Places) : Prop :=
  w.owners = 0 ∧ ∃ log, w.host.journal = before ++ log ∧ Quiet log

variable {before : List Entry}

theorem absent_step (h : Absent before w) (step : Step) : Absent before (w.step step) := by
  obtain ⟨hnone, log, hlog, hquiet⟩ := h
  rcases step_cases w step with ⟨howners, log', hlog', -, hquiet'⟩ | ⟨howners, -⟩
  · refine ⟨howners.trans hnone, log ++ log', ?_, hquiet.append (hquiet' hnone)⟩
    rw [hlog', hlog, List.append_assoc]
  · omega

theorem gone_step (h : Gone before w) (step : Step) : Gone before (w.step step) := by
  obtain ⟨hnone, log, later, hlog, hbusy, hquiet⟩ := h
  have habsent : Absent (before ++ log ++ [.destroyed]) w := ⟨hnone, later, hlog, hquiet⟩
  obtain ⟨hnone', later', hlog', hquiet'⟩ := absent_step habsent step
  exact ⟨hnone', log, later', hlog', hbusy, hquiet'⟩

theorem alive_step (h : Alive before w) (step : Step) :
    Alive before (w.step step) ∨ Gone before (w.step step) := by
  obtain ⟨hone, log, hlog, hbusy⟩ := h
  rcases step_cases w step with ⟨howners, log', hlog', hbusy', -⟩ | ⟨howners, hlog'⟩
  · refine .inl ⟨howners.trans hone, log ++ log', ?_, hbusy.append hbusy'⟩
    rw [hlog', hlog, List.append_assoc]
  · refine .inr ⟨by omega, log, [], ?_, hbusy, Quiet.nil⟩
    rw [hlog', hlog, List.append_nil]

theorem absent_run (h : Absent before w) (steps : List Step) : Absent before (w.run steps) := by
  induction steps generalizing w with
  | nil => exact h
  | cons step steps ih => exact ih (absent_step h step)

theorem life_run (h : Alive before w ∨ Gone before w) (steps : List Step) :
    Alive before (w.run steps) ∨ Gone before (w.run steps) := by
  induction steps generalizing w with
  | nil => exact h
  | cons step steps ih =>
    rcases h with halive | hgone
    · exact ih (alive_step halive step)
    · exact ih (.inr (gone_step hgone step))

/-- A program that has opened a driver. -/
def opened (s : SenderSettings) (h : Host) : Places :=
  let (driver, host) := UinputDriver.connect s h
  { senders := [some { driver }], host }

/-- What the opening leaves in the journal: the creation of the device, and then the time in which
the system publishes it. -/
def opening (s : SenderSettings) : List Entry :=
  .created (UinputDriver.keyboard s) ::
    if s.settleMillis = 0 then [] else [.slept (s.settleMillis.toNat * 1000)]

theorem alive_opened (s : SenderSettings) {h : Host} (hrefusal : h.uinput.refusal = none) :
    Alive (h.journal ++ opening s) (opened s h) := by
  unfold opened UinputDriver.connect Host.createDevice UinputDriver.settle opening
  rw [hrefusal]
  refine ⟨rfl, [], ?_, Quiet.nil.busy⟩
  dsimp only
  split <;> simp

theorem absent_opened (s : SenderSettings) {h : Host} {e : OsError}
    (hrefusal : h.uinput.refusal = some e) : Absent h.journal (opened s h) := by
  unfold opened UinputDriver.connect Host.createDevice
  rw [hrefusal]
  exact ⟨rfl, [], (List.append_nil _).symm, Quiet.nil⟩

theorem not_owns_of_owners (hnone : w.owners = 0) (k : Nat) : w.owns k = false := by
  cases hk : w.at? k with
  | none => exact owns_of_none hk
  | some s => rw [owns_of_at? hk, not_isReady_of_owners hk hnone]

/-- What is known of a device, from the state of the program that has opened its driver. -/
structure DeviceLife (s : SenderSettings) (h : Host) (w : Places) : Prop where
  /-- A device that was created is there, with one owner, or it was destroyed together with it. -/
  present : h.uinput.refusal = none →
    Alive (h.journal ++ opening s) w ∨ Gone (h.journal ++ opening s) w
  /-- When everything is given up it was destroyed, once and after the last write. -/
  destroyed : h.uinput.refusal = none → Gone (h.journal ++ opening s) w.dropAll
  /-- If it could not be created nobody ever has one, and nothing but time passes. -/
  refused : ∀ e, h.uinput.refusal = some e →
    Absent h.journal w ∧ Absent h.journal w.dropAll ∧ ∀ k, w.owns k = false
  /-- What is left behind has no device. -/
  left : ∀ k, (w.step (.take k)).owns k = false
  /-- An empty sender has none. -/
  released : (w.step .released).owns w.senders.length = false
  /-- Who has no device does not get one, and leaves no trace but of time. -/
  empty : ∀ k, k < w.senders.length → w.owns k = false →
    ∀ steps, (∀ j, Step.restore k j ∉ steps) → (w.run steps).owns k = false ∧
      ∀ step : Step, step.place? = some k → ∃ log,
        ((w.run steps).step step).host.journal = (w.run steps).host.journal ++ log ∧ Quiet log

/-- **The life of a device**: whatever is done with the senders of a program, and wherever they are
moved, the device that its driver has created is destroyed exactly once, and all writes are between
the end of its creation and its destruction. A driver without a device never has to do with one. -/
theorem device_life (s : SenderSettings) (h : Host) (steps : List Step) :
    DeviceLife s h ((opened s h).run steps) where
  present hrefusal := life_run (.inl (alive_opened s hrefusal)) steps
  destroyed hrefusal := by
    have hlife := life_run (.inl (alive_opened s hrefusal)) steps
    have hnone := owners_eq_zero (at?_dropAll ((opened s h).run steps))
    rcases life_run hlife ((List.range _).map .drop) with ⟨hone, -⟩ | hgone
    · rw [dropAll, hone] at hnone
      cases hnone
    · exact hgone
  refused e hrefusal := by
    have habsent := absent_run (absent_opened s hrefusal) steps
    exact ⟨habsent, absent_run habsent _, not_owns_of_owners habsent.1⟩
  left k := owns_take _ k
  released := (owns_append _ _).trans (if_pos rfl)
  empty k hlt hnone steps' hsteps := by
    have hnone' := not_owns_run hlt hnone hsteps
    exact ⟨hnone', fun step hstep => quiet_step hnone' hstep⟩

/-- A driver that is moved away while a key is held, and one whose device could not be created. -/
theorem device_life_moved :
    let w := (opened {} {}).run [.operate 0 (.keyDown .a), .take 0]
    let failed := opened {} { uinput := { refusal := some .permissionDenied } }
    w.owns 0 = false ∧ w.owns 1 = true ∧ Alive (opening {}) w ∧ Gone (opening {}) w.dropAll ∧
      (w.run [.operate 0 (.tap .b), .request 1 .flush]).owns 0 = false ∧
      Absent [] (failed.run [.operate 0 (.tap .b), .drop 0]).dropAll := by
  have hlife := device_life {} {} [.operate 0 (.keyDown .a), .take 0]
  have hfailed := device_life {} { uinput := { refusal := some .permissionDenied } }
    [.operate 0 (.tap .b), .drop 0]
  refine ⟨by decide +kernel, by decide +kernel, ?_, hlife.destroyed rfl, ?_,
    (hfailed.refused _ rfl).2.1⟩
  · refine (hlife.present rfl).resolve_right fun hgone => ?_
    have howners : ((opened {} {}).run [.operate 0 (.keyDown .a), .take 0]).owners = 1 := by
      decide +kernel
    rw [hgone.1] at howners
    cases howners
  · exact (hlife.empty 0 (by decide +kernel) (by decide +kernel) _ (by simp)).1

end Places

end Keystroke
