import Keystroke.Proofs.Capture.Runs

/-!
# Traces of a capture thread

A trace lists what is done in the course of a run: what the looks at the flag see, what the program
leaves in the journal, the calls of the callback and what comes of them, and who lowers the flag.

## Main statements

- `Traced.runs`, `Runs.exists_traced`: runs and traces go together.
- `journal_of_move?`: what a thread leaves in the journal.
- `Traced.looked_eq`: a look sees the flag up if and only if it was up at first and nobody has
  lowered it since.
-/

namespace Keystroke

inductive Deed where
  /-- The program looked at the flag and saw it up or down. -/
  | looked (up : Bool)
  | recorded (entry : Entry)
  | postedQuit
  | called (event : KeyEvent)
  /-- The callback left an entry in the journal. -/
  | caused (entry : Entry)
  /-- The callback stopped its listener, which lowers the flag. -/
  | stopped
  /-- The flag was lowered by somebody else. -/
  | lowered
  deriving DecidableEq

namespace Deed

def clears : Deed → Bool
  | .stopped | .lowered => true
  | _ => false

/-- Whether it is done by the thread itself. -/
def isOwn : Deed → Bool
  | .lowered => false
  | _ => true

def event? : Deed → Option KeyEvent
  | .called event => some event
  | _ => none

/-- The entry that it leaves in the journal. -/
def entry? : Deed → Option Entry
  | .recorded entry | .caused entry => some entry
  | _ => none

/-- What others do makes no difference where it does not count. -/
theorem filter_own {p : Deed → Bool} (hp : p .lowered = false) (ds : List Deed) :
    (ds.filter isOwn).filter p = ds.filter p := by
  rw [List.filter_filter]
  refine List.filter_congr fun d _ => ?_
  cases d <;> simp [isOwn, hp]

theorem countP_own {p : Deed → Bool} (hp : p .lowered = false) (ds : List Deed) :
    (ds.filter isOwn).countP p = ds.countP p := by
  rw [List.countP_eq_length_filter, filter_own hp, List.countP_eq_length_filter]

theorem filterMap_event_own (ds : List Deed) :
    (ds.filter isOwn).filterMap event? = ds.filterMap event? := by
  rw [List.filterMap_filter]
  refine congrArg (List.filterMap · ds) (funext fun d => ?_)
  cases d <;> rfl

end Deed

def Act.deeds : Act → List Deed
  | .cause entry => [.caused entry]
  | .stop => [.stopped]
  | .start | .look | .note | .panic => []

/-- What the callback does in a call, with `n` calls before it. -/
def Callback.deeds (callback : Callback) (n : Nat) (event : KeyEvent) : List Deed :=
  (callback.react n event).acts.flatMap Act.deeds

theorem Callback.deeds_eq (callback : Callback) (n : Nat) (event : KeyEvent) :
    callback.deeds n event = (callback.react n event).causes.map .caused ++
      if (callback.react n event).stops then [.stopped] else [] := by
  have hcauses (entries : List Entry) :
      (entries.map Act.cause).flatMap Act.deeds = entries.map .caused := by
    simp [List.flatMap_map, Act.deeds, ← List.map_eq_flatMap]
  cases hs : (callback.react n event).starts <;> cases ht : (callback.react n event).stops <;>
    cases hp : (callback.react n event).panics <;>
    simp [deeds, Reaction.acts, Act.deeds, hs, ht, hp, hcauses]

theorem Callback.mem_deeds {callback : Callback} {n : Nat} {event : KeyEvent} {d : Deed} :
    d ∈ callback.deeds n event ↔ (∃ entry ∈ (callback.react n event).causes, d = .caused entry) ∨
      d = .stopped ∧ (callback.react n event).stops = true := by
  rw [deeds_eq, List.mem_append, List.mem_map]
  refine or_congr ?_ ?_
  · simp only [eq_comm]
  · cases (callback.react n event).stops <;> simp

theorem Callback.any_clears_deeds (callback : Callback) (n : Nat) (event : KeyEvent) :
    (callback.deeds n event).any Deed.clears = (callback.react n event).stops := by
  rw [deeds_eq, List.any_append, List.any_map]
  cases (callback.react n event).stops <;> simp [Deed.clears, Function.comp_def]

/-- A callback that stops its listener at the call before which there were `calls` others. -/
def Callback.stopsAfter (calls : Nat) : Callback where
  react n _ := { stops := n == calls }

namespace CaptureThread

/-! ## Traces of runs -/

/-- What the next move of a thread does. -/
def deeds (m : Shared) (t : CaptureThread) : List Deed :=
  match t.stage with
  | .body (.running _) | .body (.idle _) | .body (.serve _) => [.looked m.flag]
  | .body (.record entry _) => [.recorded entry]
  | .body (.postQuit _) => [.postedQuit]
  | .body (.deliver event _) => [.called event]
  | .receiving _ =>
    match t.pending with
    | event :: _ => [.called event]
    | [] => [.looked m.flag]
  | .calling (act :: _) _ _ => act.deeds
  | _ => []

/-- What others do to the memory, as far as it shows. -/
def lowering (m m' : Shared) : List Deed :=
  if m.flag && !m'.flag then [.lowered] else []

/-- The thread `self` comes from one state to another, and this is what is done meanwhile. -/
inductive Traced (self : Nat) :
    Shared → CaptureThread → List Deed → Shared → CaptureThread → Prop where
  | refl (m : Shared) (t : CaptureThread) : Traced self m t [] m t
  | move {m₀ m m' : Shared} {t₀ t t' : CaptureThread} {ds} (h : Traced self m₀ t₀ ds m t)
      (hm : t.move? self m = some (m', t')) : Traced self m₀ t₀ (ds ++ t.deeds m) m' t'
  | others {m₀ m m' : Shared} {t₀ t t' : CaptureThread} {ds} (h : Traced self m₀ t₀ ds m t)
      (hi : t'.inner = t.inner) (hf : t.isOver = false → m'.flag = true → m.flag = true) :
      Traced self m₀ t₀ (ds ++ lowering m m') m' t'

variable {self : Nat} {m m' m'' : Shared} {t t' t'' : CaptureThread} {ds ds' : List Deed}

theorem Traced.trans (h : Traced self m t ds m' t') (h' : Traced self m' t' ds' m'' t'') :
    Traced self m t (ds ++ ds') m'' t'' := by
  induction h' with
  | refl => simpa using h
  | move _ hm ih =>
    rw [← List.append_assoc]
    exact .move (ih h) hm
  | others _ hi hf ih =>
    rw [← List.append_assoc]
    exact .others (ih h) hi hf

theorem filterMap_event_deeds (m : Shared) (t : CaptureThread) :
    (t.deeds m).filterMap Deed.event? = t.invocation := by
  unfold deeds invocation
  cases hs : t.stage with
  | body p => cases p <;> rfl
  | receiving rest => cases t.pending <;> rfl
  | calling acts noted rest =>
    cases acts with
    | nil => rfl
    | cons act acts => cases act <;> rfl
  | _ => rfl

theorem filterMap_event_lowering (m m' : Shared) :
    (lowering m m').filterMap Deed.event? = [] := by
  unfold lowering
  split <;> rfl

/-- The events that a run lists are those of the calls in its trace. -/
theorem Traced.runs (h : Traced self m t ds m' t') :
    Runs self m t (ds.filterMap Deed.event?) m' t' := by
  induction h with
  | refl t => exact .refl m t
  | move _ hm ih =>
    rw [List.filterMap_append, filterMap_event_deeds]
    exact ih.move hm
  | others _ hi hf ih =>
    rw [List.filterMap_append, filterMap_event_lowering, List.append_nil]
    exact ih.others hi hf

/-- Every run has a trace. -/
theorem Runs.exists_traced {es : List KeyEvent} (h : Runs self m t es m' t') :
    ∃ ds, Traced self m t ds m' t' := by
  induction h with
  | refl t => exact ⟨[], .refl m t⟩
  | move _ hm ih =>
    obtain ⟨ds, ih⟩ := ih
    exact ⟨_, ih.move hm⟩
  | others _ hi hf ih =>
    obtain ⟨ds, ih⟩ := ih
    exact ⟨_, ih.others hi hf⟩

/-- What a thread does when it is left to itself, in so many moves as given or until it has to wait,
and where that leads. -/
def play (self : Nat) : Nat → Shared → CaptureThread → List Deed × Shared × CaptureThread
  | 0, m, t => ([], m, t)
  | moves + 1, m, t =>
    (t.move? self m).elim ([], m, t) fun next =>
      (t.deeds m ++ (play self moves next.1 next.2).1, (play self moves next.1 next.2).2)

theorem traced_play (self moves : Nat) (m : Shared) (t : CaptureThread) :
    Traced self m t (play self moves m t).1 (play self moves m t).2.1
      (play self moves m t).2.2 := by
  induction moves generalizing m t with
  | zero => exact .refl m t
  | succ moves ih =>
    unfold play
    cases hm : t.move? self m with
    | none => exact .refl m t
    | some next => exact (Traced.move (.refl m t) hm).trans (ih next.1 next.2)

/-- What a move leaves in the journal is told by its deeds, but for the entries that are left when
the program is over. -/
theorem journal_of_move? (h : t.move? self m = some (m', t')) :
    m'.host.journal = m.host.journal ++ (t.deeds m).filterMap Deed.entry? ++
      if t.isAlive && !t'.isAlive then t.deferred else [] := by
  unfold move? at h
  split at h
  next p hs =>
    cases p <;> simp only [moveBody] at h
    case idle | awaitQuit =>
      split at h <;> cases h
      simp [deeds, hs, isAlive, goto, Deed.entry?]
    case serve =>
      cases h
      cases m.flag <;> simp [deeds, hs, isAlive, goto, Deed.entry?]
    all_goals
      cases h
      simp [deeds, hs, isAlive, goto, call, cleanUp, Deed.entry?]
  next rest hs =>
    split at h
    next hp =>
      cases h
      simp [deeds, hs, hp, isAlive, call, Deed.entry?]
    next hp =>
      split at h <;> cases h
      simp [deeds, hs, hp, isAlive, goto, Deed.entry?]
  next acts noted rest hs =>
    cases acts with
    | nil =>
      cases h
      simp [deeds, hs, isAlive, goto]
    | cons act acts =>
      cases act with
      | start =>
        simp only [moveCall] at h
        split at h <;> cases h
        simp [deeds, hs, isAlive, goto, Act.deeds]
      | stop | cause | look | note | panic =>
        cases h
        simp [deeds, hs, isAlive, goto, cleanUp, Act.deeds, Deed.entry?, Host.report]
  next hs =>
    cases h
    simp [deeds, hs, isAlive]
  next hs =>
    cases h
    simp [deeds, hs, isAlive]
  next => cases h

/-! ## What a look sees -/

theorem isAlive_of_move? (h : t.move? self m = some (m', t')) (ha : t'.isAlive = true) :
    t.isAlive = true := by
  cases hs : t.stage with
  | body | receiving | calling => simp only [isAlive, hs]
  | leaving | ending =>
    simp only [move?, hs] at h
    cases h
    cases ha
  | _ => simp [move?, hs] at h

theorem isOver_of_isAlive (ha : t.isAlive = true) : t.isOver = false := by
  unfold isAlive at ha
  unfold isOver
  split at ha <;> simp_all

/-- A move of a thread whose program is not over lowers the flag if it says so. -/
theorem flag_of_move? (h : t.move? self m = some (m', t')) (ha : t.isAlive = true) :
    m'.flag = (m.flag && !(t.deeds m).any Deed.clears) := by
  unfold move? at h
  split at h
  next p hs =>
    cases p <;> simp only [moveBody] at h
    case idle | awaitQuit =>
      split at h <;> cases h
      simp [deeds, hs, Deed.clears]
    all_goals
      cases h
      simp [deeds, hs, Deed.clears, cleanUp]
  next rest hs =>
    split at h
    next hp =>
      cases h
      simp [deeds, hs, hp, Deed.clears]
    next hp =>
      split at h <;> cases h
      simp [deeds, hs, hp, Deed.clears]
  next acts noted rest hs =>
    cases acts with
    | nil =>
      cases h
      simp [deeds, hs]
    | cons act acts =>
      cases act with
      | start =>
        simp only [moveCall] at h
        split at h <;> cases h
        simp [deeds, hs, Act.deeds]
      | stop | cause | look | note | panic =>
        cases h
        simp [deeds, hs, Act.deeds, Deed.clears, cleanUp]
  next hs => simp [isAlive, hs] at ha
  next hs => simp [isAlive, hs] at ha
  next => cases h

/-- As long as the program is not over, the flag is up if it was up at first and nobody has lowered
it. -/
theorem Traced.flag_eq (h : Traced self m t ds m' t') (ha : t'.isAlive = true) :
    m'.flag = (m.flag && !ds.any Deed.clears) := by
  induction h with
  | refl => simp
  | move _ hm ih =>
    have hbefore := isAlive_of_move? hm ha
    rw [flag_of_move? hm hbefore, ih hbefore, List.any_append, Bool.not_or, Bool.and_assoc]
  | @others m₁ m₂ _ t₁ t₂ ds _ hi hf ih =>
    have hbefore : t₁.isAlive = true := by
      simpa only [isAlive, stage_eq_of_inner_eq hi] using ha
    have hf := hf (isOver_of_isAlive hbefore)
    rw [List.any_append, Bool.not_or, ← Bool.and_assoc, ← ih hbefore]
    -- nobody raises the flag meanwhile
    cases h₁ : m₁.flag <;> cases h₂ : m₂.flag <;> simp_all [lowering, Deed.clears]

end CaptureThread

/-- Each look in a trace sees the flag up if and only if it was up at first and nobody has lowered
it before. -/
def Deed.Honest (up : Bool) (ds : List Deed) : Prop :=
  ∀ ds₁ b ds₂, ds = ds₁ ++ .looked b :: ds₂ → b = (up && !ds₁.any Deed.clears)

theorem Deed.honest_nil (up : Bool) : Honest up [] := by
  intro ds₁ b ds₂ heq
  simp at heq

theorem Deed.honest_cons {up : Bool} {d : Deed} {ds : List Deed} :
    Honest up (d :: ds) ↔ (∀ b, d = .looked b → b = up) ∧ Honest (up && !d.clears) ds := by
  constructor
  · intro h
    refine ⟨fun b hd => ?_, fun ds₁ b ds₂ heq => ?_⟩
    · simpa using h [] b ds (by simp [hd])
    · have hlook := h (d :: ds₁) b ds₂ (by simp [heq])
      rwa [List.any_cons, Bool.not_or, ← Bool.and_assoc] at hlook
  · intro h ds₁ b ds₂ heq
    cases ds₁ with
    | nil =>
      obtain ⟨hd, -⟩ := List.cons.inj heq
      simpa using h.1 b hd
    | cons d' ds₁ =>
      obtain ⟨rfl, hrest⟩ := List.cons.inj heq
      rw [List.any_cons, Bool.not_or, ← Bool.and_assoc]
      exact h.2 ds₁ b ds₂ hrest

theorem Deed.honest_append {up : Bool} {ds ds' : List Deed} :
    Honest up (ds ++ ds') ↔ Honest up ds ∧ Honest (up && !ds.any Deed.clears) ds' := by
  induction ds generalizing up with
  | nil => simp [honest_nil]
  | cons d ds ih =>
    rw [List.cons_append, honest_cons, honest_cons, ih, List.any_cons, Bool.not_or,
      ← Bool.and_assoc, and_assoc]

theorem Deed.honest_of_looked_notMem {up : Bool} {ds : List Deed} (h : ∀ b, .looked b ∉ ds) :
    Honest up ds := by
  intro ds₁ b ds₂ heq
  exact absurd (by simp [heq]) (h b)

/-- In a trace the deeds of a kind come directly after a look that sees the flag up. -/
def Deed.Guarded (kind : Deed → Bool) (ds : List Deed) : Prop :=
  ∀ ds₁ d ds₂, ds = ds₁ ++ d :: ds₂ → kind d = true → ds₁.getLast? = some (.looked true)

section Guarded

variable {kind : Deed → Bool} {ds ds' : List Deed}

theorem Deed.guarded_nil (kind : Deed → Bool) : Guarded kind [] := by
  intro ds₁ d ds₂ heq
  simp at heq

theorem Deed.Guarded.of_append (h : Guarded kind (ds ++ ds')) : Guarded kind ds := by
  intro ds₁ d ds₂ heq hd
  exact h ds₁ d (ds₂ ++ ds') (by simp [heq]) hd

theorem Deed.Guarded.concat {d : Deed} (h : Guarded kind ds)
    (hd : kind d = true → ds.getLast? = some (.looked true)) : Guarded kind (ds ++ [d]) := by
  intro ds₁ d' ds₂ heq hd'
  rcases List.eq_nil_or_concat ds₂ with rfl | ⟨init, last, rfl⟩
  · obtain ⟨rfl, hlast⟩ := List.append_inj' heq rfl
    obtain rfl := List.singleton_inj.1 hlast
    exact hd hd'
  · rw [List.concat_eq_append, ← List.cons_append, ← List.append_assoc] at heq
    exact h ds₁ d' init (List.append_inj_left' heq rfl) hd'

theorem Deed.Guarded.append (h : Guarded kind ds) (hds' : ∀ d ∈ ds', kind d = false) :
    Guarded kind (ds ++ ds') := by
  induction ds' generalizing ds with
  | nil => simpa using h
  | cons d ds' ih =>
    rw [List.forall_mem_cons] at hds'
    rw [List.append_cons]
    exact ih (h.concat fun hd => by simp [hds'.1] at hd) hds'.2

/-- After a look that sees the flag down there is no guarded deed any more. -/
theorem Deed.Guarded.eq_false_of_mem {up : Bool} {ds₁ ds₂ : List Deed}
    (h : Guarded kind (ds.filter isOwn)) (hown : ∀ d, kind d = true → d.isOwn = true)
    (hh : Honest up ds) (hds : ds = ds₁ ++ .looked false :: ds₂) : ∀ d ∈ ds₂, kind d = false := by
  intro d hd
  rw [← Bool.not_eq_true]
  intro hkind
  obtain ⟨ds₃, ds₄, rfl⟩ := List.append_of_mem hd
  have hsplit : ds.filter isOwn =
      (ds₁.filter isOwn ++ .looked false :: ds₃.filter isOwn) ++ d :: ds₄.filter isOwn := by
    have hlooked : (Deed.looked false).isOwn = true := rfl
    simp [hds, hlooked, hown d hkind]
  -- the look before it comes after the one that saw the flag down
  have hlast := h _ _ _ hsplit hkind
  rw [List.getLast?_append] at hlast
  have hlook : .looked true ∈ ds₃ := by
    rcases List.eq_nil_or_concat (ds₃.filter isOwn) with hnil | ⟨init, last, hconcat⟩
    · simp [hnil] at hlast
    · have hmem : last ∈ ds₃.filter isOwn := by simp [hconcat]
      rw [hconcat, List.concat_eq_append, ← List.cons_append, List.getLast?_concat] at hlast
      obtain rfl : last = .looked true := by simpa using hlast
      exact (List.mem_filter.1 hmem).1
  obtain ⟨ds₅, ds₆, rfl⟩ := List.append_of_mem hlook
  have hdown := hh ds₁ false _ hds
  have hup := hh (ds₁ ++ .looked false :: ds₅) true (ds₆ ++ d :: ds₄) (by simp [hds])
  rw [List.any_append, Bool.not_or, ← Bool.and_assoc, ← hdown] at hup
  simp at hup

end Guarded

namespace CaptureThread

variable {self : Nat} {m m' : Shared} {t t' : CaptureThread} {ds : List Deed}

open Deed (Honest honest_nil honest_cons honest_append)

theorem honest_deeds (m : Shared) (t : CaptureThread) : Honest m.flag (t.deeds m) := by
  unfold deeds
  cases t.stage with
  | body p => cases p <;> simp [honest_cons, honest_nil]
  | receiving rest => cases t.pending <;> simp [honest_cons, honest_nil]
  | calling acts noted rest =>
    cases acts with
    | nil => exact honest_nil _
    | cons act acts => cases act <;> simp [Act.deeds, honest_cons, honest_nil]
  | _ => exact honest_nil _

/-- **Looks**: a look sees the flag up if and only if it was up at first and nobody has lowered it
since. -/
theorem Traced.looked_eq (h : Traced self m t ds m' t') : Honest m.flag ds := by
  induction h with
  | refl => exact honest_nil _
  | @move m₁ _ _ t₁ _ ds h hm ih =>
    refine honest_append.2 ⟨ih, ?_⟩
    cases ha : t₁.isAlive with
    | true =>
      rw [← h.flag_eq ha]
      exact honest_deeds m₁ t₁
    | false =>
      -- a thread whose program is over looks no more
      have hnone : t₁.deeds m₁ = [] := by
        unfold isAlive at ha
        unfold deeds
        split at ha <;> simp_all
      rw [hnone]
      exact honest_nil _
  | @others m₁ m₂ _ _ _ ds h hi hf ih =>
    refine honest_append.2 ⟨ih, ?_⟩
    unfold lowering
    split <;> simp [honest_cons, honest_nil]

end CaptureThread

end Keystroke
