import Keystroke.Sender

/-!
# Operations of a sender

All that can be asked of a sender, as data, so that a run of a sender is a list. Every operation is
made of a few steps, and what is known of these is known of every run: `Invariant` says it of one
sender, and `Simulation` of two senders that do the same over different drivers.

## Main statements

- `hold_eq`, `release_eq`: holding and releasing a mask goes through the left keys of its bits.
- `Simulation.performAll`: senders that do the same at every step do the same in every run.
- `Invariant.performAll`: what each step keeps is kept by every run.
-/

namespace Keystroke

/-- The left keys of the chord modifiers in a mask, in the order Shift, Ctrl, Alt, Super. -/
def Modifier.leftKeys (m : Modifier) : List Key :=
  (if m.contains .shift then [.shiftLeft] else []) ++
  (if m.contains .ctrl then [.ctrlLeft] else []) ++
  (if m.contains .alt then [.altLeft] else []) ++
  (if m.contains .super then [.superLeft] else [])

theorem Modifier.map_leftKey?_chordBits (m : Modifier) :
    m.chordBits.map (·.leftKey?) = m.leftKeys.map some := by
  unfold chordBits chordOrder leftKeys
  -- the mask may have other bits, but only these four decide
  cases h₁ : m.contains shift <;> cases h₂ : m.contains ctrl <;> cases h₃ : m.contains alt <;>
    cases h₄ : m.contains super <;> simp [h₁, h₂, h₃, h₄, leftKey?] <;> decide

namespace Sender

variable {δ : Type}

/-- Does something for each of the keys, and says whether all of it succeeded. -/
def forKeys (act : Key → StateM (Rig (Sender δ)) Bool) : List Key → StateM (Rig (Sender δ)) Bool
  | [] => return true
  | key :: keys => do
    let done ← act key
    let others ← forKeys act keys
    return done && others

theorem forEach_eq (act : Key → StateM (Rig (Sender δ)) Bool) {bits : List Modifier}
    {keys : List Key} (h : bits.map (·.leftKey?) = keys.map some) :
    forEach act bits = forKeys act keys := by
  induction bits generalizing keys with
  | nil =>
    obtain rfl : keys = [] := by simpa using h.symm
    rfl
  | cons bit bits ih =>
    cases keys with
    | nil => simp at h
    | cons key keys =>
      simp only [List.map_cons, List.cons.injEq] at h
      simp only [forEach, forKeys, h.1, ih h.2]

variable [KeyboardDriver δ]

theorem hold_eq (mask : Modifier) : (hold mask : StateM (Rig (Sender δ)) Bool) =
    forKeys keyDown mask.leftKeys :=
  forEach_eq _ mask.map_leftKey?_chordBits

theorem release_eq (mask : Modifier) : (release mask : StateM (Rig (Sender δ)) Bool) =
    forKeys keyUp mask.leftKeys :=
  forEach_eq _ mask.map_leftKey?_chordBits

theorem flush_eq (r : Rig (Sender δ)) : flush r =
    if r.front.isReady then (do return succeeded (← drive KeyboardDriver.flush)) r
    else (false, r) := by
  change (if (!r.front.isReady) = true then (pure false : StateM (Rig (Sender δ)) Bool)
    else _) r = _
  cases r.front.isReady <;> rfl

/-! ## Steps and operations -/

/-- What every operation of a sender is made of. -/
inductive Step where
  | keyDown (key : Key)
  | keyUp (key : Key)
  | delay
  | typeText (s : String)
  | typeScalar (c : Char)
  | report (message : String)
  | flush
  | requestPermissions
  | setKeyDelay (micros : UInt32)

/-- Does a step and says whether it succeeded. -/
def Step.run : Step → StateM (Rig (Sender δ)) Bool
  | keyDown key => Sender.keyDown key
  | keyUp key => Sender.keyUp key
  | delay => do
    drive KeyboardDriver.delay
    return true
  | typeText s => Sender.typeText s
  | typeScalar c => do return succeeded (← drive (KeyboardDriver.typeChar c))
  | report message => do
    Rig.report message
    return true
  | flush => Sender.flush
  | requestPermissions => Sender.requestPermissions
  | setKeyDelay micros => do
    Sender.setKeyDelay micros
    return true

/-- What a user of a sender can ask of it. -/
inductive Operation where
  | keyDown (key : Key)
  | keyUp (key : Key)
  | tap (key : Key)
  | hold (mask : Modifier)
  | release (mask : Modifier)
  | releaseAll
  | combo (mask : Modifier) (key : Key)
  | typeText (s : String)
  | typeUtf32 (values : List UInt32)
  | typeChar (value : UInt32)
  | flush
  | requestPermissions
  | setKeyDelay (micros : UInt32)

/-- The steps of which an operation is made. Which of them it takes, and how often, depends on what
becomes of them. -/
def Operation.steps : Operation → List Step
  | .keyDown key => [.keyDown key]
  | .keyUp key => [.keyUp key]
  | .tap key => [.keyDown key, .delay, .keyUp key]
  | .hold mask => mask.leftKeys.map .keyDown
  | .release mask => mask.leftKeys.map .keyUp
  | .releaseAll => Modifier.chord.leftKeys.map .keyUp
  | .combo mask key =>
    mask.leftKeys.map .keyDown ++ [.delay, .keyDown key, .keyUp key] ++ mask.leftKeys.map .keyUp
  | .typeText s => [.typeText s]
  | .typeUtf32 values =>
    match charsOf values with
    | .ok cs => [.typeText (String.ofList cs)]
    | .error value => [.report ("type_text_utf32: " ++ (DriverError.invalidCodepoint value).message)]
  | .typeChar value =>
    match charOf? value with
    | some c => [.typeScalar c]
    | none => [.report ("type_character: " ++ (DriverError.invalidCodepoint value).message)]
  | .flush => [.flush]
  | .requestPermissions => [.requestPermissions]
  | .setKeyDelay micros => [.setKeyDelay micros]

/-- Does what is asked and says whether it succeeded. -/
def perform : Operation → StateM (Rig (Sender δ)) Bool
  | .keyDown key => keyDown key
  | .keyUp key => keyUp key
  | .tap key => tap key
  | .hold mask => hold mask
  | .release mask => release mask
  | .releaseAll => releaseAll
  | .combo mask key => combo mask key
  | .typeText s => typeText s
  | .typeUtf32 values => typeUtf32 values
  | .typeChar value => typeChar value
  | .flush => flush
  | .requestPermissions => requestPermissions
  | .setKeyDelay micros => do
    setKeyDelay micros
    return true

/-- Does several things in order and says which succeeded. -/
def performAll : List Operation → StateM (Rig (Sender δ)) (List Bool)
  | [] => return []
  | op :: ops => do
    let done ← perform op
    let others ← performAll ops
    return done :: others

theorem performAll_cons (op : Operation) (ops : List Operation) (r : Rig (Sender δ)) :
    performAll (op :: ops) r =
      ((perform op r).1 :: (performAll ops (perform op r).2).1,
        (performAll ops (perform op r).2).2) := rfl

end Sender

/-! ## Relating two senders -/

section Relates

variable {σ τ α β : Type} {R : σ → τ → Prop}

/-- From related states, two actions give the same result and lead to related states. -/
def Relates (R : σ → τ → Prop) (p : StateM σ α) (q : StateM τ α) : Prop :=
  ∀ x y, R x y → (p x).1 = (q y).1 ∧ R (p x).2 (q y).2

theorem Relates.pure (a : α) : Relates R (pure a) (pure a) := fun _ _ h => ⟨rfl, h⟩

theorem Relates.bind {p : StateM σ α} {q : StateM τ α} {f : α → StateM σ β} {g : α → StateM τ β}
    (h : Relates R p q) (hf : ∀ a, Relates R (f a) (g a)) : Relates R (p >>= f) (q >>= g) := by
  intro x y hxy
  obtain ⟨hresult, hstate⟩ := h x y hxy
  have hnext := hf (p x).1 _ _ hstate
  change (f (p x).1 (p x).2).1 = (g (q y).1 (q y).2).1 ∧
    R (f (p x).1 (p x).2).2 (g (q y).1 (q y).2).2
  rw [← hresult]
  exact hnext

end Relates

namespace Sender

variable {δ ε : Type} [KeyboardDriver δ] [KeyboardDriver ε]

variable {R : Rig (Sender δ) → Rig (Sender ε) → Prop}

/-- Two senders do the same at a step. -/
abbrev Alike (R : Rig (Sender δ) → Rig (Sender ε) → Prop) (step : Step) : Prop :=
  Relates R step.run step.run

theorem Alike.delay (h : Alike R .delay) :
    Relates R (drive KeyboardDriver.delay) (drive KeyboardDriver.delay) :=
  fun x y hxy => ⟨rfl, (h x y hxy).2⟩

theorem Alike.report {message : String} (h : Alike R (.report message)) :
    Relates R (Rig.report message) (Rig.report message) :=
  fun x y hxy => ⟨rfl, (h x y hxy).2⟩

omit [KeyboardDriver δ] [KeyboardDriver ε] in
theorem relates_forKeys {act : Key → StateM (Rig (Sender δ)) Bool}
    {act' : Key → StateM (Rig (Sender ε)) Bool} (keys : List Key)
    (h : ∀ key ∈ keys, Relates R (act key) (act' key)) :
    Relates R (forKeys act keys) (forKeys act' keys) := by
  induction keys with
  | nil => exact .pure true
  | cons key keys ih =>
    rw [List.forall_mem_cons] at h
    exact h.1.bind fun done => (ih h.2).bind fun others => .pure (done && others)

theorem relates_tap {key : Key} (hdown : Alike R (.keyDown key)) (hdelay : Alike R .delay)
    (hup : Alike R (.keyUp key)) : Relates R (tap key) (tap key) := by
  refine Relates.bind hdown fun done => ?_
  cases done with
  | false => exact .pure false
  | true => exact hdelay.delay.bind fun _ => hup

theorem relates_hold {mask : Modifier} (h : ∀ key ∈ mask.leftKeys, Alike R (.keyDown key)) :
    Relates R (hold mask) (hold mask) := by
  rw [hold_eq, hold_eq]
  exact relates_forKeys mask.leftKeys h

theorem relates_release {mask : Modifier} (h : ∀ key ∈ mask.leftKeys, Alike R (.keyUp key)) :
    Relates R (release mask) (release mask) := by
  rw [release_eq, release_eq]
  exact relates_forKeys mask.leftKeys h

theorem relates_combo {mask : Modifier} {key : Key}
    (hhold : ∀ key ∈ mask.leftKeys, Alike R (.keyDown key)) (hdelay : Alike R .delay)
    (hdown : Alike R (.keyDown key)) (hup : Alike R (.keyUp key))
    (hrelease : ∀ key ∈ mask.leftKeys, Alike R (.keyUp key)) :
    Relates R (combo mask key) (combo mask key) := by
  have hend : ∀ b : Bool, Relates R (do let _ ← release mask; return b)
      (do let _ ← release mask; return b) :=
    fun b => (relates_release hrelease).bind fun _ => .pure b
  refine (relates_hold hhold).bind fun held => ?_
  -- both branches end with the release
  cases held with
  | false => exact hend false
  | true =>
    exact hdelay.delay.bind fun _ => (relates_tap hdown hdelay hup).bind fun b =>
      hdelay.delay.bind fun _ => hend b

/-- Senders that do the same at each of the steps of an operation do the same at the operation. -/
theorem relates_perform {op : Operation} (h : ∀ step ∈ op.steps, Alike R step) :
    Relates R (perform op) (perform op) := by
  have hkeys : ∀ {mask : Modifier} {act : Key → Step},
      (∀ step ∈ mask.leftKeys.map act, Alike R step) → ∀ key ∈ mask.leftKeys, Alike R (act key) :=
    fun hmap key hkey => hmap _ (List.mem_map_of_mem hkey)
  cases op with
  | tap key =>
    simp only [Operation.steps, List.forall_mem_cons] at h
    exact relates_tap h.1 h.2.1 h.2.2.1
  | hold mask => exact relates_hold (hkeys h)
  | release mask => exact relates_release (hkeys h)
  | releaseAll => exact relates_release (hkeys h)
  | combo mask key =>
    simp only [Operation.steps, List.forall_mem_append, List.forall_mem_cons] at h
    exact relates_combo (hkeys h.1.1) h.1.2.1 h.1.2.2.1 h.1.2.2.2.1 (hkeys h.2)
  | typeUtf32 values =>
    simp only [Operation.steps] at h
    change Relates R (typeUtf32 values) (typeUtf32 values)
    unfold typeUtf32
    cases hvalues : charsOf values with
    | ok cs =>
      rw [hvalues] at h
      exact h _ (List.mem_singleton_self _)
    | error value =>
      rw [hvalues] at h
      exact (h _ (List.mem_singleton_self _)).report.bind fun _ => .pure false
  | typeChar value =>
    simp only [Operation.steps] at h
    change Relates R (typeChar value) (typeChar value)
    unfold typeChar
    cases hvalue : charOf? value with
    | some c =>
      rw [hvalue] at h
      exact h _ (List.mem_singleton_self _)
    | none =>
      rw [hvalue] at h
      exact (h _ (List.mem_singleton_self _)).report.bind fun _ => .pure false
  | keyDown | keyUp | typeText | flush | requestPermissions | setKeyDelay =>
    exact h _ (List.mem_singleton_self _)

/-- Two senders do the same at every step. -/
def Simulation (R : Rig (Sender δ) → Rig (Sender ε) → Prop) : Prop :=
  ∀ step : Step, Relates R step.run step.run

/-- Two senders do the same at every step, unless it sets the delay. -/
def SteadySimulation (R : Rig (Sender δ) → Rig (Sender ε) → Prop) : Prop :=
  ∀ step : Step, (∀ micros, step ≠ .setKeyDelay micros) → Relates R step.run step.run

/-- The delay is set by the operation that asks for it and by no other. -/
theorem Operation.ne_setKeyDelay {op : Operation} (hop : ∀ micros, op ≠ .setKeyDelay micros)
    {step : Step} (h : step ∈ op.steps) (micros : UInt32) : step ≠ .setKeyDelay micros := by
  rintro rfl
  cases op with
  | setKeyDelay micros => exact hop micros rfl
  | typeUtf32 values =>
    simp only [steps] at h
    split at h <;> simp at h
  | typeChar value =>
    simp only [steps] at h
    split at h <;> simp at h
  | _ => simp [steps] at h

theorem SteadySimulation.perform (h : SteadySimulation R) {op : Operation}
    (hop : ∀ micros, op ≠ .setKeyDelay micros) : Relates R (perform op) (perform op) :=
  relates_perform fun step hstep => h step (Operation.ne_setKeyDelay hop hstep)

namespace Simulation

theorem perform (h : Simulation R) (op : Operation) : Relates R (perform op) (perform op) :=
  relates_perform fun step _ => h step

/-- Two senders that do the same at every step do the same in every run. -/
theorem performAll (h : Simulation R) (ops : List Operation) :
    Relates R (performAll ops) (performAll ops) := by
  induction ops with
  | nil => exact .pure []
  | cons op ops ih =>
    exact (h.perform op).bind fun done => ih.bind fun others => .pure (done :: others)

end Simulation

/-! ## Invariants of one sender -/

/-- What the steps of an operation keep is kept by the operation. -/
theorem keeps_perform {I : Rig (Sender δ) → Prop} {op : Operation}
    (h : ∀ step ∈ op.steps, ∀ r, I r → I (step.run r).2) {r : Rig (Sender δ)} (hr : I r) :
    I (perform op r).2 := by
  -- an invariant is a simulation of the sender by itself
  have hsim : ∀ step ∈ op.steps, Alike (fun x y : Rig (Sender δ) => x = y ∧ I x) step := by
    rintro step hstep x y ⟨rfl, hx⟩
    exact ⟨rfl, rfl, h step hstep x hx⟩
  exact (relates_perform hsim r r ⟨rfl, hr⟩).2.2

/-- Every step of a sender keeps a property. -/
def Invariant (I : Rig (Sender δ) → Prop) : Prop := ∀ (step : Step) (r), I r → I (step.run r).2

theorem Invariant.performAll {I : Rig (Sender δ) → Prop} (h : Invariant I) (ops : List Operation)
    {r : Rig (Sender δ)} (hr : I r) : I (performAll ops r).2 := by
  induction ops generalizing r with
  | nil => exact hr
  | cons op ops ih => exact ih (keeps_perform (fun step _ => h step) hr)

end Sender

end Keystroke
