import Keystroke.Proofs.Driver.Reports

/-!
# What drivers say about themselves

A driver says whether it is ready, what it is capable of and what is wrong with it. Some of this is
stored when the driver is opened and some is worked out when it is asked for, while on macOS the
permission may be granted and taken back any number of times in between. The answers agree at any
time all the same: of all that can be asked of a driver, only the request for permissions touches
what they are made of, and it renews the stored ones.

## Main statements

- `Backend.keeps_bare`: what requests other than the one for permissions leave as it is.
- `Backend.coherent_run`: every incident keeps the answers of a driver in agreement.
- `standing_is_coherent`: at any time in the life of a driver its answers agree with its readiness,
  which only a request for permissions changes, and only on macOS.
-/

namespace Keystroke

/-! ## The life of a driver -/

/-- Something that happens to a driver or to its machine. -/
inductive Incident where
  | request (what : Request)
  /-- The machine refuses and permits other things from now on. -/
  | change (uinput : UinputPort) (quartz : QuartzPort) (windows : WindowsPort)

namespace Incident

variable {δ : Type} [KeyboardDriver δ]

def run : Incident → Rig δ → Rig δ
  | .request what, r => (what.run r).2
  | .change uinput quartz windows, r => { r with host := { r.host with uinput, quartz, windows } }

/-- The driver and its machine after a number of incidents. -/
def runAll (xs : List Incident) (r : Rig δ) : Rig δ := xs.foldl (fun r x => x.run r) r

/-- What every incident keeps is kept for life. -/
theorem runAll_induction {J : Rig δ → Prop} (hrun : ∀ (x : Incident) r, J r → J (x.run r))
    (xs : List Incident) {r : Rig δ} (hr : J r) : J (runAll xs r) := by
  induction xs generalizing r with
  | nil => exact hr
  | cons x xs ih => exact ih (hrun x r hr)

end Incident

namespace Backend

/-- The driver of a backend as it is opened on a machine, and the machine after that. -/
def opened (b : Backend) (s : SenderSettings) (h : Host) : Rig b.Driver :=
  ⟨(b.connect s h).1, (b.connect s h).2⟩

/-- Whether a machine has what the driver of a backend needs to be ready at once. -/
def obtainable (b : Backend) (h : Host) : Bool :=
  match b with
  | .linuxUinput => h.uinput.refusal.isNone
  | .macos => h.newSource.1 && h.quartz.trusted
  | .windows => true
  | .mock => false

theorem isReady_opened (b : Backend) (s : SenderSettings) (h : Host) :
    KeyboardDriver.isReady (b.opened s h).front = b.obtainable h := by
  cases b with
  | linuxUinput =>
    show (UinputDriver.connect s h).1.device = h.uinput.refusal.isNone
    unfold UinputDriver.connect Host.createDevice
    cases h.uinput.refusal <;> rfl
  | macos | windows | mock => rfl

/-! ## What the answers are made of -/

/-- A driver without what it needs for sending only: its delay, the keys that it holds down and the
record of what it has sent. -/
def bare : (b : Backend) → b.Driver → b.Driver
  | .linuxUinput => fun (d : UinputDriver) => { d with keyDelay := .zero }
  | .macos => fun (d : QuartzDriver) => { d with keyDelay := .zero, held := {} }
  | .windows => fun (d : SendInputDriver) => { d with keyDelay := .zero }
  | .mock => fun (d : Recorder) => { d with keyDelay := .zero, record := [] }

section

variable {b : Backend}

@[simp] theorem isReady_bare (d : b.Driver) :
    KeyboardDriver.isReady (b.bare d) = KeyboardDriver.isReady d := by
  cases b <;> rfl

@[simp] theorem capabilities_bare (d : b.Driver) :
    KeyboardDriver.capabilities (b.bare d) = KeyboardDriver.capabilities d := by
  cases b <;> rfl

@[simp] theorem diagnostic_bare (d : b.Driver) :
    KeyboardDriver.diagnostic (b.bare d) = KeyboardDriver.diagnostic d := by
  cases b <;> rfl

/-- Sending, waiting and setting the delay leave what the answers are made of. -/
theorem keeps_bare {request : Request} (h : request ≠ .requestPermissions) (d : b.Driver) :
    Keeps (fun r => b.bare r.front = d) (request.run (δ := b.Driver)) := by
  have hJ : Rig.SeesOnlyReports fun r : Rig b.Driver => b.bare r.front = d := fun _ _ _ hr => hr
  -- for each driver the changes are the ones that `bare` takes away
  cases b with
  | linuxUinput => exact UinputDriver.keeps_run hJ (fun _ _ hr => hr) h
  | macos => exact QuartzDriver.keeps_run hJ (fun _ _ hr => hr) (fun _ _ hr => hr) h
  | windows => exact SendInputDriver.keeps_run hJ (fun _ _ hr => hr) h
  | mock => exact Recorder.keeps_run (fun _ _ hr => hr) hJ (fun _ _ hr => hr) h

/-- An incident other than a request for permissions leaves what the answers are made of. -/
theorem bare_run {x : Incident} (h : x ≠ .request .requestPermissions) (r : Rig b.Driver) :
    b.bare (x.run r).front = b.bare r.front := by
  cases x with
  | request what =>
    refine keeps_bare ?_ _ r rfl
    rintro rfl
    exact h rfl
  | change => rfl

/-- Where no permission can be asked for, the request only looks at the driver. -/
theorem requestPermissions_of_ne_macos (h : b ≠ .macos) (r : Rig b.Driver) :
    KeyboardDriver.requestPermissions r = (KeyboardDriver.isReady r.front, r) := by
  cases b with
  | macos => exact absurd rfl h
  | linuxUinput | windows | mock => rfl

theorem isReady_requestPermissions (r : Rig b.Driver) :
    (KeyboardDriver.requestPermissions r).1 =
      KeyboardDriver.isReady (KeyboardDriver.requestPermissions r).2.front := by
  cases b <;> rfl

/-- Only a request for permissions makes a driver ready or not, and only on macOS. -/
theorem isReady_run_ne {x : Incident} {r : Rig b.Driver}
    (h : KeyboardDriver.isReady (x.run r).front ≠ KeyboardDriver.isReady r.front) :
    b = .macos ∧ x = .request .requestPermissions := by
  by_cases hx : x = .request .requestPermissions
  · subst hx
    refine ⟨Decidable.byContradiction fun hb => h ?_, rfl⟩
    show KeyboardDriver.isReady (KeyboardDriver.requestPermissions r).2.front = _
    rw [requestPermissions_of_ne_macos hb]
  · apply absurd _ h
    rw [← isReady_bare, bare_run hx, isReady_bare]

end

/-! ## Agreement -/

/-- What a driver says of itself agrees with whether it is ready. Texts are not typed with the keys
of a virtual keyboard, and nothing is ever wrong with the driver on Windows. -/
structure Coherent (b : Backend) (d : b.Driver) : Prop where
  keys : (KeyboardDriver.capabilities d).injectKeys = KeyboardDriver.isReady d
  text : (KeyboardDriver.capabilities d).injectText =
    (decide (b ≠ .linuxUinput) && KeyboardDriver.isReady d)
  diagnostic : b ≠ .windows → (KeyboardDriver.diagnostic d).isSome = !KeyboardDriver.isReady d

section

variable {b : Backend}

theorem Coherent.of_bare_eq {d d' : b.Driver} (h : b.Coherent d) (hsame : b.bare d' = b.bare d) :
    b.Coherent d' := by
  have hready : KeyboardDriver.isReady d' = KeyboardDriver.isReady d := by
    rw [← isReady_bare, hsame, isReady_bare]
  have hcapable : KeyboardDriver.capabilities d' = KeyboardDriver.capabilities d := by
    rw [← capabilities_bare, hsame, capabilities_bare]
  have hwrong : KeyboardDriver.diagnostic d' = KeyboardDriver.diagnostic d := by
    rw [← diagnostic_bare, hsame, diagnostic_bare]
  constructor
  · rw [hcapable, hready]
    exact h.keys
  · rw [hcapable, hready]
    exact h.text
  · rw [hwrong, hready]
    exact h.diagnostic

/-- A macOS driver that has just been diagnosed agrees with itself, whatever it was before. -/
theorem coherent_diagnose (d : QuartzDriver) (h : Host) :
    Backend.Coherent .macos (QuartzDriver.diagnose d h).1 where
  keys := rfl
  text := rfl
  diagnostic _ := by
    show d.obstacle.isSome = !d.isReady
    cases hobstacle : d.obstacle with
    | none => simp [(QuartzDriver.obstacle_eq_none_iff d).1 hobstacle]
    | some message =>
      cases hready : d.isReady with
      | true => simp [(QuartzDriver.obstacle_eq_none_iff d).2 hready] at hobstacle
      | false => rfl

theorem coherent_opened (b : Backend) (s : SenderSettings) (h : Host) :
    b.Coherent (b.opened s h).front := by
  cases b with
  | linuxUinput =>
    show Coherent .linuxUinput (UinputDriver.connect s h).1
    unfold UinputDriver.connect Host.createDevice
    -- the capability is set with the device, the diagnostic where there is none
    cases h.uinput.refusal with
    | none => exact ⟨rfl, rfl, fun _ => rfl⟩
    | some e => exact ⟨rfl, rfl, fun _ => rfl⟩
  | macos => exact coherent_diagnose _ h.newSource.2
  | windows => exact ⟨rfl, rfl, fun h => absurd rfl h⟩
  | mock => exact ⟨rfl, rfl, fun _ => rfl⟩

theorem coherent_run (x : Incident) (r : Rig b.Driver) (h : b.Coherent r.front) :
    b.Coherent (x.run r).front := by
  by_cases hx : x = .request .requestPermissions
  · subst hx
    show b.Coherent (KeyboardDriver.requestPermissions r).2.front
    by_cases hb : b = .macos
    · -- what was stored is renewed together with the permission
      subst hb
      exact coherent_diagnose _ r.host.promptForTrust.2
    · rw [requestPermissions_of_ne_macos hb]
      exact h
  · exact h.of_bare_eq (bare_run hx r)

end

/-! ## The event source -/

theorem source_bare (d : QuartzDriver) : QuartzDriver.source (bare .macos d) = d.source := rfl

theorem source_run (x : Incident) (r : Rig QuartzDriver) :
    (x.run r).front.source = r.front.source := by
  by_cases hx : x = .request .requestPermissions
  · subst hx
    rfl
  · rw [← source_bare, bare_run hx, source_bare]

/-- Whether there is an event source is settled when the driver is opened. -/
theorem source_runAll (s : SenderSettings) (h : Host) (xs : List Incident) :
    (Incident.runAll xs (opened .macos s h)).front.source = h.newSource.1 :=
  Incident.runAll_induction (J := fun r : Rig QuartzDriver => r.front.source = h.newSource.1)
    (fun x r hr => (source_run x r).trans hr) xs rfl

end Backend

/-- **Readiness and what is said about it**: however a driver was opened, and whatever has happened
to it and its machine since, its capabilities and its diagnostic agree with its readiness. A request
for permissions answers with the readiness that holds after it. Nothing else changes the readiness,
and it does so only on macOS, where a driver that was opened without an event source never becomes
ready. -/
theorem standing_is_coherent (b : Backend) (s : SenderSettings) (h : Host) (xs : List Incident) :
    let r := Incident.runAll xs (b.opened s h)
    let asked := KeyboardDriver.requestPermissions r
    KeyboardDriver.isReady (b.opened s h).front = b.obtainable h ∧
      b.Coherent r.front ∧
      asked.1 = KeyboardDriver.isReady asked.2.front ∧
      (∀ x : Incident, KeyboardDriver.isReady (x.run r).front ≠ KeyboardDriver.isReady r.front →
        b = .macos ∧ x = .request .requestPermissions) ∧
      (b = .macos → asked.1 = (h.newSource.1 && r.host.promptForTrust.1)) ∧
      (b = .macos → h.newSource.1 = false → KeyboardDriver.isReady r.front = false) := by
  intro r asked
  have hcoherent : b.Coherent r.front :=
    Incident.runAll_induction (J := fun r => b.Coherent r.front) Backend.coherent_run xs
      (Backend.coherent_opened b s h)
  refine ⟨b.isReady_opened s h, hcoherent, Backend.isReady_requestPermissions r,
    fun x hx => Backend.isReady_run_ne hx, ?_, ?_⟩
  · rintro rfl
    show (r.front.source && r.host.promptForTrust.1) = _
    rw [Backend.source_runAll]
  · rintro rfl hnone
    show (r.front.source && r.front.trusted) = false
    rw [Backend.source_runAll, hnone, Bool.false_and]

/-- A permission that is granted, taken back by the user after a key was pressed, and noticed only
when the driver asks for it; and a machine that has the permission but makes no event source. -/
theorem standing_is_coherent_withdrawn :
    let ask : Incident := .request .requestPermissions
    let xs : List Incident :=
      [.change {} { trusted := true } {}, ask, .request (.sendKey .a true),
        .change {} { trusted := false } {}]
    let r := Incident.runAll xs (Backend.opened .macos {} { quartz := { trusted := false } })
    let blind := Incident.runAll xs
      (Backend.opened .macos {} { quartz := { sourceFault := fun _ => true } })
    KeyboardDriver.isReady r.front = true ∧ KeyboardDriver.isReady (ask.run r).front = false ∧
      Backend.Coherent .macos r.front ∧ Backend.Coherent .macos (ask.run r).front ∧
      (KeyboardDriver.requestPermissions r).1 = false ∧
      KeyboardDriver.isReady blind.front = false := by
  intro ask xs r blind
  have hlife := standing_is_coherent .macos {} { quartz := { trusted := false } }
  refine ⟨rfl, rfl, (hlife xs).2.1, (hlife (xs ++ [ask])).2.1, ?_, ?_⟩
  · exact (hlife xs).2.2.2.2.1 rfl
  · exact (standing_is_coherent .macos {} _ xs).2.2.2.2.2 rfl rfl

end Keystroke
