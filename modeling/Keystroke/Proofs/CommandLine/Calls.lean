import Keystroke.Proofs.CommandLine.Listening
import Keystroke.Proofs.CommandLine.Options
import Keystroke.Proofs.Config.RoundTrip
import Keystroke.Proofs.Driver.DeviceLife

/-!
# The calls of a run

What a run does with its sender can be read off the options: `Options.calls` lists the calls in
order, and `failure?` says why the run ends with an error, if it does. The actions of a run are put
together from parts of which each makes some calls and then ends well or not. The settings of the
sender and of the listener come from a file if there is one, as `Uses` says.

## Main statements

- `Does.bind`: what an action does that goes on as another one unless it fails.
- `does_sending`: what a run asks of its sender.
- `uses_iff`: which settings a run has.
- `runWith_spec`: the machine after a run, its exit code and its message.
- `run_makes_calls`: a run is nothing but the calls and a listener that is started and stopped,
  whatever the order of the options was.
-/

namespace Keystroke.CommandLine

open Sender (Operation performAll)

/-! ## What the options come to -/

/-- The keys of the names before the first one that is no name of a key. -/
def keysOf (names : List String) : List Key :=
  (names.takeWhile fun name => (Key.parse name).isOk).filterMap fun name =>
    (Key.parse name).toOption

/-- The first name that is no name of a key. -/
def badName? (names : List String) : Option String := names.find? fun name => !(Key.parse name).isOk

/-- The combination that the text is, if it is one. -/
def chord? (text : String) : Option Combo := (Combo.parse text).toOption

/-- Why the text is no combination. -/
def badCombo? (text : String) : Option ComboError :=
  match Combo.parse text with
  | .error e => some e
  | .ok _ => none

namespace Options

/-- Why a run ends before it comes to the text. -/
def refusal? (o : Options) : Option Failure :=
  ((badName? o.taps).map .unknownKeyName).or ((o.combo.bind badCombo?).map .combo)

/-- What a run asks of its sender to do, in order. What comes after a bad name or combination is
left out. -/
def actions (o : Options) : List Operation :=
  (if o.requestPermissions then [.requestPermissions] else []) ++
    ((keysOf o.taps).map .tap ++ if (badName? o.taps).isSome then [] else
      ((o.combo.bind chord?).map fun c => .combo c.modifiers c.key).toList ++
        if (o.combo.bind badCombo?).isSome then [] else (o.text.map .typeText).toList)

/-- All calls of the sender in a run, in order. -/
def calls (o : Options) : List Operation := (o.keyDelay.map .setKeyDelay).toList ++ o.actions

end Options

/-! ## Actions -/

section

variable {δ : Type} [KeyboardDriver δ]

/-- The action makes these calls of the sender, and then ends with the failure or well. -/
def Does (act : Action δ Unit) (ops : List Operation) (failure : Option Failure) : Prop :=
  ∀ s, (act.run.run s).1 = resultOf failure ∧ (act.run.run s).2.rig = (performAll ops s.rig).2

/-- Calls are made one after the other. -/
theorem performAll_append (ops ops' : List Operation) (r : Rig (Sender δ)) :
    (performAll (ops ++ ops') r).2 = (performAll ops' (performAll ops r).2).2 := by
  induction ops generalizing r with
  | nil => rfl
  | cons op ops ih => exact ih _

theorem does_nothing : Does (pure () : Action δ Unit) [] none := fun _ => ⟨rfl, rfl⟩

omit [KeyboardDriver δ] in
/-- What comes of an action that goes on as another one. -/
theorem run_bind (act next : Action δ Unit) (s : Stage δ) : (act >>= fun _ => next).run.run s =
    match (act.run.run s).1 with
    | .ok () => next.run.run (act.run.run s).2
    | .error f => (.error f, (act.run.run s).2) := by
  change ExceptT.bindCont (fun _ => next) (act.run.run s).1 (act.run.run s).2 = _
  cases (act.run.run s).1 <;> rfl

/-- An action that ends well is followed by the next. -/
theorem Does.andThen {act next : Action δ Unit} {ops ops' : List Operation}
    {failure : Option Failure} (h : Does act ops none) (h' : Does next ops' failure) :
    Does (act >>= fun _ => next) (ops ++ ops') failure := by
  intro s
  obtain ⟨hresult, hrig⟩ := h s
  obtain ⟨hresult', hrig'⟩ := h' (act.run.run s).2
  rw [run_bind, hresult, performAll_append, ← hrig]
  exact ⟨hresult', hrig'⟩

/-- After a failure there is nothing more. -/
theorem Does.broken {act : Action δ Unit} {ops : List Operation} {f : Failure}
    (h : Does act ops (some f)) (next : Action δ Unit) :
    Does (act >>= fun _ => next) ops (some f) := by
  intro s
  obtain ⟨hresult, hrig⟩ := h s
  rw [run_bind, hresult]
  exact ⟨rfl, hrig⟩

/-- What an action does that goes on as another one unless it fails. -/
theorem Does.bind {act next : Action δ Unit} {ops ops' : List Operation}
    {failure failure' : Option Failure} (h : Does act ops failure) (h' : Does next ops' failure') :
    Does (act >>= fun _ => next) (ops ++ if failure.isSome then [] else ops')
      (failure.or failure') := by
  cases failure with
  | none => exact h.andThen h'
  | some f =>
    rw [Option.isSome_some, if_pos rfl, List.append_nil]
    exact h.broken next

theorem does_requestPermissions :
    Does (requestPermissions : Action δ Unit) [.requestPermissions] none :=
  fun _ => ⟨rfl, rfl⟩

theorem does_typeText (s : String) : Does (typeText s : Action δ Unit) [.typeText s] none :=
  fun _ => ⟨rfl, rfl⟩

/-- The keys are tapped in order, up to the first name that is none. -/
theorem does_tapAll (names : List String) : Does (tapAll names : Action δ Unit)
    ((keysOf names).map .tap) ((badName? names).map .unknownKeyName) := by
  induction names with
  | nil => exact does_nothing
  | cons name rest ih =>
    cases hname : Key.parse name with
    | error e =>
      -- the bad name is neither tapped nor passed over
      have htap : Does (tap name : Action δ Unit) [] (some (.unknownKeyName name)) := by
        unfold tap
        rw [hname]
        exact fun s => ⟨rfl, rfl⟩
      have hbad : (Key.parse name).isOk = false := by rw [hname]; rfl
      rw [keysOf, badName?, List.takeWhile_cons, List.find?_cons, hbad]
      exact htap.broken (tapAll rest)
    | ok key =>
      have htap : Does (tap name : Action δ Unit) [.tap key] none := by
        unfold tap
        rw [hname]
        exact fun s => ⟨rfl, rfl⟩
      have hok : (Key.parse name).isOk = true := by rw [hname]; rfl
      rw [keysOf, badName?, List.takeWhile_cons, List.find?_cons, hok]
      simp only [if_true, List.filterMap_cons, hname]
      exact htap.andThen ih

/-- The combination is pressed if the text is one. -/
theorem does_press (text : String) : Does (press text : Action δ Unit)
    ((chord? text).map fun c => Operation.combo c.modifiers c.key).toList
    ((badCombo? text).map .combo) := by
  unfold press chord? badCombo?
  cases Combo.parse text <;> exact fun s => ⟨rfl, rfl⟩

/-- Does something with what there is, or nothing. -/
def whenGiven {α : Type} (act : α → Action δ Unit) : Option α → Action δ Unit
  | some a => act a
  | none => pure ()

/-- All that a run does but for listening. -/
def sending (o : Options) : Action δ Unit :=
  (if o.requestPermissions then requestPermissions else pure ()) >>= fun _ =>
    tapAll o.taps >>= fun _ => whenGiven press o.combo >>= fun _ => whenGiven typeText o.text

/-- The actions of a run end with listening. -/
theorem perform_eq {β : Type} [CaptureMechanism β] (backend : β) (o : Options) :
    (perform backend o : Action δ Unit) =
      sending o >>= fun _ => whenGiven (listen backend) o.listen := by
  unfold perform sending
  cases o.requestPermissions <;> cases o.combo <;> cases o.text <;> cases o.listen <;>
    simp [whenGiven]

/-- What a run asks of its sender, and why it does not come to listening. -/
theorem does_sending (o : Options) :
    Does (sending o : Action δ Unit) o.actions o.refusal? := by
  have hrequest : Does
      (if o.requestPermissions then requestPermissions else pure () : Action δ Unit)
      (if o.requestPermissions then [.requestPermissions] else []) none := by
    cases o.requestPermissions
    · exact does_nothing
    · exact does_requestPermissions
  have hcombo : Does (whenGiven press o.combo : Action δ Unit)
      ((o.combo.bind chord?).map fun c => Operation.combo c.modifiers c.key).toList
      ((o.combo.bind badCombo?).map .combo) := by
    cases o.combo with
    | none => exact does_nothing
    | some text => exact does_press text
  have htext : Does (whenGiven typeText o.text : Action δ Unit)
      (o.text.map .typeText).toList none := by
    cases o.text with
    | none => exact does_nothing
    | some s => exact does_typeText s
  have h := hrequest.andThen ((does_tapAll o.taps).bind (hcombo.bind htext))
  rw [sending, Options.refusal?, Options.actions]
  simpa only [Option.isSome_map, Option.or_none] using h

end

/-! ## The settings of a run -/

/-- The file to which a run looks for its settings: the one that was given, or else that in the
user's directory for configuration. -/
inductive SettingsPath (env : Environment) (o : Options) : String → Prop where
  | given {path : String} (hgiven : o.config = some path) : SettingsPath env o path
  | xdg {base : String} (hgiven : o.config = none)
      (hbase : env.lookup "XDG_CONFIG_HOME" = some base) :
      SettingsPath env o (Path.join (Path.join base "typr-io") "config.toml")
  | home {dir : String} (hgiven : o.config = none) (hbase : env.lookup "XDG_CONFIG_HOME" = none)
      (hdir : env.lookup "HOME" = some dir) :
      SettingsPath env o (Path.join (Path.join (Path.join dir ".config") "typr-io") "config.toml")

/-- What a run has for settings: those that its file gives, and the standard ones if it has no file
or cannot use it. -/
inductive Uses (m : Machine) (o : Options) : Settings → Prop where
  | loaded {path : String} {s : Settings} (hpath : SettingsPath m.env o path)
      (hload : Settings.load m.input.fs path = .ok s) : Uses m o s
  | unusable {path : String} {e : ConfigError} (hpath : SettingsPath m.env o path)
      (hload : Settings.load m.input.fs path = .error e) : Uses m o {}
  | missing (hnone : ∀ path, ¬ SettingsPath m.env o path) : Uses m o {}

theorem settingsPath_iff {env : Environment} {o : Options} {path : String} :
    SettingsPath env o path ↔ settingsPath? env o = some path := by
  constructor
  · intro h
    cases h with
    | given hgiven => rw [settingsPath?, hgiven, Option.some_or]
    | xdg hgiven hbase =>
      simp only [settingsPath?, Settings.filePath, Settings.directory, hgiven, hbase,
        Option.none_or]
      rfl
    | home hgiven hbase hdir =>
      simp only [settingsPath?, Settings.filePath, Settings.directory, hgiven, hbase, hdir,
        Option.none_or]
      rfl
  · intro h
    unfold settingsPath? at h
    cases hgiven : o.config with
    | some given =>
      rw [hgiven, Option.some_or, Option.some.injEq] at h
      exact h ▸ .given hgiven
    | none =>
      rw [hgiven, Option.none_or] at h
      unfold Settings.filePath Settings.directory at h
      cases hbase : env.lookup "XDG_CONFIG_HOME" with
      | some base =>
        rw [hbase] at h
        cases h
        exact .xdg hgiven hbase
      | none =>
        cases hdir : env.lookup "HOME" with
        | some dir =>
          rw [hbase, hdir] at h
          cases h
          exact .home hgiven hbase hdir
        | none =>
          rw [hbase, hdir] at h
          cases h

theorem settingsOf_of_path {m : Machine} {o : Options} {path : String}
    (h : SettingsPath m.env o path) :
    settingsOf m o = (Settings.load m.input.fs path).toOption.getD {} := by
  rw [settingsOf, settingsPath_iff.1 h]

theorem settingsOf_of_no_path {m : Machine} {o : Options}
    (h : ∀ path, ¬ SettingsPath m.env o path) : settingsOf m o = {} := by
  have hnone : settingsPath? m.env o = none :=
    Option.eq_none_iff_forall_ne_some.2 fun path hpath => h path (settingsPath_iff.2 hpath)
  rw [settingsOf, hnone]

/-- There are always such settings, and no others. -/
theorem uses_iff {m : Machine} {o : Options} {s : Settings} : Uses m o s ↔ s = settingsOf m o := by
  constructor
  · intro h
    cases h with
    | loaded hpath hload =>
      rw [settingsOf_of_path hpath, hload]
      rfl
    | unusable hpath hload =>
      rw [settingsOf_of_path hpath, hload]
      rfl
    | missing hnone => rw [settingsOf_of_no_path hnone]
  · rintro rfl
    -- a file that cannot be used counts as much as none
    by_cases hany : ∃ path, SettingsPath m.env o path
    · obtain ⟨path, hpath⟩ := hany
      rw [settingsOf_of_path hpath]
      cases hload : Settings.load m.input.fs path with
      | ok s => exact .loaded hpath hload
      | error e => exact .unusable hpath hload
    · rw [not_exists] at hany
      rw [settingsOf_of_no_path hany]
      exact .missing hany

/-! ## Runs -/

/-- A new sender with these settings. -/
def opened (m : Machine) (s : Settings) : Rig (Sender UinputDriver) :=
  let (driver, host) := UinputDriver.connect s.sender m.host
  ⟨{ driver }, host⟩

/-- The mechanism by which one listens with these settings. -/
def captureOf (m : Machine) (s : Settings) : EvdevMechanism where
  settings := s.listener
  layer := m.input
  script := m.script

/-- Why a run ends with an error. -/
def failure? (m : Machine) (s : Settings) (o : Options) : Option Failure :=
  o.refusal?.or (o.listen.bind fun _ => (listenError? (captureOf m s)).map .listener)

/-- The machine after the listening of a run, if it comes to that. -/
def hostAfter (m : Machine) (s : Settings) (o : Options) (h : Host) : Host :=
  match o.refusal?, o.listen with
  | none, some seconds => (listened (captureOf m s) seconds h).shared.host
  | _, _ => h

/-- The sender has a device if the machine does not refuse one. -/
theorem isReady_opened (m : Machine) (s : Settings) :
    (opened m s).front.isReady = m.host.uinput.refusal.isNone := by
  change (UinputDriver.connect s.sender m.host).1.device = _
  unfold UinputDriver.connect Host.createDevice
  cases m.host.uinput.refusal <;> rfl

/-- No call takes the device away. -/
theorem isReady_performAll (ops : List Operation) (r : Rig (Sender UinputDriver)) :
    (performAll ops r).2.front.isReady = r.front.isReady := by
  induction ops generalizing r with
  | nil => rfl
  | cons op ops ih =>
    rw [Sender.performAll_cons, ih]
    exact (Places.private_perform op _ r (.refl _)).device

/-- What comes of listening. -/
theorem run_listen {δ : Type} (c : EvdevMechanism) (seconds : UInt64) (s : Stage δ) :
    ((listen c seconds : Action δ Unit).run.run s).1 = resultOf ((listenError? c).map .listener) ∧
    ((listen c seconds : Action δ Unit).run.run s).2.rig =
      { s.rig with host := (listened c seconds s.rig.host).shared.host } := by
  unfold listenError?
  cases hopen : Evdev.openAll c.layer c.settings.deviceDir with
  | error e =>
    rw [listen_error seconds s hopen]
    exact ⟨rfl, rfl⟩
  | ok keyboards =>
    obtain ⟨lines, hrun⟩ := listen_ok seconds s hopen
    rw [hrun]
    exact ⟨rfl, rfl⟩

/-- What comes of the actions of a run. -/
theorem run_perform (m : Machine) (s : Settings) (o : Options) (stage : Stage UinputDriver) :
    ((perform (captureOf m s) o : Action UinputDriver Unit).run.run stage).1 =
      resultOf (failure? m s o) ∧
    ((perform (captureOf m s) o : Action UinputDriver Unit).run.run stage).2.rig =
      { (performAll o.actions stage.rig).2 with
        host := hostAfter m s o (performAll o.actions stage.rig).2.host } := by
  obtain ⟨hresult, hrig⟩ := does_sending o stage
  rw [perform_eq, run_bind, hresult]
  unfold failure? hostAfter
  cases o.refusal? with
  | some f => exact ⟨rfl, hrig⟩
  | none =>
    cases hlisten : o.listen with
    | none => exact ⟨rfl, hrig⟩
    | some seconds =>
      -- listening takes over the machine as the calls have left it
      rw [← hrig]
      exact run_listen (captureOf m s) seconds _

/-- Without an action nothing is asked of the sender, and nothing can fail. -/
theorem idle_of_not_acts {o : Options} (h : o.acts = false) :
    o.actions = [] ∧ o.refusal? = none ∧ o.listen = none := by
  simp only [Options.acts, Bool.or_eq_false_iff, Bool.not_eq_false', List.isEmpty_iff,
    Option.isSome_eq_false_iff, Option.isNone_iff_eq_none] at h
  obtain ⟨⟨⟨⟨htext, htaps⟩, hcombo⟩, hlisten⟩, hrequest⟩ := h
  simp [Options.actions, Options.refusal?, keysOf, badName?, htext, htaps, hcombo, hlisten,
    hrequest]

/-- What a run does after it has told what the sender can do. -/
def acting (m : Machine) (s : Settings) (o : Options) : Action UinputDriver Unit :=
  if o.acts then perform (captureOf m s) o else say ("" :: helpLines)

/-- What comes of what a run does after that. -/
theorem run_acting (m : Machine) (s : Settings) (o : Options) (stage : Stage UinputDriver) :
    ((acting m s o).run.run stage).1 = resultOf (failure? m s o) ∧
    ((acting m s o).run.run stage).2.rig = { (performAll o.actions stage.rig).2 with
      host := hostAfter m s o (performAll o.actions stage.rig).2.host } := by
  unfold acting
  cases hacts : o.acts with
  | true => exact run_perform m s o stage
  | false =>
    obtain ⟨hactions, hrefusal, hlisten⟩ := idle_of_not_acts hacts
    rw [failure?, hrefusal, hlisten, hactions, hostAfter, hrefusal, hlisten]
    exact ⟨rfl, rfl⟩

/-- The outcome of a run that ends so. -/
def outcomeOf (result : Except Failure Unit) (s : Stage UinputDriver) : Outcome :=
  let ended : Outcome := { stdout := unlines s.lines, host := s.rig.front.close s.rig.host }
  match result with
  | .ok () => ended
  | .error f => { ended with exit := 1, stderr := f.report }

/-- A run opens its sender, sets the delay, tells what the sender can do and acts. -/
theorem runWith_eq (m : Machine) (o : Options) : runWith m o =
    let s := settingsOf m o
    let rig := (performAll (o.keyDelay.map .setKeyDelay).toList (opened m s)).2
    let out := (acting m s o).run.run { rig, lines := senderLines rig.front }
    outcomeOf out.1 out.2 := by
  unfold runWith
  cases o.keyDelay <;> rfl

/-- The sender after the calls of a run. -/
def sent (m : Machine) (s : Settings) (o : Options) : Rig (Sender UinputDriver) :=
  (performAll o.calls (opened m s)).2

/-- The machine after a run, its exit code and its message. -/
theorem runWith_spec (m : Machine) (o : Options) :
    (runWith m o).host = (sent m (settingsOf m o) o).front.close
      (hostAfter m (settingsOf m o) o (sent m (settingsOf m o) o).host) ∧
    ((runWith m o).exit, (runWith m o).stderr) =
      match failure? m (settingsOf m o) o with | some f => (1, f.report) | none => (0, "") := by
  rw [runWith_eq, sent, Options.calls, performAll_append]
  dsimp only
  generalize settingsOf m o = s
  generalize (performAll (o.keyDelay.map .setKeyDelay).toList (opened m s)).2 = rig
  obtain ⟨hresult, hrig⟩ := run_acting m s o { rig, lines := senderLines rig.front }
  rw [hresult]
  unfold outcomeOf
  rw [hrig]
  cases failure? m s o <;> exact ⟨rfl, rfl⟩

/-- Listening leaves nothing but polls, and nothing if it fails. -/
theorem journal_hostAfter (m : Machine) (s : Settings) (o : Options) (h : Host) :
    ∃ polls, (hostAfter m s o h).journal = h.journal ++ polls ∧ (∀ entry ∈ polls, entry.IsPoll) ∧
      (o.listen = none ∨ (failure? m s o).isSome → polls = []) := by
  have hnothing : hostAfter m s o h = h →
      ∃ polls, (hostAfter m s o h).journal = h.journal ++ polls ∧
        (∀ entry ∈ polls, entry.IsPoll) ∧
          (o.listen = none ∨ (failure? m s o).isSome → polls = []) :=
    fun heq => ⟨[], by rw [heq, List.append_nil], List.forall_mem_nil _, fun _ => rfl⟩
  cases hrefusal : o.refusal? with
  | some f => exact hnothing (by rw [hostAfter, hrefusal])
  | none =>
    cases hlisten : o.listen with
    | none =>
      rw [hlisten] at hnothing
      exact hnothing (by rw [hostAfter, hrefusal, hlisten])
    | some seconds =>
      have hafter : hostAfter m s o h = (listened (captureOf m s) seconds h).shared.host := by
        rw [hostAfter, hrefusal, hlisten]
      rw [hafter, failure?, hrefusal, hlisten]
      cases hopen : Evdev.openAll (captureOf m s).layer (captureOf m s).settings.deviceDir with
      | error e =>
        rw [host_listened_error hopen]
        exact ⟨[], (List.append_nil _).symm, List.forall_mem_nil _, fun _ => rfl⟩
      | ok keyboards =>
        obtain ⟨polls, hpolls, hpoll⟩ := (leaves_listened (captureOf m s) seconds h).journal
        refine ⟨polls, hpolls, hpoll, ?_⟩
        simp [listenError?, hopen]

/-- What comes of a run with these settings. -/
structure Executes (m : Machine) (s : Settings) (o : Options) (out : Outcome) : Prop where
  /-- Without an action the sender is opened and given up. -/
  idle : o.text = none → o.taps = [] → o.combo = none → o.listen = none →
    o.requestPermissions = false →
      out.host = (opened m s).front.close (opened m s).host ∧ out.exit = 0 ∧ out.stderr = ""
  /-- A run that does not listen, or does not come to it, makes its calls and gives the sender
  up. -/
  silent : o.refusal?.isSome ∨ o.listen = none →
    out.host = (sent m s o).front.close (sent m s o).host
  /-- Otherwise it listens in between. -/
  listens : ∀ seconds, o.refusal? = none → o.listen = some seconds → ∃ h,
    Listens (captureOf m s) seconds (sent m s o).host (resultOf (listenError? (captureOf m s))) h ∧
      out.host = (sent m s o).front.close h
  /-- The journal is that of the calls, up to polls and the end of the device. -/
  journal : ∃ polls, out.host.journal = (sent m s o).host.journal ++ polls ++
      (if m.host.uinput.refusal.isNone then [.destroyed] else []) ∧
    (∀ entry ∈ polls, entry.IsPoll) ∧ (o.listen = none ∨ (failure? m s o).isSome → polls = [])
  /-- The run ends with the first error, if there is one. -/
  outcome : (out.exit, out.stderr) =
    match failure? m s o with | some f => (1, f.report) | none => (0, "")

theorem executes_runWith (m : Machine) (o : Options) :
    Executes m (settingsOf m o) o (runWith m o) := by
  obtain ⟨hhost, houtcome⟩ := runWith_spec m o
  generalize settingsOf m o = s at hhost houtcome ⊢
  constructor
  case idle =>
    intro htext htaps hcombo hlisten hrequest
    have hacts : o.acts = false := by simp [Options.acts, htext, htaps, hcombo, hlisten, hrequest]
    obtain ⟨hactions, hrefusal, -⟩ := idle_of_not_acts hacts
    rw [failure?, hrefusal, hlisten] at houtcome
    -- the delay may be set all the same, which leaves no entry
    rw [hhost, hostAfter, hrefusal, hlisten, sent, Options.calls, hactions, List.append_nil]
    refine ⟨?_, congrArg Prod.fst houtcome, congrArg Prod.snd houtcome⟩
    cases o.keyDelay <;> rfl
  case silent =>
    intro h
    rw [hhost, hostAfter]
    obtain h | h := h
    · obtain ⟨f, hf⟩ := Option.isSome_iff_exists.1 h
      rw [hf]
    · rw [h]
      cases o.refusal? <;> rfl
  case listens =>
    intro seconds hrefusal hlisten
    rw [hhost, hostAfter, hrefusal, hlisten]
    exact ⟨_, listens_listened _ _ _, rfl⟩
  case journal =>
    obtain ⟨polls, hpolls, hpoll, hnone⟩ := journal_hostAfter m s o (sent m s o).host
    refine ⟨polls, ?_, hpoll, hnone⟩
    rw [hhost, Places.journal_close, sent, isReady_performAll, isReady_opened, ← sent, hpolls]
  case outcome => exact houtcome

/-- **The command line is a sequence of calls** of one sender. The settings of a run are those of
the file that was given or that the environment names, and the standard ones if there is none that
can be used; `Uses` says so. The sender is opened with them. Without an action it is given up again.
Otherwise the calls are `Options.calls`: the delay is set if it was given, permissions are asked
for, keys are tapped up to the first bad name, and unless there is one the combination is pressed
and the text is typed, if the combination is one. A run that comes so far then listens if it is to:
a listener with the settings is started and stopped. In the end the device is destroyed, if it was
created. The run ends with an error if a name or the combination is bad or if the listener cannot
be started, the first of these. The order of the options makes no difference but for that of the
taps. -/
theorem run_makes_calls (m : Machine) {args : List String} {o : Options} (h : parse args = .run o) :
    (∃ s, (∀ s', Uses m o s' ↔ s' = s) ∧ Executes m s o (run m args)) ∧
    ∀ args' items items', Splits args items → Splits args' items' → items.Perm items' →
      given .tap items = given .tap items' → run m args' = run m args := by
  have hrun : run m args = runWith m o := by rw [run, h]
  rw [hrun]
  refine ⟨⟨settingsOf m o, fun _ => uses_iff, executes_runWith m o⟩, ?_⟩
  intro args' items items' hitems hitems' hperm htaps
  -- the other order asks for the same options, and a run depends on nothing else
  obtain ⟨items₀, hitems₀, hgive⟩ := parse_eq_run_iff.1 h
  obtain rfl := hitems.unique hitems₀
  rw [giveAll_eq_of_perm hperm htaps] at hgive
  rw [run, parse_eq_run_iff.2 ⟨items', hitems', hgive⟩]

/-! A user has a file for all runs, and another one for the bench. -/

def userFile : String := "[listener]\ndevice_dir = \"inputs\"\n"

def benchFile : String := "[sender]\nsettle_ms = 0\ndevice_name = \"Bench\"\n"

/-- A machine with both files and a keyboard. -/
def bench : Machine where
  env := [("XDG_CONFIG_HOME", "conf")]
  input := {
    fs := { nodes := [(["work"], .dir), (["work", "bench.toml"], .file benchFile.toUTF8),
      (["work", "conf"], .dir), (["work", "conf", "typr-io"], .dir),
      (["work", "conf", "typr-io", "config.toml"], .file userFile.toUTF8),
      (["work", "inputs"], .dir), (["work", "inputs", "event0"], .file .empty)] }
    devices := [("event0", {})] }

def userSettings : Settings where
  listener := { deviceDir := "inputs" }

def benchSettings : Settings where
  sender := { deviceName := "Bench", settleMillis := 0 }

theorem load_userFile :
    Settings.load bench.input.fs "conf/typr-io/config.toml" = .ok userSettings := by
  have hread : bench.input.fs.readText "conf/typr-io/config.toml" = .ok userFile :=
    FileSystem.readText_of_file rfl rfl
  exact Settings.load_of_readText hread (by decide +kernel)

theorem load_benchFile : Settings.load bench.input.fs "bench.toml" = .ok benchSettings := by
  have hread : bench.input.fs.readText "bench.toml" = .ok benchFile :=
    FileSystem.readText_of_file rfl rfl
  exact Settings.load_of_readText hread (by decide +kernel)

/-- A command line with a name that is none of a key. -/
def badTap : List String :=
  ["--tap", "b", "--key-delay=9", "--config", "bench.toml", "--type", "x", "--tap", "nokey",
    "--request-permissions"]

/-- The same options in another order. -/
def badTapSorted : List String :=
  ["--config=bench.toml", "--request-permissions", "--key-delay", "9", "--tap=b", "--tap", "nokey",
    "--type=x", "--"]

/-- The options of both. -/
def badTapOptions : Options where
  text := "x"
  taps := ["b", "nokey"]
  requestPermissions := true
  keyDelay := some 9
  config := "bench.toml"

theorem badName?_badTap : badName? badTapOptions.taps = some "nokey" := by decide +kernel

theorem refusal?_badTap : badTapOptions.refusal? = some (.unknownKeyName "nokey") := by
  rw [Options.refusal?, badName?_badTap]
  rfl

/-- What stands before the bad name is done. -/
theorem calls_badTap : badTapOptions.calls = [.setKeyDelay 9, .requestPermissions, .tap .b] := by
  have hkeys : keysOf badTapOptions.taps = [.b] := by decide +kernel
  rw [Options.calls, Options.actions, hkeys, badName?_badTap]
  rfl

/-- With the file for the bench a run ends at a bad name, and its device is given up. With that of
the user a run finds the keyboard and listens. -/
theorem run_makes_calls_bench :
    (parse badTap = .run badTapOptions ∧
      (run bench badTap).host.journal =
        [.created (UinputDriver.keyboard { deviceName := "Bench" }), .wrote [⟨1, 48, 1⟩],
          .slept 9, .wrote [⟨1, 48, 0⟩], .destroyed] ∧
      ((run bench badTap).exit, (run bench badTap).stderr) =
        (1, "Error: unknown key name 'nokey'\n") ∧
      run bench badTapSorted = run bench badTap) ∧
    (parse ["--listen=2"] = .run { listen := some 2 } ∧
      (∃ h, Listens (captureOf bench userSettings) 2
        (opened bench userSettings).host (.ok ()) h) ∧
      (∃ polls, (run bench ["--listen=2"]).host.journal =
          [.created (UinputDriver.keyboard {}), .slept 100000] ++ polls ++ [.destroyed] ∧
        ∀ entry ∈ polls, entry.IsPoll) ∧
      ((run bench ["--listen=2"]).exit, (run bench ["--listen=2"]).stderr) = (0, "")) := by
  have hsplits : Splits badTap [.valued .tap "b", .valued .keyDelay "9",
      .valued .config "bench.toml", .valued .text "x", .valued .tap "nokey",
      .requestPermissions] :=
    .apart rfl rfl rfl (.joined rfl rfl (.apart rfl rfl rfl (.apart rfl rfl rfl
      (.apart rfl rfl rfl (.requestPermissions rfl .nil)))))
  have hsorted : Splits badTapSorted [.valued .config "bench.toml", .requestPermissions,
      .valued .keyDelay "9", .valued .tap "b", .valued .tap "nokey", .valued .text "x"] :=
    .joined rfl rfl (.requestPermissions rfl (.apart rfl rfl rfl (.joined rfl rfl
      (.apart rfl rfl rfl (.joined rfl rfl (.separator rfl))))))
  have hkeyboard : listenError? (captureOf bench userSettings) = none := by decide +kernel
  constructor
  · have hparse : parse badTap = .run badTapOptions := rfl
    obtain ⟨⟨s, hs, hrun⟩, horder⟩ := run_makes_calls bench hparse
    obtain rfl := (hs _).1 (.loaded (.given rfl) load_benchFile)
    refine ⟨hparse, ?_, ?_, horder _ _ _ hsplits hsorted (by decide) (by decide)⟩
    · have hrefused : badTapOptions.refusal?.isSome := by rw [refusal?_badTap, Option.isSome_some]
      rw [hrun.silent (.inl hrefused), sent, calls_badTap]
      rfl
    · rw [hrun.outcome, failure?, refusal?_badTap]
      decide +kernel
  · have hsent : sent bench userSettings { listen := some 2 } = opened bench userSettings := rfl
    have hopened : (opened bench userSettings).host.journal =
        [.created (UinputDriver.keyboard {}), .slept 100000] := rfl
    have hfailure : failure? bench userSettings { listen := some 2 } = none := by
      rw [failure?, Option.bind_some, hkeyboard]
      rfl
    have hparse : parse ["--listen=2"] = .run { listen := some 2 } := rfl
    obtain ⟨⟨s, hs, hrun⟩, -⟩ := run_makes_calls bench hparse
    obtain rfl := (hs _).1 (.loaded (.xdg rfl rfl) load_userFile)
    obtain ⟨h, hlistens, -⟩ := hrun.listens 2 rfl rfl
    obtain ⟨polls, hjournal, hpolls, -⟩ := hrun.journal
    rw [hkeyboard, hsent] at hlistens
    rw [hsent, hopened] at hjournal
    refine ⟨hparse, ⟨h, hlistens⟩, ⟨polls, hjournal, hpolls⟩, ?_⟩
    rw [hrun.outcome, hfailure]

end Keystroke.CommandLine
