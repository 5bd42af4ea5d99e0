import Keystroke.Proofs.Capture.Hotplug
import Keystroke.Proofs.Listener.FailedStart

/-!
# Which keyboards are opened

At the start of a session all event nodes of a directory are tried in order. Behind them there may
be keyboards and other devices; some may not be opened, some cannot be. One keyboard is enough, and
then it does not matter what came of the other nodes. If there is none the error says whether that
may be for want of permission, and the start of the listener fails with it.

## Main statements

- `keyboardsOf_eq`, `deniedCount_eq`: what comes of trying some nodes, node by node.
- `openingLaws`: what comes of opening the keyboards in a directory.
- `opening_keyboards`: the same, together with the failure of a listener that has no keyboard.
-/

namespace Keystroke

namespace InputDevice

/-- The device can be captured: it can be opened, it has a letter and Enter, and reading from it can
be made to return at once. -/
structure Usable (d : InputDevice) : Prop where
  admitted : d.refusal = none
  keys : ∃ keys, d.keys = some keys ∧ letterA ∈ keys ∧ enter ∈ keys
  pollable : d.pollable = true

/-- The device may not be opened. -/
def Denied (d : InputDevice) : Prop :=
  d.refusal = some .permissionDenied ∨ d.refusal = some .notPermitted

instance (d : InputDevice) : Decidable d.Denied := inferInstanceAs (Decidable (_ ∨ _))

theorem isKeyboard_iff {d : InputDevice} :
    d.isKeyboard = true ↔ ∃ keys, d.keys = some keys ∧ letterA ∈ keys ∧ enter ∈ keys := by
  simp [isKeyboard, Option.any_eq_true]

theorem usable_iff {d : InputDevice} :
    d.Usable ↔ (d.refusal.isNone && (d.isKeyboard && d.pollable)) = true := by
  rw [Bool.and_eq_true, Bool.and_eq_true, Option.isNone_iff_eq_none, isKeyboard_iff]
  exact ⟨fun ⟨h, h', h''⟩ => ⟨h, h', h''⟩, fun ⟨h, h', h''⟩ => ⟨h, h', h''⟩⟩

instance (d : InputDevice) : Decidable d.Usable := decidable_of_iff _ usable_iff.symm

end InputDevice

namespace Evdev

variable {k : InputLayer} {dir : String} {nodes : List String}

/-! ## Node by node -/

/-- A node gives a keyboard if the device behind it is usable, and nothing otherwise. -/
theorem toOption_keyboard? (k : InputLayer) (node : String) :
    (keyboard? k node).toOption.join =
      if (k.device node).Usable then some ⟨node, k.device node⟩ else none := by
  unfold keyboard?
  dsimp only
  cases hrefusal : (k.device node).refusal with
  | some e =>
    have hnot : ¬ (k.device node).Usable := by simp [InputDevice.usable_iff, hrefusal]
    rw [if_neg hnot]
    rfl
  | none =>
    by_cases husable : (k.device node).Usable
    · have hkeys : ((k.device node).isKeyboard && (k.device node).pollable) = true := by
        simpa [InputDevice.usable_iff, hrefusal] using husable
      rw [if_pos husable, if_pos hkeys]
      rfl
    · have hkeys : ¬ ((k.device node).isKeyboard && (k.device node).pollable) = true := by
        simpa [InputDevice.usable_iff, hrefusal] using husable
      rw [if_neg husable, if_neg hkeys]
      rfl

/-- The keyboards are the usable nodes, in the order of the nodes. -/
theorem keyboardsOf_eq (k : InputLayer) (nodes : List String) :
    keyboardsOf k nodes =
      (nodes.filter fun node => (k.device node).Usable).map fun node => ⟨node, k.device node⟩ := by
  unfold keyboardsOf
  induction nodes with
  | nil => rfl
  | cons node nodes ih =>
    rw [List.filterMap_cons, toOption_keyboard?, ih]
    by_cases husable : (k.device node).Usable
    · simp [husable]
    · simp [husable]

theorem deniedCount_eq (k : InputLayer) (nodes : List String) :
    deniedCount k nodes = nodes.countP fun node => (k.device node).Denied := by
  unfold deniedCount
  congr 1
  funext node
  rw [Bool.eq_iff_iff, decide_eq_true_iff]
  unfold keyboard? InputDevice.Denied
  cases hrefusal : (k.device node).refusal with
  | none => simp [hrefusal]
  | some e => simp [hrefusal, OsError.isDenial]

/-! ## A directory -/

/-- Whether the name is one of an event node. -/
def isEventNode (name : String) : Bool := "event".isPrefixOf name

/-- What comes of opening the keyboards in a directory. -/
structure OpeningLaws (k : InputLayer) (dir : String) : Prop where
  /-- There are no devices if the directory cannot be read. -/
  unreadable : ∀ e, k.fs.list dir = .error e →
    openAll k dir = .error (.noDevices (dir ++ ": " ++ e.message))
  /-- If one of the event nodes is usable then all that are usable are opened, in order, whatever
  comes of the others. -/
  usable : ∀ names, k.fs.list dir = .ok names →
    (∃ name ∈ names, isEventNode name = true ∧ (k.device name).Usable) →
    ∃ keyboards, openAll k dir = .ok keyboards ∧
      (keyboards.map (·.node)).Perm
        (names.filter fun name => isEventNode name && (k.device name).Usable) ∧
      (keyboards.map (·.node)).Pairwise (· ≤ ·) ∧
      ∀ keyboard ∈ keyboards, keyboard.device = k.device keyboard.node
  /-- If none is, but some may not be opened, the error tells how many. -/
  denied : ∀ names n, k.fs.list dir = .ok names →
    (∀ name ∈ names, isEventNode name = true → ¬ (k.device name).Usable) →
    (names.countP fun name => isEventNode name && (k.device name).Denied) = n → 0 < n →
    openAll k dir = .error (.permissionDenied ("cannot open " ++ toString n ++
      " input node(s) in " ++ dir ++ "; add the user to the `input` group"))
  /-- There are no devices if all of them may be opened as well. -/
  absent : ∀ names, k.fs.list dir = .ok names →
    (∀ name ∈ names, isEventNode name = true → ¬ (k.device name).Usable) →
    (names.countP fun name => isEventNode name && (k.device name).Denied) = 0 →
    openAll k dir = .error (.noDevices ("no keyboard event nodes in " ++ dir))

/-- The event nodes of a directory that can be read are its names of that kind, in order. -/
theorem exists_eventNodes {names : List String} (h : k.fs.list dir = .ok names) :
    ∃ nodes, k.eventNodes dir = .ok nodes ∧ nodes.Perm (names.filter isEventNode) ∧
      nodes.Pairwise (· ≤ ·) := by
  have hn : k.eventNodes dir =
      .ok ((names.filter isEventNode).mergeSort fun a b => !decide (b < a)) := by
    unfold InputLayer.eventNodes
    rw [h]
    rfl
  exact ⟨_, hn, List.mergeSort_perm _ _, InputLayer.sorted_eventNodes hn⟩

/-- Without a usable node the answer depends on how many may not be opened. -/
theorem openAll_of_not_usable (hn : k.eventNodes dir = .ok nodes)
    (h : ∀ node ∈ nodes, ¬ (k.device node).Usable) :
    openAll k dir = .error (match nodes.countP fun node => (k.device node).Denied with
      | 0 => .noDevices ("no keyboard event nodes in " ++ dir)
      | n => .permissionDenied ("cannot open " ++ toString n ++ " input node(s) in " ++ dir ++
          "; add the user to the `input` group")) := by
  have hnone : keyboardsOf k nodes = [] := by
    rw [keyboardsOf_eq, List.map_eq_nil_iff, List.filter_eq_nil_iff]
    intro node hnode
    simpa using h node hnode
  unfold openAll
  rw [hn, ← deniedCount_eq]
  simp only [hnone]
  cases deniedCount k nodes <;> rfl

/-- One usable node is enough, and then nothing is counted. -/
theorem openAll_of_usable (hn : k.eventNodes dir = .ok nodes)
    (h : ∃ node ∈ nodes, (k.device node).Usable) : openAll k dir = .ok (keyboardsOf k nodes) := by
  have hsome : keyboardsOf k nodes ≠ [] := by
    obtain ⟨node, hnode, husable⟩ := h
    rw [keyboardsOf_eq, ne_eq, List.map_eq_nil_iff, List.filter_eq_nil_iff]
    intro hnot
    exact hnot node hnode (decide_eq_true husable)
  obtain ⟨keyboard, keyboards, hcons⟩ := List.exists_cons_of_ne_nil hsome
  unfold openAll
  rw [hn]
  simp only [hcons]

theorem not_usable_of_perm {names : List String} (hperm : nodes.Perm (names.filter isEventNode))
    (h : ∀ name ∈ names, isEventNode name = true → ¬ (k.device name).Usable) :
    ∀ node ∈ nodes, ¬ (k.device node).Usable := by
  intro node hnode
  obtain ⟨hname, hevent⟩ := List.mem_filter.1 (hperm.mem_iff.1 hnode)
  exact h node hname hevent

theorem countP_of_perm {names : List String} (hperm : nodes.Perm (names.filter isEventNode)) :
    (nodes.countP fun node => (k.device node).Denied) =
      names.countP fun name => isEventNode name && (k.device name).Denied := by
  rw [hperm.countP_eq, List.countP_filter]
  simp only [Bool.and_comm]

theorem openingLaws (k : InputLayer) (dir : String) : OpeningLaws k dir where
  unreadable e h := by
    unfold openAll InputLayer.eventNodes
    rw [h]
    rfl
  usable names h hsome := by
    obtain ⟨nodes, hn, hperm, hsorted⟩ := exists_eventNodes h
    have hnodes : ∃ node ∈ nodes, (k.device node).Usable := by
      obtain ⟨node, hnode, hevent, husable⟩ := hsome
      exact ⟨node, hperm.mem_iff.2 (List.mem_filter.2 ⟨hnode, hevent⟩), husable⟩
    have hmap : (keyboardsOf k nodes).map (·.node) =
        nodes.filter fun node => (k.device node).Usable := by
      rw [keyboardsOf_eq, List.map_map]
      exact List.map_id _
    refine ⟨keyboardsOf k nodes, openAll_of_usable hn hnodes, ?_, ?_, ?_⟩
    · rw [hmap]
      refine (hperm.filter _).trans (List.Perm.of_eq ?_)
      rw [List.filter_filter]
      simp only [Bool.and_comm]
    · rw [hmap]
      exact hsorted.filter _
    · intro keyboard hkeyboard
      exact (mem_keyboardsOf.1 hkeyboard).2.device.symm
  denied names n h hnone hcount hpos := by
    -- the nodes are counted after sorting, which makes no difference
    obtain ⟨nodes, hn, hperm, -⟩ := exists_eventNodes h
    rw [openAll_of_not_usable hn (not_usable_of_perm hperm hnone), countP_of_perm hperm, hcount]
    cases n with
    | zero => exact absurd hpos (Nat.lt_irrefl 0)
    | succ n => rfl
  absent names h hnone hcount := by
    obtain ⟨nodes, hn, hperm, -⟩ := exists_eventNodes h
    rw [openAll_of_not_usable hn (not_usable_of_perm hperm hnone), countP_of_perm hperm, hcount]
    rfl

end Evdev

/-! ## The listener -/

namespace EvdevMechanism

open Evdev Listener

/-- Without a keyboard no session can be had, and there is no further attempt to open any. -/
theorem refusing_of_openAll {c : EvdevMechanism} {e : CaptureError}
    (h : openAll c.layer c.settings.deviceDir = .error e) : Refusing c e where
  opens := by
    show (Except.ok c.program, c) = _
    unfold program
    dsimp only
    rw [h]
  installs _ := rfl
  sets _ := rfl

/-- **Opening the keyboards**: all usable event nodes of the directory are opened, in order. If
there is none the error tells why, and every start of a listener over them fails with it and leaves
no session behind, whatever else the callers of the listener do. -/
theorem opening_keyboards (c : EvdevMechanism) :
    OpeningLaws c.layer c.settings.deviceDir ∧
      ∀ e, openAll c.layer c.settings.deviceDir = .error e →
        ∀ (h : Host) (l : Listener EvdevMechanism), Reachable c h l → InVain e l :=
  ⟨openingLaws _ _, fun _ he _ _ hr => start_in_vain (refusing_of_openAll he) hr⟩

/-- Nodes of which two may not be opened and one cannot be, a mouse, a keyboard that cannot be read
without waiting, and one whose node is no event node. -/
def motley : InputLayer where
  fs := { nodes := [(["work"], .dir), (["work", "input"], .dir),
    (["work", "input", "event0"], .file ByteArray.empty),
    (["work", "input", "event1"], .file ByteArray.empty),
    (["work", "input", "event2"], .file ByteArray.empty),
    (["work", "input", "event3"], .file ByteArray.empty),
    (["work", "input", "event10"], .file ByteArray.empty),
    (["work", "input", "mouse0"], .file ByteArray.empty)] }
  devices := [("event0", { refusal := some .permissionDenied }), ("event1", { keys := some [272] }),
    ("event10", { refusal := some .notPermitted }), ("event2", { pollable := false }),
    ("event3", { refusal := some ⟨5⟩ }), ("mouse0", {})]

/-- The capture over these nodes, with other devices in the places of some of them. -/
def overMotley (keyboards : List (String × InputDevice)) : EvdevMechanism where
  settings := { deviceDir := "input" }
  layer := { motley with devices := keyboards ++ motley.devices }

/-- Without a keyboard the two nodes that may not be opened are blamed, also to whoever starts the
listener. With two keyboards nothing is said about the other nodes; the order is that of the
names. -/
theorem opening_keyboards_motley :
    let blind := overMotley []
    let seeing := overMotley [("event10", {}), ("event2", {})]
    let e := CaptureError.permissionDenied
      "cannot open 2 input node(s) in input; add the user to the `input` group"
    openAll blind.layer "input" = .error e ∧
      (∀ l : Listener EvdevMechanism, Reachable blind {} l → InVain e l) ∧
      ∃ keyboards, openAll seeing.layer "input" = .ok keyboards ∧
        (keyboards.map (·.node)).Perm ["event2", "event10"] ∧
        (keyboards.map (·.node)).Pairwise (· ≤ ·) := by
  intro blind seeing e
  have hlist : ∀ c, (overMotley c).layer.fs.list "input" =
      .ok ["event0", "event1", "event2", "event3", "event10", "mouse0"] := fun _ => rfl
  have herror : openAll blind.layer "input" = .error e :=
    (opening_keyboards blind).1.denied _ 2 (hlist _) (by decide +kernel) (by decide +kernel)
      (by decide)
  obtain ⟨keyboards, hopen, hperm, hsorted, -⟩ :=
    (opening_keyboards seeing).1.usable _ (hlist _) (by decide +kernel)
  refine ⟨herror, fun l hr => (opening_keyboards blind).2 e herror {} l hr, keyboards, hopen,
    ?_, hsorted⟩
  exact hperm.trans (List.Perm.of_eq (by decide +kernel))

end EvdevMechanism

end Keystroke
