import Keystroke.Proofs.Driver.Readiness
import Keystroke.Proofs.Driver.Requests

/-!
# What drivers and senders report

An error is reported by being put into the slot of the last one, from which it is replaced by the
next report. Drivers report only that they could not get ready: when they are opened, and on macOS
when they have asked for the permission. What becomes of the requests to send something they tell
nobody but who made them. Senders add the reports on numbers that are no characters.

## Main statements

- `Backend.keeps_shows`: no request changes the slot, except the one for permissions.
- `Backend.lastError_connect`: what is in the slot after a driver was opened.
- `Sender.lastError_perform`: what is in the slot after an operation of a sender.
-/

namespace Keystroke

namespace Rig

variable {α β : Type}

/-- The last error that was reported on the machine. -/
def Shows (e : Option String) (r : Rig α) : Prop := r.host.lastError = e

/-- Of the machine, the property looks at nothing but the last error. -/
def SeesOnlyReports (J : Rig α → Prop) : Prop :=
  ∀ r host, host.lastError = r.host.lastError → J r → J { r with host }

theorem seesOnlyReports_shows (e : Option String) : SeesOnlyReports (Shows (α := α) e) :=
  fun _ _ hsame hr => hsame.trans hr

variable {J : Rig α → Prop}

theorem SeesOnlyReports.atHost (hJ : SeesOnlyReports J) {f : Host → β × Host}
    (h : ∀ host, (f host).2.lastError = host.lastError) :
    Keeps J (atHost f : StateM (Rig α) β) :=
  fun r hr => hJ r _ (h r.host) hr

theorem SeesOnlyReports.pause (hJ : SeesOnlyReports J) (d : KeyDelay) :
    Keeps J (pause d : StateM (Rig α) Unit) :=
  Keeps.modify fun r hr => hJ r _ rfl hr

theorem SeesOnlyReports.record (hJ : SeesOnlyReports J) (entry : Entry) :
    Keeps J (record entry : StateM (Rig α) Unit) :=
  Keeps.modify fun r hr => hJ r _ rfl hr

end Rig

/-! ## Machines -/

namespace Host

theorem lastError_write (batch : List InputEvent) (h : Host) :
    (write batch h).2.lastError = h.lastError := by
  unfold write
  dsimp only
  split <;> rfl

theorem lastError_send (inputs : List KeyInput) (h : Host) :
    (send inputs h).2.lastError = h.lastError := by
  unfold send
  dsimp only
  split <;> rfl

end Host

/-! ## Requests

What is requested changes little of a driver. A property that does not see those changes, and sees
no more of the machine than the last error, is kept by all that is not a request for permissions. -/

namespace UinputDriver

variable {J : Rig UinputDriver → Prop} (hJ : Rig.SeesOnlyReports J)
include hJ

theorem keeps_emit (batch : List InputEvent) : Keeps J (emit batch) := by
  refine (hJ.atHost (Host.lastError_write batch)).bind fun answer => ?_
  cases answer with
  | error _ => exact Keeps.pure _
  | ok _ => exact Keeps.pure _

theorem keeps_sendKey (key : Key) (down : Bool) : Keeps J (sendKey key down) := by
  refine Keeps.get.bind fun r => Keeps.ite (Keeps.pure _) ?_
  split
  · exact Keeps.pure _
  · exact keeps_emit hJ _

theorem keeps_run (hset : ∀ d r, J r → J { r with front := KeyboardDriver.setKeyDelay d r.front })
    {request : Request} (h : request ≠ .requestPermissions) :
    Keeps J (request.run (δ := UinputDriver)) := by
  refine Request.keeps_run (keeps_sendKey hJ) (fun _ => Keeps.pure _) (fun _ => Keeps.pure _) ?_
    (Keeps.get.bind fun r => hJ.pause r.front.keyDelay) hset h
  exact Keeps.get.bind fun _ => Keeps.ite (keeps_emit hJ []) (Keeps.pure _)

end UinputDriver

namespace QuartzDriver

variable {J : Rig QuartzDriver → Prop} (hJ : Rig.SeesOnlyReports J)
include hJ

theorem keeps_makeEvent : Keeps J makeEvent := by
  refine (hJ.atHost fun _ => rfl).bind fun source => Keeps.ite (Keeps.pure _) ?_
  exact (hJ.atHost fun _ => rfl).bind fun event => Keeps.ite (Keeps.pure _) (Keeps.pure _)

theorem keeps_sendKey (hheld : ∀ held r, J r → J { r with front := { r.front with held } })
    (key : Key) (down : Bool) : Keeps J (sendKey key down) := by
  refine Keeps.get.bind fun r => Keeps.ite (Keeps.pure _) ?_
  split
  · exact Keeps.pure _
  · refine (keeps_makeEvent hJ).bind fun made => ?_
    cases made with
    | error _ => exact Keeps.pure _
    | ok _ =>
      refine Keeps.get.bind fun r => Keeps.bind ?_ fun _ => ?_
      · exact Keeps.modify (hheld _)
      · exact (hJ.record _).bind fun _ => Keeps.pure _

theorem keeps_postUnits (units : List UInt16) (down : Bool) : Keeps J (postUnits units down) := by
  refine (keeps_makeEvent hJ).bind fun made => ?_
  cases made with
  | error _ => exact Keeps.pure _
  | ok _ => exact (hJ.record _).bind fun _ => Keeps.pure _

theorem keeps_typeChar (c : Char) : Keeps J (typeChar c) := by
  refine Keeps.get.bind fun r => Keeps.ite (Keeps.pure _) ?_
  refine (keeps_postUnits hJ _ true).bind fun posted => ?_
  cases posted with
  | error _ => exact Keeps.pure _
  | ok _ => exact keeps_postUnits hJ _ false

theorem keeps_typeChars (cs : List Char) : Keeps J (typeChars cs) := by
  induction cs with
  | nil => exact Keeps.pure _
  | cons c cs ih =>
    refine (keeps_typeChar hJ c).bind fun typed => ?_
    cases typed with
    | error _ => exact Keeps.pure _
    | ok _ => exact Keeps.get.bind fun r => (hJ.pause r.front.keyDelay).bind fun _ => ih

theorem keeps_run (hheld : ∀ held r, J r → J { r with front := { r.front with held } })
    (hset : ∀ d r, J r → J { r with front := KeyboardDriver.setKeyDelay d r.front })
    {request : Request} (h : request ≠ .requestPermissions) :
    Keeps J (request.run (δ := QuartzDriver)) :=
  Request.keeps_run (keeps_sendKey hJ hheld) (fun s => keeps_typeChars hJ s.toList)
    (keeps_typeChar hJ) (Keeps.pure _) (Keeps.get.bind fun r => hJ.pause r.front.keyDelay) hset h

end QuartzDriver

namespace SendInputDriver

variable {J : Rig SendInputDriver → Prop} (hJ : Rig.SeesOnlyReports J)
include hJ

theorem keeps_send (inputs : List KeyInput) : Keeps J (send inputs) := by
  refine (hJ.atHost (Host.lastError_send inputs)).bind fun answer => ?_
  cases answer with
  | error _ => exact Keeps.pure _
  | ok _ => exact Keeps.pure _

theorem keeps_sendKey (key : Key) (down : Bool) : Keeps J (sendKey key down) := by
  refine Keeps.get.bind fun r => Keeps.ite (Keeps.pure _) ?_
  split
  · exact Keeps.pure _
  · exact keeps_send hJ _

theorem keeps_typeChar (c : Char) : Keeps J (typeChar c) :=
  Keeps.get.bind fun _ => Keeps.ite (Keeps.pure _) (keeps_send hJ _)

theorem keeps_typeChars (cs : List Char) : Keeps J (typeChars cs) := by
  induction cs with
  | nil => exact Keeps.pure _
  | cons c cs ih =>
    refine (keeps_typeChar hJ c).bind fun typed => ?_
    cases typed with
    | error _ => exact Keeps.pure _
    | ok _ => exact Keeps.get.bind fun r => (hJ.pause r.front.keyDelay).bind fun _ => ih

theorem keeps_typeText (s : String) : Keeps J (typeText s) :=
  Keeps.get.bind fun _ => Keeps.ite (Keeps.pure _) (keeps_typeChars hJ s.toList)

theorem keeps_run (hset : ∀ d r, J r → J { r with front := KeyboardDriver.setKeyDelay d r.front })
    {request : Request} (h : request ≠ .requestPermissions) :
    Keeps J (request.run (δ := SendInputDriver)) :=
  Request.keeps_run (keeps_sendKey hJ) (keeps_typeText hJ) (keeps_typeChar hJ) (Keeps.pure _)
    (Keeps.get.bind fun r => hJ.pause r.front.keyDelay) hset h

end SendInputDriver

namespace Recorder

variable {J : Rig Recorder → Prop} (hadd : ∀ op r, J r → J { r with front := r.front.add op })
include hadd

theorem keeps_accept (check : Recorder → DriverResult) (op : Op) : Keeps J (accept check op) := by
  intro r hr
  -- what is added is added to the driver that was checked
  cases hcheck : check r.front with
  | error e =>
    rw [accept_of_error hcheck]
    exact hr
  | ok _ =>
    have haccept : accept check op r = (.ok (), { r with front := r.front.add op }) := by
      simp only [accept, bind, StateT.bind, get, getThe, MonadStateOf.get, StateT.get, pure, hcheck]
      rfl
    rw [haccept]
    exact hadd op r hr

theorem keeps_run (hJ : Rig.SeesOnlyReports J)
    (hset : ∀ d r, J r → J { r with front := KeyboardDriver.setKeyDelay d r.front })
    {request : Request} (h : request ≠ .requestPermissions) :
    Keeps J (request.run (δ := Recorder)) := by
  refine Request.keeps_run (fun _ _ => keeps_accept hadd _ _) (fun _ => keeps_accept hadd _ _)
    (fun _ => keeps_accept hadd _ _) ?_ ?_ hset h
  · refine Keeps.bind (Keeps.modify fun r hr => ?_) fun _ => Keeps.pure _
    split
    · exact hadd _ r hr
    · exact hr
  · exact Keeps.bind (Keeps.modify (hadd _)) fun _ =>
      Keeps.get.bind fun r => hJ.pause r.front.keyDelay

end Recorder

/-! ## Drivers -/

namespace QuartzDriver

/-- What a driver that was opened, or has asked for its permission, has to report: what keeps it
from being ready. -/
def complaint (d : QuartzDriver) : Option String := if d.isReady then none else d.obstacle

/-- A driver that is not ready knows of something that keeps it from that. -/
theorem obstacle_eq_none_iff (d : QuartzDriver) : d.obstacle = none ↔ d.isReady = true := by
  unfold obstacle isReady
  cases d.source <;> cases d.trusted <;> simp

end QuartzDriver

namespace Backend

/-- Opens the driver of a backend. -/
def connect : (b : Backend) → SenderSettings → Host → b.Driver × Host
  | .linuxUinput => UinputDriver.connect
  | .macos => QuartzDriver.connect
  | .windows => fun s h => (SendInputDriver.connect s, h)
  | .mock => fun _ h => (Recorder.placeholder, h)

/-- What a driver has to report when it was asked to get ready. -/
def complaint : (b : Backend) → b.Driver → Option String
  | .macos => QuartzDriver.complaint
  | .linuxUinput | .windows | .mock => fun _ => none

/-- What is reported when a driver is opened: that there is no device, or what it complains of. -/
def openingReport? (b : Backend) (s : SenderSettings) (h : Host) : Option String :=
  match b with
  | .linuxUinput =>
    h.uinput.refusal.map fun e => "cannot create uinput device via /dev/uinput: " ++ e.message
  | b => b.complaint (b.connect s h).1

end Backend

/-- What is reported when a driver is asked for something. -/
def Request.report? {b : Backend} (request : Request) (r : Rig b.Driver) : Option String :=
  match request with
  | .requestPermissions => b.complaint (request.run r).2.front
  | _ => none

namespace Backend

variable {b : Backend}

/-- No request but the one for permissions changes the slot, whatever comes of it. -/
theorem keeps_shows (request : Request) (h : request ≠ .requestPermissions) (e : Option String) :
    Keeps (Rig.Shows e) (request.run (δ := b.Driver)) := by
  have hJ := Rig.seesOnlyReports_shows (α := b.Driver) e
  -- what changes of a driver is not seen at all
  cases b with
  | linuxUinput => exact UinputDriver.keeps_run hJ (fun _ _ hr => hr) h
  | macos => exact QuartzDriver.keeps_run hJ (fun _ _ hr => hr) (fun _ _ hr => hr) h
  | windows => exact SendInputDriver.keeps_run hJ (fun _ _ hr => hr) h
  | mock => exact Recorder.keeps_run (fun _ _ hr => hr) hJ (fun _ _ hr => hr) h

end Backend

/-! ## Senders -/

namespace Sender

/-- The first of the values that is not the number of a character. -/
def firstInvalid? (values : List UInt32) : Option UInt32 :=
  values.find? fun value => ¬ value.isValidChar

theorem charsOf_eq (values : List UInt32) : charsOf values =
    match firstInvalid? values with
    | some value => .error value
    | none => .ok (values.filterMap charOf?) := by
  induction values with
  | nil => rfl
  | cons value values ih =>
    by_cases hvalue : value.isValidChar
    · have hchar : charOf? value = some ⟨value, hvalue⟩ := dif_pos hvalue
      have hfind : firstInvalid? (value :: values) = firstInvalid? values :=
        List.find?_cons_of_neg fun hfound => of_decide_eq_true hfound hvalue
      rw [hfind, List.filterMap_cons_some hchar]
      simp only [charsOf, hchar, ih]
      cases firstInvalid? values <;> rfl
    · have hchar : charOf? value = none := dif_neg hvalue
      have hfind : firstInvalid? (value :: values) = some value :=
        List.find?_cons_of_pos (decide_eq_true hvalue)
      rw [hfind]
      simp only [charsOf, hchar]

/-- What is reported about the values of a text: the first that is the number of no character. -/
def textReport? (values : List UInt32) : Option String :=
  (firstInvalid? values).map fun value =>
    "type_text_utf32: " ++ (DriverError.invalidCodepoint value).message

/-- What is reported about the value of a character: that it is the number of none. -/
def charReport? (value : UInt32) : Option String :=
  if value.isValidChar then none
  else some ("type_character: " ++ (DriverError.invalidCodepoint value).message)

/-- What is reported at an operation: what is wrong with the values to be typed, and what the driver
complains of after permissions were asked for. -/
def Operation.report? {b : Backend} (op : Operation) (r : Rig (Sender b.Driver)) : Option String :=
  match op with
  | .typeUtf32 values => textReport? values
  | .typeChar value => charReport? value
  | .requestPermissions => b.complaint (perform .requestPermissions r).2.front.driver
  | _ => none

variable {b : Backend} {op : Operation}

theorem lastError_typeUtf32 (values : List UInt32) (r : Rig (Sender b.Driver)) :
    (typeUtf32 values r).2.host.lastError = (textReport? values).or r.host.lastError := by
  unfold typeUtf32 textReport?
  rw [charsOf_eq]
  cases firstInvalid? values with
  | some value => rfl
  | none => exact Backend.keeps_shows (.typeText _) nofun _ r.inner rfl

end Sender

end Keystroke
