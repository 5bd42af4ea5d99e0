import Keystroke.Proofs.Capture.KeyboardHook
import Keystroke.Proofs.Capture.Paths

/-!
# Sessions of the keyboard hook

Whatever comes to the hook is passed on, and all that it does besides is to observe. The callback
may pump messages, so that notifications reach the hook while it is still busy with another one;
these are passed on and nothing else. The flag may be lowered at any moment, by the callback or by
another thread.

A session is told by what became of its notifications one after the other. The trace of the thread
follows from that, but for the looks and entries of the message loop.

## Main statements

- `procedure_held`, `procedure_of_not_held`: the hook procedure on the states of its cell.
- `Handled.events_eq`, `Handled.countP_passes`, `Handled.count_postQuit`: what handled
  notifications come to.
- `account_of_path_notifyAll`, `account_of_path_loop`, `account_of_path`: what a path of a session
  comes to.
- `program_observes`: what a session does with its notifications.
-/

namespace Keystroke

namespace KeyboardHook

open CaptureThread (Path Traced Underway Through path_bind)
open Capture (Prompt Completes)
open Deed (Honest Guarded)

/-! ## The hook procedure -/

/-- The state of the session as the hook procedure finds it. -/
inductive Cell where
  /-- There is no session. -/
  | vacant
  /-- The callback is running. -/
  | borrowed
  | held (tracker : ModifierTracker)

/-- Delivers a key transition if there is a session that is not busy, and says whether the thread
should keep running, as far as it has looked. -/
def deliver (key : Key) (pressed : Bool) : Cell → Capture (Bool × Cell)
  | .vacant => return (true, .vacant)
  | .borrowed => return (true, .borrowed)
  | .held t => do
    if ← Capture.isRunning then
      let (mask, t) := t.onKey key pressed
      Capture.send (.of key mask pressed)
      return (← Capture.isRunning, .held t)
    else return (false, .held t)

/-- The hook procedure, whatever the state of the session is. -/
def procedure (n : Notification) (cell : Cell) : Capture Cell := do
  let (goesOn, cell) ← match n.transition? with
    | some (key, pressed) => deliver key pressed cell
    | none => pure (true, cell)
  unless goesOn do quit
  Capture.leave passOn
  return cell

/-- While the state is at hand the procedure does what is done with a notification of a session. -/
theorem procedure_held (n : Notification) (t : ModifierTracker) :
    procedure n (.held t) = (notify n t).bind fun t => .done (.held t) := by
  cases h : n.transition? with
  | none => simp [procedure, notify, h, Capture.leave, Capture.bind]
  | some move =>
    obtain ⟨key, pressed⟩ := move
    rw [notify_eq h]
    simp only [procedure, h]
    refine congrArg Capture.running (funext fun up => ?_)
    cases up with
    | false => rfl
    | true =>
      refine congrArg (Capture.deliver _) (congrArg Capture.running (funext fun up => ?_))
      cases up <;> rfl

/-- Otherwise it passes the notification on and leaves the state as it is. -/
theorem procedure_of_not_held {cell : Cell} (n : Notification) (h : ∀ t, cell ≠ .held t) :
    procedure n cell = .record passOn (.done cell) := by
  unfold procedure
  cases cell with
  | held t => exact absurd rfl (h t)
  | vacant | borrowed => cases n.transition? <;> rfl

/-- The entries that a program leaves one after the other as it begins. -/
def entries {α : Type} : Capture α → List Entry
  | .record entry next => entry :: entries next
  | _ => []

/-- What comes of notifications while the callback is running is what the procedure does then. -/
theorem whileBusy_eq (ns : List Notification) :
    whileBusy ns = ns.flatMap fun n => entries (procedure n .borrowed) := by
  have hentries (n : Notification) : entries (procedure n .borrowed) = [passOn] := by
    rw [procedure_of_not_held n (by simp)]
    rfl
  simp only [hentries, whileBusy, List.map_eq_flatMap]

/-! ## What becomes of a notification -/

/-- A notification, and what the hook saw when it looked at the flag: before the callback would be
called, and after it was called. -/
structure Handling where
  notification : Notification
  before : Bool
  after : Bool

/-- The transition that is delivered. -/
def Handling.move? (x : Handling) : Option (Key × Bool) :=
  if x.before then x.notification.transition? else none

/-- Whether the hook asks the thread to quit: for a key notification after which the flag is seen
down. -/
def Handling.quits (x : Handling) : Bool :=
  x.notification.transition?.isSome && !(x.before && x.after)

/-- The transitions that are delivered. -/
def moves (xs : List Handling) : List (Key × Bool) := xs.filterMap Handling.move?

/-- How the thread is asked to quit, if it is. -/
def asked (quits : Bool) : List Deed :=
  if quits then [.recorded (.hooked .postQuit), .postedQuit] else []

/-- What is done about a notification, with `n` calls of the callback before it. -/
def Handling.deeds (callback : Callback) (n : Nat) (t : ModifierTracker) (x : Handling) :
    List Deed :=
  (x.notification.transition?.toList.map fun _ => .looked x.before) ++
    ((t.events x.move?.toList).flatMap fun event =>
      .called event :: callback.deeds n event ++ [.looked x.after]) ++
    asked x.quits ++ [.recorded passOn]

/-- Whether it is something that the message loop does besides. -/
def isOfLoop : Deed → Bool
  | .looked _ | .recorded (.hooked .translate) | .recorded (.hooked .dispatch)
  | .recorded (.hooked .unhook) => true
  | _ => false

/-- A trace in which the notifications were handled, with a tracker that is `t` at first and sees
exactly the transitions that are delivered. -/
inductive Handled (callback : Callback) (t : ModifierTracker) :
    List Handling → List Deed → Prop where
  | start : Handled callback t [] []
  | loop {xs ds d} (hd : isOfLoop d = true) (h : Handled callback t xs ds) :
      Handled callback t xs (ds ++ [d])
  | notified {xs ds} (x : Handling) (h : Handled callback t xs ds) :
      Handled callback t (xs ++ [x])
        (ds ++ x.deeds callback (moves xs).length (t.after (moves xs)))

/-- A callback that lets notifications reach the hook whenever it is called. -/
def pumping (callback : Callback) (pump : Nat → KeyEvent → List Notification) : Callback where
  label := callback.label
  react n event :=
    { callback.react n event with
      causes := (pump n event).flatMap fun note => entries (procedure note .borrowed) }

/-- Whether a notification is passed on. -/
def passes : Deed → Bool
  | .recorded (.hooked .callNext) | .caused (.hooked .callNext) => true
  | _ => false

/-- Whether the callback is called. -/
def isCall (d : Deed) : Bool := d.event?.isSome

section Handled

variable {callback : Callback} {t : ModifierTracker} {xs : List Handling} {ds : List Deed}

theorem moves_concat (xs : List Handling) (x : Handling) :
    moves (xs ++ [x]) = moves xs ++ x.move?.toList := by
  cases h : x.move? <;> simp [moves, h]

theorem length_moves_concat (xs : List Handling) (x : Handling) :
    (moves (xs ++ [x])).length = (moves xs).length + x.move?.toList.length := by
  rw [moves_concat, List.length_append]

theorem after_moves_concat (t : ModifierTracker) (xs : List Handling) (x : Handling) :
    t.after (moves (xs ++ [x])) = (t.after (moves xs)).after x.move?.toList := by
  rw [moves_concat, ModifierTracker.after_append]

/-- The callback does nothing that the hook or its thread does. -/
theorem mem_callback_deeds {n : Nat} {event : KeyEvent} {d : Deed}
    (h : d ∈ callback.deeds n event) : isCall d = false ∧ (∀ entry, d ≠ .recorded entry) ∧
      d ≠ .postedQuit := by
  rw [Callback.mem_deeds] at h
  rcases h with ⟨entry, -, rfl⟩ | ⟨rfl, -⟩ <;> simp [isCall, Deed.event?]

theorem mem_asked {quits : Bool} {d : Deed} (h : d ∈ asked quits) :
    d = .recorded (.hooked .postQuit) ∨ d = .postedQuit := by
  cases quits with
  | false => simp [asked] at h
  | true => simpa [asked] using h

theorem transition?_of_move? {x : Handling} {move : Key × Bool} (h : x.move? = some move) :
    x.before = true ∧ x.notification.transition? = some move := by
  unfold Handling.move? at h
  split at h
  · exact ⟨‹_›, h⟩
  · cases h

/-- What is done about a notification that is delivered. -/
theorem deeds_of_move? {x : Handling} {key : Key} {pressed : Bool}
    (h : x.move? = some (key, pressed)) (n : Nat) (t : ModifierTracker) :
    x.deeds callback n t =
      [.looked true, .called (.of key (t.step key pressed).current pressed)] ++
        (callback.deeds n (.of key (t.step key pressed).current pressed) ++ [.looked x.after] ++
          asked (!x.after) ++ [.recorded passOn]) := by
  obtain ⟨hbefore, htransition⟩ := transition?_of_move? h
  unfold Handling.deeds Handling.quits
  rw [h, hbefore, htransition]
  simp [ModifierTracker.events]

/-- What is done about a notification that is not delivered. -/
theorem deeds_of_not_delivered {x : Handling} (h : x.move? = none) (n : Nat)
    (t : ModifierTracker) :
    x.deeds callback n t = (x.notification.transition?.toList.map fun _ => .looked x.before) ++
      asked x.quits ++ [.recorded passOn] := by
  simp [Handling.deeds, h, ModifierTracker.events]

/-- The callback is called for a notification if that is delivered. -/
theorem filterMap_event_deeds (n : Nat) (t : ModifierTracker) (x : Handling) :
    (x.deeds callback n t).filterMap Deed.event? = t.events x.move?.toList := by
  have hcallback (event : KeyEvent) : (callback.deeds n event).filterMap Deed.event? = [] := by
    rw [List.filterMap_eq_nil_iff]
    intro d hd
    simpa [isCall] using (mem_callback_deeds hd).1
  have hasked (quits : Bool) : (asked quits).filterMap Deed.event? = [] := by
    cases quits <;> rfl
  cases hmove : x.move? with
  | none =>
    rw [deeds_of_not_delivered hmove, List.filterMap_append, List.filterMap_append, hasked]
    cases x.notification.transition? <;> rfl
  | some move =>
    obtain ⟨key, pressed⟩ := move
    rw [deeds_of_move? hmove]
    simp only [List.filterMap_append, hcallback, hasked]
    rfl

/-- The callback is called with the events of the transitions that are delivered. -/
theorem Handled.events_eq (h : Handled callback t xs ds) :
    ds.filterMap Deed.event? = t.events (moves xs) := by
  induction h with
  | start => rfl
  | @loop xs ds d hd _ ih =>
    have hnone : d.event? = none := by
      cases d with
      | called => cases hd
      | _ => rfl
    simp [ih, hnone]
  | notified x _ ih =>
    rw [List.filterMap_append, ih, filterMap_event_deeds, moves_concat,
      ModifierTracker.events_append]

/-- The number of deeds of a kind that are no looks and no calls. -/
theorem countP_deeds {kind : Deed → Bool} (hlooked : ∀ b, kind (.looked b) = false)
    (hcalled : ∀ event, kind (.called event) = false) (n : Nat) (t : ModifierTracker)
    (x : Handling) :
    (x.deeds callback n t).countP kind =
      ((t.events x.move?.toList).flatMap (callback.deeds n)).countP kind +
        (asked x.quits).countP kind + [Deed.recorded passOn].countP kind := by
  unfold Handling.deeds
  cases x.move? <;> cases x.notification.transition? <;>
    simp [ModifierTracker.events, hlooked, hcalled, Nat.add_assoc]

/-- Each notification that reaches the hook during a call is passed on. -/
theorem countP_passes_pumping (pump : Nat → KeyEvent → List Notification) (n : Nat)
    (event : KeyEvent) :
    ((pumping callback pump).deeds n event).countP passes = (pump n event).length := by
  have hcauses : ((pumping callback pump).react n event).causes = whileBusy (pump n event) :=
    (whileBusy_eq _).symm
  rw [Callback.deeds_eq, hcauses, List.countP_append, List.countP_map, whileBusy, List.countP_map]
  split <;> simp [Function.comp_def, passOn, passes]

theorem countP_passes_deeds (pump : Nat → KeyEvent → List Notification) (n : Nat)
    (t : ModifierTracker) (x : Handling) :
    (x.deeds (pumping callback pump) n t).countP passes =
      1 + ((t.events x.move?.toList).mapIdx fun i => pump (n + i)).flatten.length := by
  have hasked : (asked x.quits).countP passes = 0 := by
    cases x.quits <;> rfl
  have hpass : [Deed.recorded passOn].countP passes = 1 := rfl
  rw [countP_deeds (fun _ => rfl) (fun _ => rfl), hasked, hpass]
  cases x.move? with
  | none => rfl
  | some move => simp [ModifierTracker.events, countP_passes_pumping, Nat.add_comm]

/-- Each notification is passed on exactly once: those of the session, and those that reach the hook
during a call. -/
theorem Handled.countP_passes {pump : Nat → KeyEvent → List Notification}
    (h : Handled (pumping callback pump) t xs ds) :
    ds.countP passes = xs.length + ((t.events (moves xs)).mapIdx pump).flatten.length := by
  induction h with
  | start => rfl
  | @loop xs ds d hd _ ih =>
    have hnone : passes d = false := by
      unfold isOfLoop at hd
      split at hd <;> first | rfl | cases hd
    simp [ih, hnone]
  | @notified xs ds x _ ih =>
    have hlength : (t.events (moves xs)).length = (moves xs).length := by
      simpa using congrArg List.length (t.map_events (moves xs))
    rw [List.countP_append, ih, countP_passes_deeds, moves_concat, ModifierTracker.events_append,
      List.mapIdx_append, List.flatten_append, List.length_append, List.length_append, hlength]
    simp only [List.length_singleton, Nat.add_comm]
    omega

theorem count_postQuit_deeds (n : Nat) (t : ModifierTracker) (x : Handling) :
    (x.deeds callback n t).count (.recorded (.hooked .postQuit)) = if x.quits then 1 else 0 := by
  have hcallback (event : KeyEvent) :
      (callback.deeds n event).count (.recorded (.hooked .postQuit)) = 0 := by
    rw [List.count_eq_zero]
    intro hmem
    exact (mem_callback_deeds hmem).2.1 _ rfl
  rw [List.count_eq_countP, countP_deeds (fun _ => rfl) (fun _ => rfl), ← List.count_eq_countP,
    ← List.count_eq_countP]
  have hcalls : ((t.events x.move?.toList).flatMap (callback.deeds n)).count
      (.recorded (.hooked .postQuit)) = 0 := by
    cases x.move? <;> simp [ModifierTracker.events, hcallback]
  rw [hcalls]
  cases x.quits <;> rfl

/-- The thread is asked to quit once for each key notification after which the flag was seen
down. -/
theorem Handled.count_postQuit (h : Handled callback t xs ds) :
    ds.count (.recorded (.hooked .postQuit)) = xs.countP Handling.quits := by
  induction h with
  | start => rfl
  | @loop xs ds d hloop _ ih =>
    have hne : d ≠ .recorded (.hooked .postQuit) := by
      rintro rfl
      cases hloop
    simp [ih, hne]
  | notified x _ ih =>
    rw [List.count_append, ih, count_postQuit_deeds, List.countP_append, List.countP_singleton]

/-- The callback is called directly after a look that saw the flag up. -/
theorem Handled.guarded (h : Handled callback t xs ds) : Guarded isCall ds := by
  have hasked {quits : Bool} {d : Deed} (hd : d ∈ asked quits) : isCall d = false := by
    obtain rfl | rfl := mem_asked hd <;> rfl
  induction h with
  | start => exact Deed.guarded_nil _
  | @loop xs ds d hd _ ih =>
    refine ih.concat fun hcall => ?_
    cases d with
    | called => cases hd
    | _ => cases hcall
  | @notified xs ds x _ ih =>
    cases hmove : x.move? with
    | none =>
      -- there is no call at all
      refine ih.append fun d hd => ?_
      rw [deeds_of_not_delivered hmove] at hd
      simp only [List.mem_append, List.mem_map, List.mem_singleton] at hd
      obtain (⟨_, -, rfl⟩ | hd) | rfl := hd
      · rfl
      · exact hasked hd
      · rfl
    | some move =>
      obtain ⟨key, pressed⟩ := move
      rw [deeds_of_move? hmove, ← List.append_assoc]
      refine Guarded.append ?_ fun d hd => ?_
      · have hlooked : Guarded isCall (ds ++ [.looked true]) := ih.concat nofun
        rw [List.append_cons]
        exact hlooked.concat fun _ => by simp
      · simp only [List.mem_append, List.mem_singleton] at hd
        obtain ((hd | rfl) | hd) | rfl := hd
        · exact (mem_callback_deeds hd).1
        · rfl
        · exact hasked hd
        · rfl

end Handled

/-! ## What a path of the session comes to -/

/-- The account of a path of a session, with the notifications that come to it wait by wait. If the
thread is on the way, some of them were handled, and it may have begun with the next one. Otherwise
all of the waits so far were handled, and if the thread is still waiting there are no others. -/
inductive Account (callback : Callback) (t : ModifierTracker) (waits : List (List Notification))
    (ds : List Deed) (s : Stage) : Prop where
  | between {xs : List Handling} (hs : Underway callback s) (h : Handled callback t xs ds)
      (hxs : xs.map (·.notification) <+: waits.flatten) : Account callback t waits ds s
  | amid {xs : List Handling} {x : Handling} {ds₁ ds₂} (hs : Underway callback s)
      (h : Handled callback t xs ds₁)
      (hxs : (xs ++ [x]).map (·.notification) <+: waits.flatten) (hds : ds = ds₁ ++ ds₂)
      (hpart : ds₂ <+: x.deeds callback (moves xs).length (t.after (moves xs))) :
      Account callback t waits ds s
  | resting {xs : List Handling} {done : List (List Notification)} (h : Handled callback t xs ds)
      (hxs : xs.map (·.notification) = done.flatten) (hdone : done <+: waits)
      (hwaiting : ∀ next, s = .body (.awaitQuit next) → done = waits) :
      Account callback t waits ds s

theorem flatten_prefix {α : Type} {l l' : List (List α)} (h : l <+: l') :
    l.flatten <+: l'.flatten := by
  obtain ⟨rest, rfl⟩ := h
  rw [List.flatten_append]
  exact List.prefix_append _ _

theorem prompt_notify (n : Notification) (t : ModifierTracker) : Prompt (notify n t) := by
  cases h : n.transition? with
  | none =>
    unfold notify
    rw [h]
    exact .record _ (.done _)
  | some move =>
    obtain ⟨key, pressed⟩ := move
    rw [notify_eq h]
    have hquit (t : ModifierTracker) : Prompt
        (.record (.hooked .postQuit) (.postQuit (.record passOn (.done t)))) :=
      .record _ (.postQuit (.record _ (.done _)))
    refine .running fun up => ?_
    cases up with
    | false => exact hquit t
    | true =>
      refine .deliver _ (.running fun up => ?_)
      cases up with
      | false => exact hquit _
      | true => exact .record _ (.done _)

section Path

variable {callback : Callback} {t t' : ModifierTracker} {n n' : Nat} {ds ds₀ : List Deed}
  {s : Stage} {xs : List Handling} {ns : List Notification} {waits : List (List Notification)}

theorem completes_quit
    (h : Completes callback n (.record (.hooked .postQuit) (.postQuit (.record passOn (.done t))))
      ds n' t') :
    ds = [.recorded (.hooked .postQuit), .postedQuit, .recorded passOn] ∧ n' = n ∧ t' = t := by
  cases h with
  | record _ h =>
    cases h with
    | postQuit h =>
      cases h with
      | record _ h =>
        cases h
        exact ⟨rfl, rfl, rfl⟩

/-- What is done about a notification is known when it is known what the looks saw. -/
theorem completes_notify {note : Notification}
    (h : Completes callback n (notify note t) ds n' t') :
    ∃ x : Handling, x.notification = note ∧ ds = x.deeds callback n t ∧
      n' = n + x.move?.toList.length ∧ t' = t.after x.move?.toList := by
  cases hmove : note.transition? with
  | none =>
    unfold notify at h
    rw [hmove] at h
    cases h with
    | record _ h =>
      cases h
      -- it is not looked at the flag, so it does not matter what a look would have seen
      refine ⟨⟨note, true, true⟩, rfl, ?_⟩
      simp [Handling.deeds, Handling.move?, Handling.quits, asked, hmove, ModifierTracker.events,
        ModifierTracker.after]
  | some move =>
    obtain ⟨key, pressed⟩ := move
    rw [notify_eq hmove] at h
    cases h with
    | running before h =>
      cases before with
      | false =>
        obtain ⟨rfl, rfl, rfl⟩ := completes_quit h
        refine ⟨⟨note, false, true⟩, rfl, ?_⟩
        simp [Handling.deeds, Handling.move?, Handling.quits, asked, hmove, ModifierTracker.events,
          ModifierTracker.after]
      | true =>
        cases h with
        | deliver _ h =>
          cases h with
          | running after h =>
            have hdelivered : Handling.move? ⟨note, true, after⟩ = some (key, pressed) := hmove
            refine ⟨⟨note, true, after⟩, rfl, ?_⟩
            rw [deeds_of_move? hdelivered, hdelivered]
            cases after with
            | false =>
              obtain ⟨rfl, rfl, rfl⟩ := completes_quit h
              simp [asked, ModifierTracker.after]
            | true =>
              cases h with
              | record _ h =>
                cases h
                simp [asked, ModifierTracker.after]

/-- A path of the handling of notifications, and of what comes after it. -/
theorem account_of_path_notifyAll {f : ModifierTracker → Capture Unit}
    (h₀ : Handled callback t xs ds₀) (hns : xs.map (·.notification) ++ ns <+: waits.flatten)
    (h : Path callback (moves xs).length (.body ((notifyAll ns (t.after (moves xs))).bind f))
      ds n' s)
    (hnext : ∀ xs' ds₁ rest, Handled callback t xs' ds₁ →
      xs'.map (·.notification) = xs.map (·.notification) ++ ns →
      Path callback (moves xs').length (.body (f (t.after (moves xs')))) rest n' s →
      Account callback t waits (ds₁ ++ rest) s) :
    Account callback t waits (ds₀ ++ ds) s := by
  induction ns generalizing xs ds₀ ds with
  | nil => exact hnext xs ds₀ ds h₀ (List.append_nil _).symm h
  | cons note ns ih =>
    have hcons : (notifyAll (note :: ns) (t.after (moves xs))).bind f =
        (notify note (t.after (moves xs))).bind fun t => (notifyAll ns t).bind f :=
      Capture.bind_assoc _ _ _
    rw [hcons] at h
    cases path_bind (prompt_notify _ _) h with
    | within hs hc hds =>
      obtain ⟨x, rfl, rfl, -, -⟩ := completes_notify hc
      refine .amid hs h₀ ?_ rfl hds
      refine List.IsPrefix.trans ?_ hns
      simp
    | beyond he hc h =>
      obtain ⟨x, rfl, rfl, rfl, rfl⟩ := completes_notify hc
      rw [← length_moves_concat, ← after_moves_concat] at h
      rw [he, ← List.append_assoc]
      refine ih (h₀.notified x) (by simpa using hns) h ?_
      simpa using hnext

/-- A path that comes between two notifications to an effect for which the thread need not wait. -/
theorem account_of_path_ready {p : Capture Unit} (hp : p.isReady = true)
    (h₀ : Handled callback t xs ds₀) (hxs : xs.map (·.notification) <+: waits.flatten)
    (h : Path callback n (.body p) ds n' s)
    (hstep : ∀ {first n₁ s₁ rest}, CaptureThread.Step callback n (.body p) first n₁ s₁ →
      Path callback n₁ s₁ rest n' s → Account callback t waits (ds₀ ++ (first ++ rest)) s) :
    Account callback t waits (ds₀ ++ ds) s := by
  rcases CaptureThread.path_ready hp h with ⟨rfl, hs⟩ | ⟨first, n₁, s₁, rest, hs, rfl, hrest⟩
  · rw [List.append_nil]
    exact .between hs h₀ hxs
  · exact hstep hs hrest

/-- A path of an entry of the message loop, and of what comes after it. -/
theorem account_of_path_record {entry : Entry} {next : Capture Unit}
    (h₀ : Handled callback t xs ds₀) (hxs : xs.map (·.notification) <+: waits.flatten)
    (hentry : isOfLoop (.recorded entry) = true)
    (h : Path callback n (.body (.record entry next)) ds n' s)
    (hnext : ∀ ds₁ rest, Handled callback t xs ds₁ → Path callback n (.body next) rest n' s →
      Account callback t waits (ds₁ ++ rest) s) :
    Account callback t waits (ds₀ ++ ds) s := by
  refine account_of_path_ready rfl h₀ hxs h fun hstep h => ?_
  cases hstep
  rw [← List.append_assoc]
  exact hnext _ _ (h₀.loop hentry) h

/-- A path of a look of the message loop, and of what comes after it. -/
theorem account_of_path_running {next : Bool → Capture Unit}
    (h₀ : Handled callback t xs ds₀) (hxs : xs.map (·.notification) <+: waits.flatten)
    (h : Path callback n (.body (.running next)) ds n' s)
    (hnext : ∀ b ds₁ rest, Handled callback t xs ds₁ → Path callback n (.body (next b)) rest n' s →
      Account callback t waits (ds₁ ++ rest) s) :
    Account callback t waits (ds₀ ++ ds) s := by
  refine account_of_path_ready rfl h₀ hxs h fun hstep h => ?_
  cases hstep with
  | running _ b =>
    rw [← List.append_assoc]
    exact hnext b _ _ (h₀.loop rfl) h

theorem loop_cons (wait : Wait) (script : List Wait) (t : ModifierTracker) :
    loop (wait :: script) t = .quitting fun quit =>
      if quit then .done ()
      else (notifyAll wait.notifications t).bind fun t =>
        match wait.returns with
        | none => loop script t
        | some result =>
          if 0 < result then
            .record (.hooked .translate) <| .record (.hooked .dispatch) <| .running fun up =>
              if up then loop script t else .done ()
          else .done () := by
  refine congrArg Capture.quitting (funext fun quit => ?_)
  cases quit with
  | true => rfl
  | false =>
    show (notifyAll wait.notifications t).bind _ = (notifyAll wait.notifications t).bind _
    refine congrArg (Capture.bind _) (funext fun t => ?_)
    cases wait.returns with
    | none => rfl
    | some result =>
      by_cases hresult : 0 < result
      · simp only [hresult, if_true]
        refine congrArg (Capture.record _) (congrArg (Capture.record _)
          (congrArg Capture.running (funext fun up => ?_)))
        cases up <;> rfl
      · simp [hresult]

/-- A path of the message loop, and of what comes after it. -/
theorem account_of_path_loop {script : List Wait} {f : Unit → Capture Unit}
    {done : List (List Notification)} (h₀ : Handled callback t xs ds₀)
    (hxs : xs.map (·.notification) = done.flatten)
    (hwaits : done ++ script.map (·.notifications) = waits)
    (h : Path callback (moves xs).length (.body ((loop script (t.after (moves xs))).bind f))
      ds n' s)
    (hnext : ∀ xs' done' ds₁ rest, Handled callback t xs' ds₁ →
      xs'.map (·.notification) = done'.flatten → done' <+: waits →
      Path callback (moves xs').length (.body (f ())) rest n' s →
      Account callback t waits (ds₁ ++ rest) s) :
    Account callback t waits (ds₀ ++ ds) s := by
  -- by induction on the waits ahead; `done` are those of which all notifications were handled
  have hdone : done <+: waits := ⟨_, hwaits⟩
  induction script generalizing xs done ds₀ ds with
  | nil =>
    cases h with
    | refl =>
      rw [List.append_nil]
      exact .resting h₀ hxs hdone fun _ _ => by simpa using hwaits
    | step hs h =>
      cases hs
      exact hnext xs done ds₀ _ h₀ hxs hdone h
  | cons wait script ih =>
    rw [List.map_cons, List.append_cons] at hwaits
    have hdone' : done ++ [wait.notifications] <+: waits := ⟨_, hwaits⟩
    rw [loop_cons] at h
    refine account_of_path_ready rfl h₀ (hxs ▸ flatten_prefix hdone) h fun hstep h => ?_
    cases hstep with
    | quitting _ quit =>
      cases quit with
      | true => exact hnext xs done ds₀ _ h₀ hxs hdone h
      | false =>
        simp only [Bool.false_eq_true, if_false, Capture.bind_assoc] at h
        have hns : xs.map (·.notification) ++ wait.notifications <+: waits.flatten := by
          have hprefix := flatten_prefix hdone'
          simpa [hxs] using hprefix
        refine account_of_path_notifyAll h₀ hns h fun xs' ds₁ rest h₁ hxs' h => ?_
        rw [← hxs'] at hns
        have hxs' : xs'.map (·.notification) = (done ++ [wait.notifications]).flatten := by
          simpa [hxs] using hxs'
        cases hreturns : wait.returns with
        | none =>
          simp only [hreturns] at h
          exact ih h₁ hxs' hwaits h hdone'
        | some result =>
          by_cases hresult : 0 < result
          · simp only [hreturns, hresult, if_true] at h
            refine account_of_path_record h₁ hns rfl h fun ds₂ rest h₂ h => ?_
            refine account_of_path_record h₂ hns rfl h fun ds₃ rest h₃ h => ?_
            refine account_of_path_running h₃ hns h fun up ds₄ rest h₄ h => ?_
            cases up with
            | true => exact ih h₄ hxs' hwaits h hdone'
            | false => exact hnext xs' _ ds₄ rest h₄ hxs' hdone' h
          · simp only [hreturns, hresult, if_false] at h
            exact hnext xs' _ ds₁ rest h₁ hxs' hdone' h

end Path

/-- In an account too the callback is called directly after a look that saw the flag up. -/
theorem Account.guarded {callback : Callback} {t : ModifierTracker}
    {waits : List (List Notification)} {ds : List Deed} {s : Stage}
    (h : Account callback t waits ds s) : Guarded isCall ds := by
  cases h with
  | between _ h | resting h => exact h.guarded
  | @amid xs x ds₁ ds₂ _ h _ hds hpart =>
    obtain ⟨missing, hmissing⟩ := hpart
    have hguarded := (h.notified x).guarded
    rw [← hmissing, ← List.append_assoc, ← hds] at hguarded
    exact hguarded.of_append

end KeyboardHook

namespace HookMechanism

open KeyboardHook
open CaptureThread (Path Traced Underway)
open Deed (Honest Guarded)

/-- The tracker of a session as it begins. -/
def tracker (c : HookMechanism) : ModifierTracker := .ofLocks c.locks

/-- The notifications that come to the hook, wait by wait, with those first that come before it is
reported as installed. If it cannot be installed there are none. -/
def waits (c : HookMechanism) : List (List Notification) :=
  if c.refusal.isSome then [] else c.early :: c.script.map (·.notifications)

/-- If the hook cannot be installed the thread only says so. -/
theorem program_of_refusal {c : HookMechanism} {reason : String} (h : c.refusal = some reason) :
    c.program = .report (.error (.hookInstallFailed reason)) (.done ()) := by
  simp [program, h]

/-- Otherwise it handles notifications until the flag is down or there are no more messages. -/
theorem program_of_installed {c : HookMechanism} (h : c.refusal = none) :
    c.program = (notifyAll c.early c.tracker).bind fun t =>
      .report (.ok (some (.hooked .postThread))) <| .running fun up =>
        (if up then loop c.script t else .done ()).bind fun _ =>
          .record (.hooked .unhook) (.done ()) := by
  simp only [program, h]
  refine congrArg (Capture.bind _) (funext fun t => ?_)
  refine congrArg (Capture.report _) (congrArg Capture.running (funext fun up => ?_))
  cases up <;> rfl

theorem waits_of_installed {c : HookMechanism} (h : c.refusal = none) :
    [c.early] ++ c.script.map (·.notifications) = c.waits := by
  simp [waits, h]

section Account

variable {c : HookMechanism} {callback : Callback} {ds : List Deed} {n n' : Nat} {s : Stage}

/-- At its end the thread does not wait any more. -/
theorem account_of_isEnding {xs : List Handling} {done : List (List Notification)}
    (h : Handled callback c.tracker xs ds) (hxs : xs.map (·.notification) = done.flatten)
    (hdone : done <+: c.waits) (hs : s.isEnding = true) :
    Account callback c.tracker c.waits ds s := by
  refine .resting h hxs hdone fun next heq => ?_
  rw [heq] at hs
  cases hs

/-- A path of the end of a session, where the hook is removed. -/
theorem account_of_path_unhook {xs : List Handling} {done : List (List Notification)}
    {ds₀ : List Deed} (h₀ : Handled callback c.tracker xs ds₀)
    (hxs : xs.map (·.notification) = done.flatten) (hdone : done <+: c.waits)
    (h : Path callback n (.body (.record (.hooked .unhook) (.done ()))) ds n' s) :
    Account callback c.tracker c.waits (ds₀ ++ ds) s := by
  refine account_of_path_record h₀ (hxs ▸ flatten_prefix hdone) rfl h fun ds₁ rest h₁ h => ?_
  obtain ⟨rfl, hs⟩ := CaptureThread.path_of_isEnding rfl h
  rw [List.append_nil]
  exact account_of_isEnding h₁ hxs hdone hs

/-- A path of a whole session. -/
theorem account_of_path (h : Path callback 0 (.body c.program) ds n' s) :
    Account callback c.tracker c.waits ds s := by
  rw [← List.nil_append ds]
  cases hrefusal : c.refusal with
  | some reason =>
    rw [program_of_refusal hrefusal] at h
    refine account_of_path_ready rfl .start List.nil_prefix h fun hstep h => ?_
    cases hstep
    obtain ⟨rfl, hs⟩ := CaptureThread.path_of_isEnding rfl h
    exact account_of_isEnding .start List.flatten_nil.symm List.nil_prefix hs
  | none =>
    have hwaits := waits_of_installed hrefusal
    have hearly : [c.early] <+: c.waits := ⟨_, hwaits⟩
    rw [program_of_installed hrefusal] at h
    refine account_of_path_notifyAll .start (by simpa using flatten_prefix hearly) h
      fun xs ds₁ rest h₁ hxs h => ?_
    have hxs : xs.map (·.notification) = [c.early].flatten := by
      simpa using hxs
    have hflat := hxs ▸ flatten_prefix hearly
    refine account_of_path_ready rfl h₁ hflat h fun hstep h => ?_
    cases hstep
    refine account_of_path_running h₁ hflat h fun up ds₂ rest h₂ h => ?_
    cases up with
    | false => exact account_of_path_unhook h₂ hxs hearly h
    | true =>
      exact account_of_path_loop h₂ hxs hwaits h
        fun xs' done ds₃ rest h₃ hxs' hdone h => account_of_path_unhook h₃ hxs' hdone h

end Account

/-! ## Observation -/

/-- The tracker begins with no key held down and with the locks that are on. -/
theorem locks_tracker (c : HookMechanism) (i : Nat) : c.tracker.locks.bit i = true ↔
    i = 4 ∧ c.capsLock % 2 = 1 ∨ i = 5 ∧ c.numLock % 2 = 1 := by
  have hall : ∀ caps num : Bool, ∀ i < 8,
      (ModifierTracker.ofLocks ((if caps then .capsLock else ∅) ∪
        (if num then .numLock else ∅))).locks.bit i = true ↔
        i = 4 ∧ caps = true ∨ i = 5 ∧ num = true := by
    decide
  rcases Nat.lt_or_ge i 8 with hlt | hge
  · have h := hall (decide (c.capsLock % 2 = 1)) (decide (c.numLock % 2 = 1)) i hlt
    simp only [decide_eq_true_eq] at h
    exact h
  · rw [Modifier.bit_of_le _ _ hge]
    simp only [Bool.false_eq_true, false_iff]
    omega

/-- What a session has come to when no notification is being handled: which of them were handled,
what was done about them, with which events the callback was called, how often a notification was
passed on, and how often the thread was asked to quit. -/
structure Observed (callback : Callback) (pump : Nat → KeyEvent → List Notification)
    (c : HookMechanism) (ds : List Deed) (s : Stage) (xs : List Handling) : Prop where
  /-- Those of the first waits, or of all of them if the thread is still waiting. -/
  handled : ∃ done, xs.map (·.notification) = done.flatten ∧ done <+: c.waits ∧
    ∀ next, s = .body (.awaitQuit next) → done = c.waits
  trace : Handled (pumping callback pump) c.tracker xs (ds.filter Deed.isOwn)
  events : ds.filterMap Deed.event? = c.tracker.events (moves xs)
  /-- Each of them once, and once each of those that came during a call. -/
  passed : ds.countP passes =
    xs.length + ((c.tracker.events (moves xs)).mapIdx pump).flatten.length
  quits : ds.count (.recorded (.hooked .postQuit)) = xs.countP Handling.quits

/-- The hook of a session observes, whatever the callback does and whoever lowers the flag when. -/
structure Observes (c : HookMechanism) : Prop where
  /-- The key notifications are those that tell of a transition. -/
  told (n : Notification) (key : Key) (pressed : Bool) :
    n.transition? = some (key, pressed) ↔ n.Tells key pressed
  /-- The tracker begins with no key held down, and with the locks whose keys have an odd state. -/
  begins : c.tracker.held = [] ∧ ∀ i, c.tracker.locks.bit i = true ↔
    i = 4 ∧ c.capsLock % 2 = 1 ∨ i = 5 ∧ c.numLock % 2 = 1
  /-- The notifications are handled one after the other, in the order in which they come. -/
  account {self m callback ds m' t'} : Traced self m (.begin c.program callback) ds m' t' →
    Account callback c.tracker c.waits (ds.filter Deed.isOwn) t'.stage
  /-- When none of them is being handled each has been passed on exactly once; the callback was
  called for those that are delivered, and the thread asked to quit for those after which the flag
  was seen down. -/
  observed {self m callback pump ds m' t'} :
    Traced self m (.begin c.program (pumping callback pump)) ds m' t' →
    ¬ Underway (pumping callback pump) t'.stage →
    ∃ xs, Observed callback pump c ds t'.stage xs
  /-- A look sees the flag up if and only if it was up at first and nobody has lowered it since. -/
  looked {self m callback ds m' t'} : Traced self m (.begin c.program callback) ds m' t' →
    Honest m.flag ds
  /-- The callback is called directly after a look that sees the flag up. -/
  guarded {self m callback ds m' t'} : Traced self m (.begin c.program callback) ds m' t' →
    Guarded isCall (ds.filter Deed.isOwn)
  /-- After a look that sees the flag down it is not called any more. -/
  dropped {self m callback ds m' t'} : Traced self m (.begin c.program callback) ds m' t' →
    ∀ ds₁ ds₂, ds = ds₁ ++ .looked false :: ds₂ → ds₂.filterMap Deed.event? = []
  /-- The thread comes by itself to a point where no notification is being handled, unless the
  callback breaks or blocks it. -/
  live {self m callback ds m' t'} : Traced self m (.begin c.program callback) ds m' t' →
    (∀ i e, (callback.react i e).starts = false ∧ (callback.react i e).panics = false) →
    ∃ ds' m'' t'', Traced self m' t' ds' m'' t'' ∧ .lowered ∉ ds' ∧ ¬ Underway callback t''.stage
  /-- What is done with a notification of a session is what the hook procedure does. -/
  held (n : Notification) (t : ModifierTracker) :
    procedure n (.held t) = (notify n t).bind fun t => .done (.held t)
  /-- Without a session, and while the callback is running, it passes notifications on and nothing
  else. -/
  idle (n : Notification) {cell : Cell} : (∀ t, cell ≠ .held t) →
    procedure n cell = .record passOn (.done cell)

/-- **Observation**: the hook of a session observes and swallows nothing. -/
theorem program_observes (c : HookMechanism) : Observes c where
  told _ _ _ := tells_iff.symm
  begins := ⟨rfl, locks_tracker c⟩
  account h := account_of_path h.path.2
  observed {self m callback pump ds m' t'} h hs := by
    cases account_of_path h.path.2 with
    | between hunderway => exact absurd hunderway hs
    | amid hunderway => exact absurd hunderway hs
    | @resting xs done hhandled hxs hdone hwaiting =>
      refine ⟨xs, ⟨done, hxs, hdone, hwaiting⟩, hhandled, ?_, ?_, ?_⟩
      · rw [← Deed.filterMap_event_own, hhandled.events_eq]
      · rw [← Deed.countP_own rfl, hhandled.countP_passes]
      · rw [← hhandled.count_postQuit, List.count, Deed.countP_own rfl]
  looked h := h.looked_eq
  guarded h := (account_of_path h.path.2).guarded
  dropped {self m callback ds m' t'} h ds₁ ds₂ hds := by
    have hguarded := (account_of_path h.path.2).guarded
    have hown (d : Deed) (hd : isCall d = true) : d.isOwn = true := by
      cases d with
      | lowered => cases hd
      | _ => rfl
    rw [List.filterMap_eq_nil_iff]
    intro d hd
    simpa [isCall] using hguarded.eq_false_of_mem hown h.looked_eq hds d hd
  live h hc := by
    obtain ⟨ds', m'', t'', hmore, hlowered, hend⟩ := CaptureThread.exists_settled _ _ _
    exact ⟨ds', m'', t'', hmore, hlowered, fun hs => hs.move?_ne_none hc _ _ hend⟩
  held := procedure_held
  idle n _ := procedure_of_not_held n

/-- A session that begins while CapsLock is on. A goes down, and during the call for it one more
notification comes; something else is seen, and something that is not to be processed; the Enter key
of the number pad comes up, for which the callback stops its listener; B is not delivered any more.
All six notifications are passed on, and the last two key notifications ask the thread to quit. -/
theorem program_observes_stopped :
    let c : HookMechanism :=
      { capsLock := 1
        early := [⟨0x100000100, 0x30041, 0, 0⟩, ⟨0x200, 0x41, 0, 0⟩, ⟨0x100, 0x41, 0, -1⟩]
        script := [{ notifications := [⟨0x105, 0x0D, 1, 0⟩, ⟨0x104, 0x42, 0, 0⟩],
                     returns := some 0 }] }
    let pump : Nat → KeyEvent → List Notification := fun n _ =>
      if n = 0 then [⟨0x100, 0x43, 0, 0⟩] else []
    (⟨0x100000100, 0x30041, 0, 0⟩ : Notification).Tells .a true ∧
    (⟨0x105, 0x0D, 1, 0⟩ : Notification).Tells .numpadEnter false ∧
    ∃ ds m' t',
      Traced 0 { flag := true } (.begin c.program (pumping (.stopsAfter 1) pump)) ds m' t' ∧
      (∃ xs, Observed (.stopsAfter 1) pump c ds t'.stage xs) ∧
      ds.filterMap Deed.event? =
        [⟨65, .a, .capsLock, true⟩, ⟨0, .numpadEnter, .capsLock, false⟩] ∧
      ds.countP passes = 6 ∧ ds.count (.recorded (.hooked .postQuit)) = 2 := by
  intro c pump
  have hobserves := program_observes c
  have hrun := CaptureThread.traced_play 0 60 { flag := true }
    (.begin c.program (pumping (.stopsAfter 1) pump))
  have htold := hobserves.told
  refine ⟨(htold _ _ _).1 (by decide +kernel), (htold _ _ _).1 (by decide +kernel),
    _, _, _, hrun, ?_, by decide +kernel, by decide +kernel, by decide +kernel⟩
  refine hobserves.observed hrun ?_
  rw [show (CaptureThread.play 0 60 { flag := true }
    (.begin c.program (pumping (.stopsAfter 1) pump))).2.2.stage = .over false from rfl]
  nofun

end HookMechanism

end Keystroke
