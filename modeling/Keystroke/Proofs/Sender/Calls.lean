import Keystroke.Driver.Scripted
import Keystroke.Proofs.Sender.Operation

/-!
# What a sender asks of its driver

The rule of a scripted driver decides from all calls so far whether the next one succeeds, so it can
answer as any other driver does. Which calls a sender makes of it is worked out here operation by
operation, together with the result, for every rule.

## Main statements

- `makes_forKeys`: an operation on several keys goes through all of them, whatever fails.
- `makes_tap`: the key comes up only if it went down.
- `combo_calls`: the calls of a combination.
-/

namespace Keystroke

namespace Scripted

/-- A rule by which calls are refused. -/
abbrev Rule := List Call → Call → Option DriverError

/-- Whether the rule accepts a call that comes after others. -/
def Rule.accepts (rule : Rule) (history : List Call) (call : Call) : Bool :=
  (rule history call).isNone

/-- Whether the rule accepts all of the calls, made one after the other. -/
def Rule.acceptsAll (rule : Rule) (history : List Call) : List Call → Bool
  | [] => true
  | call :: calls => rule.accepts history call && rule.acceptsAll (history ++ [call]) calls

end Scripted

namespace Sender

open Scripted (Rule)

variable {α β : Type} {rule : Rule} {history : List Scripted.Call}

/-- The driver follows the rule and was called as the history says. -/
def Follows (rule : Rule) (history : List Scripted.Call) (r : Rig (Sender Scripted)) : Prop :=
  r.front.driver.rule = rule ∧ r.front.driver.calls = history

/-- After the history, under the rule, the action makes the calls and has the result. -/
def Makes (rule : Rule) (history : List Scripted.Call) (act : StateM (Rig (Sender Scripted)) α)
    (calls : List Scripted.Call) (result : α) : Prop :=
  ∀ r, Follows rule history r → (act r).1 = result ∧ Follows rule (history ++ calls) (act r).2

theorem makes_pure (a : α) : Makes rule history (pure a) [] a := by
  intro r hr
  rw [List.append_nil]
  exact ⟨rfl, hr⟩

theorem Makes.bind {act : StateM (Rig (Sender Scripted)) α} {calls : List Scripted.Call} {a : α}
    {next : α → StateM (Rig (Sender Scripted)) β} {calls' : List Scripted.Call} {b : β}
    (h : Makes rule history act calls a)
    (h' : ∀ x, x = a → Makes rule (history ++ calls) (next x) calls' b) :
    Makes rule history (act >>= next) (calls ++ calls') b := by
  intro r hr
  obtain ⟨hresult, hstate⟩ := h r hr
  have hnext := h' _ hresult _ hstate
  rw [List.append_assoc] at hnext
  exact hnext

theorem Makes.map {act : StateM (Rig (Sender Scripted)) α} {calls : List Scripted.Call} {a : α}
    (h : Makes rule history act calls a) (f : α → β) :
    Makes rule history (act >>= fun a => pure (f a)) calls (f a) := by
  intro r hr
  obtain ⟨hresult, hstate⟩ := h r hr
  exact ⟨congrArg f hresult, hstate⟩

theorem succeeded_verdict (d : Scripted) (call : Scripted.Call) :
    succeeded (d.verdict call) = Rule.accepts d.rule d.calls call := by
  unfold Scripted.verdict Rule.accepts
  cases d.rule d.calls call <;> rfl

theorem makes_keyDown (key : Key) : Makes rule history (keyDown key) [.sendKey key true]
    (rule.accepts history (.sendKey key true)) := by
  rintro r ⟨rfl, rfl⟩
  exact ⟨succeeded_verdict r.front.driver (.sendKey key true), rfl, rfl⟩

theorem makes_keyUp (key : Key) : Makes rule history (keyUp key) [.sendKey key false]
    (rule.accepts history (.sendKey key false)) := by
  rintro r ⟨rfl, rfl⟩
  exact ⟨succeeded_verdict r.front.driver (.sendKey key false), rfl, rfl⟩

theorem makes_delay : Makes rule history (drive KeyboardDriver.delay) [.delay] () := by
  rintro r ⟨rfl, rfl⟩
  exact ⟨rfl, rfl, rfl⟩

/-- An action that makes one call for a key makes one for each of several keys, whether or not the
others succeed. -/
theorem makes_forKeys {act : Key → StateM (Rig (Sender Scripted)) Bool} {call : Key → Scripted.Call}
    (h : ∀ history key, Makes rule history (act key) [call key]
      (rule.accepts history (call key))) (keys : List Key) :
    Makes rule history (forKeys act keys) (keys.map call)
      (rule.acceptsAll history (keys.map call)) := by
  induction keys generalizing history with
  | nil => exact makes_pure true
  | cons key keys ih =>
    refine (h history key).bind ?_
    rintro _ rfl
    exact ih.map _

/-- A tap presses the key, and releases it after a delay if it could be pressed. -/
theorem makes_tap (key : Key) :
    Makes rule history (tap key)
      ([.sendKey key true] ++ if rule.accepts history (.sendKey key true) then
        [.delay, .sendKey key false] else [])
      (rule.accepts history (.sendKey key true) &&
        rule.accepts (history ++ [.sendKey key true, .delay]) (.sendKey key false)) := by
  refine (makes_keyDown key).bind fun down hdown => ?_
  rw [← hdown]
  cases down with
  | false => exact makes_pure false
  | true =>
    have hrelease : Makes rule (history ++ [.sendKey key true])
        (do drive KeyboardDriver.delay; keyUp key) ([.delay] ++ [.sendKey key false])
        (rule.accepts (history ++ [.sendKey key true] ++ [.delay]) (.sendKey key false)) :=
      makes_delay.bind fun _ _ => makes_keyUp key
    rw [List.append_assoc] at hrelease
    exact hrelease

theorem makes_hold (mask : Modifier) :
    Makes rule history (hold mask) (mask.leftKeys.map (.sendKey · true))
      (rule.acceptsAll history (mask.leftKeys.map (.sendKey · true))) := by
  rw [hold_eq]
  exact makes_forKeys (fun _ key => makes_keyDown key) mask.leftKeys

theorem makes_release (mask : Modifier) :
    Makes rule history (release mask) (mask.leftKeys.map (.sendKey · false))
      (rule.acceptsAll history (mask.leftKeys.map (.sendKey · false))) := by
  rw [release_eq]
  exact makes_forKeys (fun _ key => makes_keyUp key) mask.leftKeys

/-- **The calls of a combination**, under any rule and after any history. The left keys of the mask
are pressed in order, all of them whatever fails. If none failed, there is a delay, the key is
pressed, there is a delay and the key is released if it could be pressed, and there is a delay. Then
the left keys are released in order, all of them whatever fails. There are no other calls, and the
combination succeeds if all presses and the release of the key did. -/
theorem combo_calls (r : Rig (Sender Scripted)) (mask : Modifier) (key : Key) :
    let rule : Rule := r.front.driver.rule
    let before := r.front.driver.calls
    let holds := mask.leftKeys.map (Scripted.Call.sendKey · true)
    let releases := mask.leftKeys.map (Scripted.Call.sendKey · false)
    let held := rule.acceptsAll before holds
    let pressed := rule.accepts (before ++ holds ++ [.delay]) (.sendKey key true)
    let released := rule.accepts (before ++ holds ++ [.delay, .sendKey key true, .delay])
      (.sendKey key false)
    let taps := [Scripted.Call.sendKey key true] ++
      if pressed then [.delay, .sendKey key false] else []
    (combo mask key r).2.front.driver.calls =
        before ++ holds ++ (if held then [Scripted.Call.delay] ++ taps ++ [.delay] else []) ++
          releases ∧
      (combo mask key r).1 = (held && pressed && released) := by
  intro rule before holds releases held pressed released taps
  have hcombo : Makes rule before (combo mask key)
      (holds ++ ((if held then [Scripted.Call.delay] ++ (taps ++ [.delay]) else []) ++ releases))
      (held && (pressed && released)) := by
    have hend : ∀ (history : List Scripted.Call) (b : Bool),
        Makes rule history (do let _ ← release mask; return b) releases b :=
      fun _ b => (makes_release mask).map fun _ => b
    -- what follows depends on the result of the hold alone
    refine (makes_hold mask).bind fun down hdown => ?_
    rw [show held = down from hdown.symm]
    cases down with
    | false => exact hend _ false
    | true =>
      have htap : Makes rule (before ++ holds ++ [.delay]) (tap key) taps
          (pressed && rule.accepts (before ++ holds ++ [.delay] ++ [.sendKey key true, .delay])
            (.sendKey key false)) := makes_tap key
      rw [List.append_assoc (before ++ holds)] at htap
      have hcalls : (if true then [Scripted.Call.delay] ++ (taps ++ [.delay]) else []) ++ releases =
          [.delay] ++ (taps ++ ([.delay] ++ releases)) := by simp
      rw [hcalls, Bool.true_and]
      refine makes_delay.bind fun _ _ => htap.bind fun b hb => makes_delay.bind fun _ _ => ?_
      subst hb
      exact hend _ (pressed && released)
  obtain ⟨hresult, -, hcalls⟩ := hcombo r ⟨rfl, rfl⟩
  rw [hresult, hcalls]
  simp only [List.append_assoc, Bool.and_assoc, and_self]

/-- When Ctrl cannot be pressed the key is not tapped, and both modifiers are released. -/
example :
    let rule : Rule := fun _ call => if call = .sendKey .ctrlLeft true then some .notReady else none
    let r : Rig (Sender Scripted) := ⟨{ driver := { rule } }, {}⟩
    (combo (.shift ∪ .ctrl) .c r).2.front.driver.calls =
      [.sendKey .shiftLeft true, .sendKey .ctrlLeft true, .sendKey .shiftLeft false,
       .sendKey .ctrlLeft false] := rfl

end Sender

end Keystroke
