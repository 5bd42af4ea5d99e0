import Keystroke.Driver.Basic

/-!
# The scripted driver

A driver that accepts or refuses each call by a rule over the calls that came before. It serves to
observe exactly what a sender asks of its driver, whatever the driver answers.
-/

namespace Keystroke

namespace Scripted

inductive Call where
  | sendKey (key : Key) (down : Bool)
  | typeText (s : String)
  | typeChar (c : Char)
  | flush
  | delay
  deriving DecidableEq, Repr

inductive CallKind where
  | sendKey | typeText | typeChar | flush | delay
  deriving DecidableEq, Repr

def Call.kind : Call → CallKind
  | sendKey .. => .sendKey
  | typeText _ => .typeText
  | typeChar _ => .typeChar
  | flush => .flush
  | delay => .delay

/-- A refusal of the call of a kind before which exactly `nth` others of the kind were made. -/
structure Fault where
  kind : CallKind
  nth : Nat
  error : DriverError
  deriving DecidableEq, Repr

def ruleOf (faults : List Fault) (history : List Call) (call : Call) : Option DriverError :=
  let nth := history.countP (·.kind == call.kind)
  (faults.find? fun f => f.kind == call.kind && f.nth == nth).map (·.error)

end Scripted

structure Scripted where
  ready : Bool := true
  /-- The readiness after permissions were asked for, if that changes it. -/
  grant : Option Bool := none
  keyDelay : KeyDelay := .zero
  /-- Why a call fails after the given earlier calls, if so. -/
  rule : List Scripted.Call → Scripted.Call → Option DriverError := fun _ _ => none
  /-- All calls so far, oldest first, successful or not. -/
  calls : List Scripted.Call := []

namespace Scripted

/-- The driver after one more call. -/
def add (call : Call) (d : Scripted) : Scripted := { d with calls := d.calls ++ [call] }

def verdict (d : Scripted) (call : Call) : DriverResult :=
  match d.rule d.calls call with
  | some e => .error e
  | none => .ok ()

def answer (call : Call) : StateM (Rig Scripted) DriverResult := do
  let d := (← get).front
  modify fun r => { r with front := d.add call }
  return d.verdict call

instance : KeyboardDriver Scripted where
  backend := .mock
  released := { ready := false }
  capabilities _ := {}
  isReady := ready
  keyCode _ _ := none
  keyDelay := keyDelay
  setKeyDelay delay d := { d with keyDelay := delay }
  diagnostic _ := none
  requestPermissions := do
    modify fun r => { r with front := { r.front with ready := r.front.grant.getD r.front.ready } }
    return (← get).front.ready
  sendKey key down := answer (.sendKey key down)
  typeText s := answer (.typeText s)
  typeChar ch := answer (.typeChar ch)
  flush := answer .flush
  delay := do
    modify fun r => { r with front := r.front.add .delay }
    Rig.pause (← get).front.keyDelay

end Scripted

end Keystroke
