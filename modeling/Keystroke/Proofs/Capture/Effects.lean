import Keystroke.Capture.Program

/-!
# Effects of a capture program

What becomes of a program is told by the effects that it had on the way, the answers to its looks at
the flag among them, and by how it came to its end. Nothing is said about who lowers the flag and
when: every answer is possible at every look.

Programs that report, wait for a request or serve an inbox are not followed any further.

## Main statements

- `Ran.bind`, `ran_bind`: the effects of a program and those of what follows are put together.
-/

namespace Keystroke.Capture

/-- What a program does or learns in one step. -/
inductive Effect where
  | looked (up : Bool)
  | recorded (entry : Entry)
  | delivered (event : KeyEvent)

inductive Outcome (α : Type) where
  | returned (result : α)
  | broken

/-- A program comes to its end by way of the effects. One that waits for the flag to be lowered goes
on when it has seen it down. -/
inductive Ran {α : Type} : Capture α → List Effect → Outcome α → Prop where
  | done (a) : Ran (done a) [] (.returned a)
  | crash : Ran crash [] .broken
  | record (entry) {next es o} (h : Ran next es o) :
      Ran (record entry next) (.recorded entry :: es) o
  | running (up) {next : Bool → Capture α} {es o} (h : Ran (next up) es o) :
      Ran (running next) (.looked up :: es) o
  | deliver (event) {next es o} (h : Ran next es o) :
      Ran (deliver event next) (.delivered event :: es) o
  | idle {next es o} (h : Ran next es o) : Ran (idle next) (.looked false :: es) o

variable {α β : Type} {p : Capture α} {f : α → Capture β} {es : List Effect}

theorem Ran.bind {a : α} {es' : List Effect} {o : Outcome β} (h : Ran p es (.returned a))
    (hf : Ran (f a) es' o) : Ran (p.bind f) (es ++ es') o := by
  induction p generalizing es with
  | done b =>
    cases h
    exact hf
  | record entry next ih =>
    cases h with
    | record _ h => exact .record entry (ih h)
  | running next ih =>
    cases h with
    | running up h => exact .running up (ih up h)
  | deliver event next ih =>
    cases h with
    | deliver _ h => exact .deliver event (ih h)
  | idle next ih =>
    cases h with
    | idle h => exact .idle (ih h)
  | crash | report | defer | quitting | postQuit | awaitQuit | serve => cases h

/-- A program that goes on as another one breaks off, or returns and leaves the rest to that one. -/
theorem ran_bind {o : Outcome β} (h : Ran (p.bind f) es o) :
    (o = .broken ∧ Ran p es .broken) ∨
      ∃ es₁ es₂ a, es = es₁ ++ es₂ ∧ Ran p es₁ (.returned a) ∧ Ran (f a) es₂ o := by
  induction p generalizing es with
  | done a => exact .inr ⟨[], es, a, rfl, .done a, h⟩
  | crash =>
    cases h
    exact .inl ⟨rfl, .crash⟩
  | record entry next ih =>
    cases h with
    | record _ h =>
      rcases ih h with ⟨rfl, hp⟩ | ⟨es₁, es₂, a, rfl, hp, hf⟩
      · exact .inl ⟨rfl, .record entry hp⟩
      · exact .inr ⟨_ :: es₁, es₂, a, rfl, .record entry hp, hf⟩
  | running next ih =>
    cases h with
    | running up h =>
      rcases ih up h with ⟨rfl, hp⟩ | ⟨es₁, es₂, a, rfl, hp, hf⟩
      · exact .inl ⟨rfl, .running up hp⟩
      · exact .inr ⟨_ :: es₁, es₂, a, rfl, .running up hp, hf⟩
  | deliver event next ih =>
    cases h with
    | deliver _ h =>
      rcases ih h with ⟨rfl, hp⟩ | ⟨es₁, es₂, a, rfl, hp, hf⟩
      · exact .inl ⟨rfl, .deliver event hp⟩
      · exact .inr ⟨_ :: es₁, es₂, a, rfl, .deliver event hp, hf⟩
  | idle next ih =>
    cases h with
    | idle h =>
      rcases ih h with ⟨rfl, hp⟩ | ⟨es₁, es₂, a, rfl, hp, hf⟩
      · exact .inl ⟨rfl, .idle hp⟩
      · exact .inr ⟨_ :: es₁, es₂, a, rfl, .idle hp, hf⟩
  | report | defer | quitting | postQuit | awaitQuit | serve => cases h

end Keystroke.Capture
