import Keystroke.Capture.EventTap
import Keystroke.Proofs.Key.Native
import Keystroke.Proofs.Modifier.History
import Keystroke.Proofs.Modifier.Quartz
import Mathlib.Data.List.Forall2

/-!
# What the tap sees, and what it means

What the tap sees during a slice leaves messages in the queue, and each message tells of a key event
or of nothing. Both are said here without the functions that compute them: which kind of event
leaves which message, which key a number stands for, which flag a modifier has, and in which
direction a modifier key went.

## Main statements

- `queued_iff`, `exists_queued`: the queue of a slice, and a slice for each queue.
- `isPress_iff_own`: when a change of the flags is a press.
- `tells_iff`: the event that a message tells of.
-/

namespace Keystroke

namespace Key

/-- The modifier of a bit is that of the key: a chord modifier that the key holds, or its lock. -/
def Owns (key : Key) (i : Nat) : Prop := key ∈ sides i ∨ key ∈ locking i

theorem bit_own_iff (key : Key) (i : Nat) :
    (key.modifierBit ∪ key.lockBit).bit i = true ↔ key.Owns i := by
  rw [Modifier.bit_union, bit_modifierBit, bit_lockBit, Bool.or_eq_true, List.contains_iff_mem,
    List.contains_iff_mem]
  rfl

/-- A key has at most one modifier. -/
theorem Owns.index_eq {key : Key} {i j : Nat} (h : key.Owns i) (h' : key.Owns j) : i = j := by
  have hlocks : ∀ {i j : Nat}, key ∈ locking i → key ∉ sides j := by
    intro i j hlock hside
    have hall : ∀ j < 4, .capsLock ∉ sides j ∧ .numLock ∉ sides j := by decide
    obtain ⟨-, rfl⟩ | ⟨-, rfl⟩ := cases_of_mem_locking hlock
    · exact (hall j (lt_of_mem_sides hside)).1 hside
    · exact (hall j (lt_of_mem_sides hside)).2 hside
  -- a lock key is on no side, so both bits are of the same kind
  rcases h with hi | hi <;> rcases h' with hj | hj
  · exact index_eq_of_mem_sides hi hj
  · exact absurd hi (hlocks hj)
  · exact absurd hj (hlocks hi)
  · obtain ⟨rfl, rfl⟩ | ⟨rfl, rfl⟩ := cases_of_mem_locking hi <;>
      obtain ⟨rfl, hkey⟩ | ⟨rfl, hkey⟩ := cases_of_mem_locking hj
    · rfl
    · cases hkey
    · cases hkey
    · rfl

end Key

namespace EventTap

/-! ## Queues -/

/-- What the tap sees leaves a queue of messages: one for each key that goes down or up, each change
of the modifier flags and each time that the tap is disabled, and none for anything else. Of the
number of a key the low 16 bits count. -/
inductive Queued : List Event → List Message → Prop where
  | nil : Queued [] []
  | down {n : Int} {code : UInt16} {flags seen queue} (hcode : n % 0x10000 = code.toNat)
      (h : Queued seen queue) :
      Queued (⟨.down, n, flags⟩ :: seen) (.key code flags true :: queue)
  | up {n : Int} {code : UInt16} {flags seen queue} (hcode : n % 0x10000 = code.toNat)
      (h : Queued seen queue) :
      Queued (⟨.up, n, flags⟩ :: seen) (.key code flags false :: queue)
  | flagsChanged {n : Int} {code : UInt16} {flags seen queue} (hcode : n % 0x10000 = code.toNat)
      (h : Queued seen queue) :
      Queued (⟨.flagsChanged, n, flags⟩ :: seen) (.flagsChanged code flags :: queue)
  | disabled {n flags seen queue} (h : Queued seen queue) :
      Queued (⟨.disabled, n, flags⟩ :: seen) (.disabled :: queue)
  | other {n flags seen queue} (h : Queued seen queue) : Queued (⟨.other, n, flags⟩ :: seen) queue

theorem code_eq_iff {n : Int} {code : UInt16} :
    n % 0x10000 = code.toNat ↔ (n % 0x10000).toNat.toUInt16 = code := by
  constructor
  · intro h
    rw [h, Int.toNat_natCast]
    exact UInt16.ofNat_toNat
  · rintro rfl
    have hlow : (n % 0x10000).toNat < 2 ^ 16 := by omega
    rw [Nat.toUInt16, UInt16.toNat_ofNat_of_lt' hlow]
    omega

/-- The queue holds the messages of what the tap sees. -/
theorem queued_iff {seen : List Event} {queue : List Message} :
    Queued seen queue ↔ seen.filterMap (·.message?) = queue := by
  constructor
  · intro h
    induction h with
    | nil => rfl
    | down hcode _ ih | up hcode _ ih | flagsChanged hcode _ ih =>
      rw [code_eq_iff] at hcode
      rw [List.filterMap_cons, ih]
      simp only [Event.message?, hcode]
    | disabled _ ih =>
      rw [List.filterMap_cons, ih]
      rfl
    | other _ ih =>
      rw [List.filterMap_cons, ih]
      rfl
  · intro h
    induction seen generalizing queue with
    | nil =>
      cases h
      exact .nil
    | cons event seen ih =>
      have hrest := ih rfl
      subst h
      obtain ⟨kind, n, flags⟩ := event
      cases kind with
      | down => exact .down (code_eq_iff.2 rfl) hrest
      | up => exact .up (code_eq_iff.2 rfl) hrest
      | flagsChanged => exact .flagsChanged (code_eq_iff.2 rfl) hrest
      | disabled => exact .disabled hrest
      | other => exact .other hrest

/-- Each queue is left by something. -/
theorem exists_queued (queue : List Message) : ∃ seen, Queued seen queue := by
  induction queue with
  | nil => exact ⟨[], .nil⟩
  | cons message queue ih =>
    obtain ⟨seen, hseen⟩ := ih
    have hcode : ∀ code : UInt16, (code.toNat : Int) % 0x10000 = code.toNat := fun code => by
      have hlow := code.toNat_lt
      omega
    cases message with
    | key code flags down =>
      cases down with
      | true => exact ⟨⟨.down, code.toNat, flags⟩ :: seen, .down (hcode code) hseen⟩
      | false => exact ⟨⟨.up, code.toNat, flags⟩ :: seen, .up (hcode code) hseen⟩
    | flagsChanged code flags =>
      exact ⟨⟨.flagsChanged, code.toNat, flags⟩ :: seen, .flagsChanged (hcode code) hseen⟩
    | disabled => exact ⟨⟨.disabled, 0, 0⟩ :: seen, .disabled hseen⟩

/-- What is related to a list element by element by the graph of a function is its image. -/
theorem forall₂_iff_map {α β : Type} {R : α → β → Prop} {f : α → β} (h : ∀ a b, R a b ↔ f a = b)
    {xs : List α} {ys : List β} : List.Forall₂ R xs ys ↔ xs.map f = ys := by
  have hR : R = fun a b => f a = b := funext₂ fun a b => propext (h a b)
  rw [hR, ← List.forall₂_map_left_iff, List.forall₂_eq_eq_eq]

/-- The queues that the slices of a script leave. -/
theorem forall₂_queued_iff {script : List (List Event)} {queues : List (List Message)} :
    List.Forall₂ Queued script queues ↔
      script.map (fun seen => seen.filterMap (·.message?)) = queues :=
  forall₂_iff_map (R := Queued) fun _ _ => queued_iff

/-! ## Events -/

/-- A change of the modifier flags is a press if the modifier of the key is set. -/
theorem isPress_iff_own (key : Key) (mask : Modifier) :
    isPress key mask = true ↔ ∃ i, key.Owns i ∧ mask.bit i = true := by
  have hsome : (key.modifierBit ∪ key.lockBit).isEmpty = false ↔ ∃ i, key.Owns i := by
    simp only [← Key.bit_own_iff]
    rw [← Bool.not_eq_true, Modifier.isEmpty_iff_bit, not_forall]
    simp only [Bool.not_eq_false]
  have hcontains : mask.contains (key.modifierBit ∪ key.lockBit) = true ↔
      ∀ i, key.Owns i → mask.bit i = true := by
    simp only [Modifier.contains_iff_bit, Key.bit_own_iff]
  -- a key has one modifier, so the mask contains it as soon as it has a bit of it
  unfold isPress
  rw [Bool.and_eq_true, Bool.not_eq_true', hsome, hcontains]
  constructor
  · rintro ⟨⟨i, hi⟩, hall⟩
    exact ⟨i, hi, hall i hi⟩
  · rintro ⟨i, hi, hbit⟩
    refine ⟨⟨i, hi⟩, fun j hj => ?_⟩
    rwa [hj.index_eq hi]

/-- The event of which a message tells, if any. It is about the key that has the code, and about the
unknown key if none has it; a modifier is in its mask if its flag is set. For a change of the flags
it is a press if the modifier of the key is in the mask. -/
inductive Message.Tells : Message → Option KeyEvent → Prop where
  | key {code flags down key mask} (hkey : Key.CodedBy Key.quartzCode code key)
      (hmask : ∀ i, mask.bit i = (Modifier.flag? i).any flags.testBit) :
      Tells (.key code flags down) (some (.of key mask down))
  | flagsChanged {code flags key mask pressed} (hkey : Key.CodedBy Key.quartzCode code key)
      (hmask : ∀ i, mask.bit i = (Modifier.flag? i).any flags.testBit)
      (hpressed : pressed = true ↔ ∃ i, key.Owns i ∧ mask.bit i = true) :
      Tells (.flagsChanged code flags) (some (.of key mask pressed))
  | disabled : Tells .disabled none

theorem mask_eq_iff {mask : Modifier} {flags : Nat} :
    (∀ i, mask.bit i = (Modifier.flag? i).any flags.testBit) ↔ Modifier.ofQuartz flags = mask := by
  constructor
  · intro h
    exact Modifier.ext_bit fun i _ => by rw [Modifier.bit_ofQuartz_eq, h]
  · rintro rfl i
    exact Modifier.bit_ofQuartz_eq flags i

/-- A message tells of its event. -/
theorem tells_iff {message : Message} {answer : Option KeyEvent} :
    message.Tells answer ↔ message.event? = answer := by
  constructor
  · intro h
    cases h with
    | key hkey hmask =>
      rw [Key.codedBy_quartzCode_iff] at hkey
      rw [mask_eq_iff] at hmask
      rw [Message.event?, hkey, hmask]
    | flagsChanged hkey hmask hpressed =>
      rw [Key.codedBy_quartzCode_iff] at hkey
      rw [mask_eq_iff] at hmask
      rw [← isPress_iff_own, ← Bool.eq_iff_iff] at hpressed
      simp only [Message.event?, hkey, hmask, hpressed]
    | disabled => rfl
  · rintro rfl
    cases message with
    | key code flags down => exact .key (Key.codedBy_quartzCode_iff.2 rfl) (mask_eq_iff.2 rfl)
    | flagsChanged code flags =>
      exact .flagsChanged (Key.codedBy_quartzCode_iff.2 rfl) (mask_eq_iff.2 rfl)
        (isPress_iff_own _ _)
    | disabled => exact .disabled

theorem forall₂_tells_iff {messages : List Message} {answers : List (Option KeyEvent)} :
    List.Forall₂ Message.Tells messages answers ↔ messages.map (·.event?) = answers :=
  forall₂_iff_map (R := Message.Tells) fun _ _ => tells_iff

end EventTap

end Keystroke
