import Keystroke.Key.Evdev

/-!
# Key codes there and back

## Main statements

- `ofEvdevCode_eq`: the code of a key leads back to the key.
- `evdevCode_eq_none`: only one key has no code.
- `evdevCode_eq`: the key of a code has this code, but for one key that has two.
-/

namespace Keystroke

namespace Key

theorem mem_all {key : Key} (h : key ≠ .unknown) : key ∈ all := by
  cases key <;> first | exact absurd rfl h | decide

theorem evdevCode_eq_none {key : Key} (h : key.evdevCode = none) : key = .unknown := by
  cases key <;> first | rfl | cases h

/-- A table that decodes the codes of all named keys decodes that of every key that has one. -/
theorem decode_eq {encode : Key → Option UInt16} {decode : Key → UInt16 → Key}
    (hunknown : encode .unknown = none)
    (hall : ∀ key ∈ all, (encode key).all fun code => decode key code = key) {key : Key}
    {code : UInt16} (h : encode key = some code) : decode key code = key := by
  have hne : key ≠ .unknown := by
    rintro rfl
    rw [hunknown] at h
    cases h
  have hkey := hall key (mem_all hne)
  rw [h] at hkey
  simpa using hkey

/-- The code of a key leads back to the key. -/
theorem ofEvdevCode_eq {key : Key} {code : UInt16} (h : key.evdevCode = some code) :
    ofEvdevCode code = key := by
  -- the search for a code goes through all keys, so it is done once for every key
  have hall : ∀ key ∈ all, key.evdevCode.all fun code => ofEvdevCode code = key := by
    decide +kernel
  exact decode_eq rfl hall h

/-- A key of a code, unless it has a second one, has this code. -/
theorem evdevCode_eq {key : Key} {code : UInt16} (hne : key ≠ .menu) (hknown : key ≠ .unknown)
    (h : ofEvdevCode code = key) : key.evdevCode = some code := by
  unfold ofEvdevCode at h
  split at h
  · exact absurd h.symm hne
  · cases hfind : all.find? (·.evdevCode == some code) with
    | none =>
      rw [hfind] at h
      exact absurd h.symm hknown
    | some found =>
      rw [hfind, Option.getD_some] at h
      rw [← h]
      exact eq_of_beq (List.find?_some (p := fun key : Key => key.evdevCode == some code) hfind)

end Key

end Keystroke
