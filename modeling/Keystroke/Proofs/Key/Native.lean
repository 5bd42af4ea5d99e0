import Keystroke.Key.Quartz
import Keystroke.Key.VirtualKey
import Keystroke.Proofs.Key.Evdev

/-!
# Key codes of macOS and Windows there and back

## Main statements

- `ofQuartzCode_eq`: the macOS code of a key leads back to the key.
- `ofVirtualKey_eq`: so does the virtual-key code together with the extended flag.
- `codedBy_quartzCode_iff`, `struckBy_iff`: the keys that are decoded, by the tables of codes alone.
-/

namespace Keystroke

namespace Key

/-- The macOS code of a key leads back to the key. -/
theorem ofQuartzCode_eq {key : Key} {code : UInt16} (h : key.quartzCode = some code) :
    ofQuartzCode code = key := by
  have hall : ∀ key ∈ all, key.quartzCode.all fun code => ofQuartzCode code = key := by
    decide +kernel
  exact decode_eq rfl hall h

/-- The virtual-key code of a key leads back to the key if the extended flag is that of the key. -/
theorem ofVirtualKey_eq {key : Key} {code : UInt16} (h : key.virtualKey = some code) :
    ofVirtualKey code key.isExtended = key := by
  have hall : ∀ key ∈ all, key.virtualKey.all fun code =>
      ofVirtualKey code key.isExtended = key := by
    decide +kernel
  exact decode_eq rfl hall h

/-- The key of a code: one that has the code, and the unknown key if there is none. -/
def CodedBy (encode : Key → Option UInt16) (code : UInt16) (key : Key) : Prop :=
  encode key = some code ∨ key = .unknown ∧ ∀ other, encode other ≠ some code

/-- What a search through all keys finds is the key of the code, if there is but one. -/
theorem codedBy_find? {encode : Key → Option UInt16} {code : UInt16} {key : Key}
    (hunknown : encode .unknown = none)
    (h : (all.find? (encode · == some code)).getD .unknown = key) : CodedBy encode code key := by
  cases hfind : all.find? (encode · == some code) with
  | some found =>
    rw [hfind, Option.getD_some] at h
    rw [← h]
    exact .inl (eq_of_beq (List.find?_some (p := fun key => encode key == some code) hfind))
  | none =>
    rw [hfind, Option.getD_none] at h
    refine .inr ⟨h.symm, fun other hother => ?_⟩
    have hne : other ≠ .unknown := by
      rintro rfl
      rw [hunknown] at hother
      cases hother
    exact List.find?_eq_none.1 hfind other (mem_all hne) (beq_iff_eq.2 hother)

theorem find?_of_not_coded {encode : Key → Option UInt16} {code : UInt16}
    (h : ∀ other, encode other ≠ some code) :
    (all.find? (encode · == some code)).getD .unknown = .unknown := by
  rw [List.find?_eq_none.2 fun other _ => by simp [h other]]
  rfl

/-- On macOS the key of a code is decoded. -/
theorem codedBy_quartzCode_iff {code : UInt16} {key : Key} :
    CodedBy quartzCode code key ↔ ofQuartzCode code = key := by
  constructor
  · rintro (h | ⟨rfl, hnone⟩)
    · exact ofQuartzCode_eq h
    · exact find?_of_not_coded hnone
  · exact codedBy_find? rfl

/-- The key of a virtual-key code and the extended flag. Both enter keys have the code 13, and the
one on the number pad is the extended one; to all other keys the flag makes no difference. -/
structure StruckBy (code : UInt16) (extended : Bool) (key : Key) : Prop where
  coded : CodedBy virtualKey code key
  enter : code = 13 → key = if extended then .numpadEnter else .enter

/-- On Windows the key of a code and a flag is decoded. -/
theorem struckBy_iff {code : UInt16} {extended : Bool} {key : Key} :
    StruckBy code extended key ↔ ofVirtualKey code extended = key := by
  have hall : ∀ key ∈ all, key.virtualKey.all fun code =>
      code = 13 ∨ ofVirtualKey code extended = key := by
    cases extended <;> decide +kernel
  by_cases hcode : code = 13
  · subst hcode
    have hdecode : ofVirtualKey 13 extended = if extended then .numpadEnter else .enter := rfl
    rw [hdecode]
    constructor
    · intro h
      exact (h.enter rfl).symm
    · rintro rfl
      refine ⟨.inl ?_, fun _ => rfl⟩
      cases extended <;> rfl
  · have hdecode : ofVirtualKey code extended =
        (all.find? (·.virtualKey == some code)).getD .unknown := if_neg hcode
    constructor
    · rintro ⟨h | ⟨rfl, hnone⟩, -⟩
      · have hne : key ≠ .unknown := by
          rintro rfl
          cases h
        have hkey := hall key (mem_all hne)
        rw [h] at hkey
        simpa [hcode] using hkey
      · exact hdecode.trans (find?_of_not_coded hnone)
    · intro h
      rw [hdecode] at h
      exact ⟨codedBy_find? rfl h, fun h => absurd h hcode⟩

end Key

end Keystroke
