import Keystroke.Text.Blank
import Keystroke.Text.Case
import Mathlib.Data.List.TakeWhile

/-!
# Spelling

Names are read without the blank characters around them and without regard to the case of the
letters `A` to `Z`. So one text can be spelled in many ways, of which `Respells` says how one comes
of another. Trimming and folding go together: what is left of a text after both is left of all its
spellings.

## Main statements

- `trimBoth_append`: blank characters around a text are cut off.
- `trimBoth_foldCase`: it does not matter whether a text is trimmed before its case is folded.
- `Respells.foldCase_trim`: a text that is respelled is the same after both.
-/

namespace Keystroke.Text

/-! ## Blank characters -/

section Blank

variable {before cs after : List Char}

theorem trimStart_append (h : ∀ c ∈ before, isBlank c = true) :
    trimStart (before ++ cs) = trimStart cs :=
  List.dropWhile_append_of_pos h

theorem trimEnd_append (h : ∀ c ∈ after, isBlank c = true) :
    trimEnd (cs ++ after) = trimEnd cs := by
  have hreverse : ∀ c ∈ after.reverse, isBlank c = true := by simpa using h
  unfold trimEnd
  rw [List.reverse_append, List.dropWhile_append_of_pos hreverse]

/-- Blank characters around a text are cut off. -/
theorem trimBoth_append (hbefore : ∀ c ∈ before, isBlank c = true)
    (hafter : ∀ c ∈ after, isBlank c = true) :
    trimBoth (before ++ cs ++ after) = trimBoth cs := by
  unfold trimBoth
  rw [List.append_assoc, trimStart_append hbefore]
  unfold trimStart
  rw [List.dropWhile_append]
  split
  next hcs =>
    -- the text is blank itself, so that nothing is left of it and of what stands behind it
    have hnil : after.dropWhile isBlank = [] := List.dropWhile_eq_nil_iff.2 hafter
    rw [hnil, List.isEmpty_iff.1 hcs]
  next =>
    exact trimEnd_append hafter

theorem trimBoth_of_forall_not_blank (h : ∀ c ∈ cs, isBlank c = false) : trimBoth cs = cs := by
  have hself : ∀ ds : List Char, (∀ c ∈ ds, isBlank c = false) → ds.dropWhile isBlank = ds := by
    intro ds hds
    cases ds with
    | nil => rfl
    | cons d ds => exact List.dropWhile_cons_of_neg (by simp [hds])
  unfold trimBoth trimStart trimEnd
  rw [hself cs h, hself cs.reverse (by simpa using h), List.reverse_reverse]

end Blank

/-! ## Case -/

/-- Only the letters `A` to `Z` have another small letter than themselves. -/
theorem toNat_toLower (c : Char) : c.toLower.toNat =
    if 0x41 ≤ c.toNat ∧ c.toNat ≤ 0x5A then c.toNat + 0x20 else c.toNat := by
  have hiff : (c.val ≥ 'A'.val ∧ c.val ≤ 'Z'.val) ↔ 0x41 ≤ c.toNat ∧ c.toNat ≤ 0x5A :=
    and_congr UInt32.le_iff_toNat_le UInt32.le_iff_toNat_le
  unfold Char.toLower
  simp only [hiff]
  split
  next hc =>
    show (c.val + ('a'.val - 'A'.val)).toNat = c.toNat + 0x20
    have hdistance : ('a'.val - 'A'.val).toNat = 0x20 := rfl
    rw [UInt32.toNat_add, Char.toNat_val]
    omega
  next => rfl

/-- A letter in another case is no more blank than before. -/
theorem isBlank_toLower (c : Char) : isBlank c.toLower = isBlank c := by
  rw [Bool.eq_iff_iff]
  simp only [isBlank, toNat_toLower, Bool.or_eq_true, Bool.and_eq_true, decide_eq_true_eq,
    beq_iff_eq]
  split <;> omega

/-- No character but an ASCII one has an ASCII character as its small letter. -/
theorem toNat_toLower_lt_iff (c : Char) : c.toLower.toNat < 128 ↔ c.toNat < 128 := by
  rw [toNat_toLower]
  split <;> omega

theorem trimStart_foldCase (cs : List Char) :
    trimStart (foldCase cs) = foldCase (trimStart cs) := by
  have hblank : isBlank ∘ Char.toLower = isBlank := funext isBlank_toLower
  unfold trimStart foldCase
  rw [List.dropWhile_map, hblank]

theorem trimEnd_foldCase (cs : List Char) : trimEnd (foldCase cs) = foldCase (trimEnd cs) := by
  have hstart := trimStart_foldCase cs.reverse
  unfold trimStart foldCase at hstart
  unfold trimEnd foldCase
  rw [← List.map_reverse, hstart, List.map_reverse]

/-- It does not matter whether a text is trimmed before its case is folded. -/
theorem trimBoth_foldCase (cs : List Char) : trimBoth (foldCase cs) = foldCase (trimBoth cs) := by
  unfold trimBoth
  rw [trimStart_foldCase, trimEnd_foldCase]

/-! ## Spellings -/

/-- The second text is the first one but for the case of the letters `A` to `Z` and for blank
characters around it. -/
def Respells (s t : String) : Prop :=
  ∃ before mid after : String, t = before ++ mid ++ after ∧ sameIgnoringCase s mid = true ∧
    (∀ c ∈ before.toList, isBlank c = true) ∧ ∀ c ∈ after.toList, isBlank c = true

theorem respells_of_all {s t : String} (before mid after : String)
    (h : t = before ++ mid ++ after ∧ sameIgnoringCase s mid = true ∧
      before.toList.all isBlank = true ∧ after.toList.all isBlank = true) : Respells s t := by
  simp only [List.all_eq_true] at h
  exact ⟨before, mid, after, h⟩

/-- A text that is respelled is the same when it is trimmed and its case is folded. -/
theorem Respells.foldCase_trim {s t : String} (h : Respells s t) :
    foldCase (trim t).toList = foldCase (trim s).toList := by
  obtain ⟨before, mid, after, rfl, hsame, hbefore, hafter⟩ := h
  rw [sameIgnoringCase_iff] at hsame
  unfold trim
  simp only [String.toList_ofList, String.toList_append]
  rw [trimBoth_append hbefore hafter, ← trimBoth_foldCase, ← hsame, trimBoth_foldCase]

theorem Respells.trim {s t : String} (h : Respells s t) : Respells (trim s) (trim t) := by
  refine ⟨"", Text.trim t, "", ?_, sameIgnoringCase_iff.2 h.foldCase_trim.symm, ?_, ?_⟩
  · simp
  · simp
  · simp

end Keystroke.Text
