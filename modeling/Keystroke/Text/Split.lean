/-!
# Splitting at a separator

A text is cut at every occurrence of one character. The parts between the separators may be empty,
and there is always one part more than there are separators.
-/

namespace Keystroke.Text

/-- The parts of a list of characters between the occurrences of `sep`. -/
def splitChars (sep : Char) : List Char → List (List Char)
  | [] => [[]]
  | c :: cs =>
    if c = sep then [] :: splitChars sep cs
    else match splitChars sep cs with
      | [] => [[c]]
      | part :: parts => (c :: part) :: parts

/-- The parts of a string between the occurrences of `sep`. -/
def split (sep : Char) (s : String) : List String := (splitChars sep s.toList).map String.ofList

theorem splitChars_ne_nil (sep : Char) (cs : List Char) : splitChars sep cs ≠ [] := by
  cases cs with
  | nil => simp [splitChars]
  | cons c cs =>
    simp only [splitChars]
    split
    · simp
    · split <;> simp

theorem splitChars_of_forall_ne {sep : Char} {cs : List Char} (h : ∀ c ∈ cs, c ≠ sep) :
    splitChars sep cs = [cs] := by
  induction cs with
  | nil => rfl
  | cons c cs ih =>
    simp only [List.mem_cons, forall_eq_or_imp] at h
    simp [splitChars, h.1, ih h.2]

/-- No part holds a separator. -/
theorem not_mem_of_mem_splitChars {sep : Char} {cs part : List Char}
    (h : part ∈ splitChars sep cs) : sep ∉ part := by
  induction cs generalizing part with
  | nil => simp_all [splitChars]
  | cons c cs ih =>
    simp only [splitChars] at h
    split at h
    · rcases List.mem_cons.1 h with rfl | h
      · exact List.not_mem_nil
      · exact ih h
    next hc =>
      split at h
      next he => exact absurd he (splitChars_ne_nil sep cs)
      next first parts hs =>
        rcases List.mem_cons.1 h with rfl | h
        · have := ih (hs ▸ List.mem_cons_self)
          simp [this, Ne.symm hc]
        · exact ih (hs ▸ List.mem_cons_of_mem first h)

/-- The parts with the separators between them are the text. -/
theorem intercalate_splitChars (sep : Char) (cs : List Char) :
    [sep].intercalate (splitChars sep cs) = cs := by
  induction cs with
  | nil => rfl
  | cons c cs ih =>
    simp only [splitChars]
    split
    next hc =>
      cases hs : splitChars sep cs with
      | nil => exact absurd hs (splitChars_ne_nil sep cs)
      | cons part parts =>
        rw [hs] at ih
        simp only [List.intercalate, List.intersperse, List.flatten_cons] at ih ⊢
        simp [ih, hc]
    · split
      next he => exact absurd he (splitChars_ne_nil sep cs)
      next first parts hs =>
        rw [hs] at ih
        cases parts with
        | nil => simpa [List.intercalate] using ih
        | cons p ps => simpa [List.intercalate] using ih

end Keystroke.Text
