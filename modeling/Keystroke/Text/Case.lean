/-!
# Letter case

Names are compared without regard to the case of the letters `A` to `Z`. No other letter has a case
here: the Kelvin sign is not a `k`.
-/

namespace Keystroke.Text

/-- The text with each of the letters `A` to `Z` in lower case. -/
def foldCase (cs : List Char) : List Char := cs.map Char.toLower

/-- The string with each of the letters `A` to `Z` in lower case. -/
def lower (s : String) : String := String.ofList (foldCase s.toList)

/-- Whether two strings differ at most in the case of the letters `A` to `Z`. -/
def sameIgnoringCase (s t : String) : Bool := foldCase s.toList == foldCase t.toList

theorem sameIgnoringCase_iff {s t : String} :
    sameIgnoringCase s t = true ↔ foldCase s.toList = foldCase t.toList := by
  simp [sameIgnoringCase]

theorem sameIgnoringCase_comm (s t : String) : sameIgnoringCase s t = sameIgnoringCase t s := by
  simp only [sameIgnoringCase, Bool.beq_comm]

end Keystroke.Text
