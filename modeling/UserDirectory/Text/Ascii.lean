/-!
# Letter case within ASCII

E-mail addresses are compared, and configuration words are read, without regard to the case of
the letters A to Z. All other characters stand for themselves.
-/

namespace UserDirectory.Text

/-- A text with the letters A to Z in lower case. -/
def foldCase (s : String) : List Char := s.toList.map Char.toLower

/-- Whether two texts are equal up to the case of the letters A to Z. -/
def sameIgnoringCase (s t : String) : Bool := foldCase s == foldCase t

theorem sameIgnoringCase_iff {s t : String} :
    sameIgnoringCase s t = true ↔ foldCase s = foldCase t := by
  simp [sameIgnoringCase]

end UserDirectory.Text
