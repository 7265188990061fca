/-!
# Blank characters

The characters with the Unicode property White_Space, given as a table of ranges of code points,
and trimming by that table. Names, e-mail addresses, phone numbers and configuration values are
all judged by this one set, which is wider than the four characters that `Char.isWhitespace`
knows (`isBlank_of_isWhitespace`).
-/

namespace UserDirectory.Text

/-- The code points with the property White_Space, as inclusive ranges in increasing order. -/
def blankRanges : List (Nat × Nat) :=
  [(0x09, 0x0D), (0x20, 0x20), (0x85, 0x85), (0xA0, 0xA0), (0x1680, 0x1680), (0x2000, 0x200A),
   (0x2028, 0x2029), (0x202F, 0x202F), (0x205F, 0x205F), (0x3000, 0x3000)]

/-- Whether a character has the property White_Space. -/
def isBlank (c : Char) : Bool :=
  blankRanges.any fun range => range.1 ≤ c.toNat && c.toNat ≤ range.2

/-- A text without its leading and trailing blank characters. -/
def trim (cs : List Char) : List Char :=
  ((cs.dropWhile isBlank).reverse.dropWhile isBlank).reverse

/-- Every character that the core library calls white space is blank. -/
theorem isBlank_of_isWhitespace {c : Char} (h : c.isWhitespace = true) : isBlank c = true := by
  simp only [Char.isWhitespace, Bool.or_eq_true, decide_eq_true_eq] at h
  rcases h with ((rfl | rfl) | rfl) | rfl <;> decide

/-- The ranges hold twenty-five characters. -/
example : (blankRanges.map fun range => range.2 - range.1 + 1).sum = 25 := by decide

/-- The ranges are disjoint and increasing. -/
example : blankRanges.Pairwise fun r s => r.2 < s.1 := by decide

end UserDirectory.Text
