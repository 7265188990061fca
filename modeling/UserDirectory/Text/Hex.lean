/-!
# Hexadecimal digits

A digit is a number below sixteen. It is written in lower case and read in either case;
`hexValue?_hexDigit` says that what is written is read back.
-/

namespace UserDirectory.Text

/-- The zero is spelled out, so that the instance is the same whatever else is in scope. -/
instance neZero_sixteen : @NeZero Nat ⟨0⟩ 16 := ⟨by decide⟩

/-- The lower-case character of a hexadecimal digit. -/
def hexDigit (d : Fin 16) : Char :=
  if d.val < 10 then Char.ofNat (48 + d.val) else Char.ofNat (87 + d.val)

/-- The digit that a character stands for, in either case. -/
def hexValue? (c : Char) : Option (Fin 16) :=
  let n := c.toNat
  if h : 48 ≤ n ∧ n < 58 then some ⟨n - 48, by omega⟩
  else if h : 97 ≤ n ∧ n < 103 then some ⟨n - 87, by omega⟩
  else if h : 65 ≤ n ∧ n < 71 then some ⟨n - 55, by omega⟩
  else none

@[simp] theorem hexValue?_hexDigit (d : Fin 16) : hexValue? (hexDigit d) = some d := by
  revert d
  decide

end UserDirectory.Text
