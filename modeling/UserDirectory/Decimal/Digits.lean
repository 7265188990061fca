/-!
# Decimal digits

Natural numbers as lists of decimal digits, most significant first. `value_digits` says that
writing a number and reading it gives the number back, and `value_padded` that leading zeros do
not matter.
-/

namespace UserDirectory.Decimal

abbrev Digit := Fin 10

/-- The zero is spelled out, so that the instance is the same whatever else is in scope. -/
instance neZero_ten : @NeZero Nat ⟨0⟩ 10 := ⟨by decide⟩

def Digit.char (d : Digit) : Char := Char.ofNat (48 + d.val)

/-- The digit that a character stands for. -/
def digit? (c : Char) : Option Digit :=
  if h : 48 ≤ c.toNat ∧ c.toNat < 58 then some ⟨c.toNat - 48, by omega⟩ else none

def value (ds : List Digit) : Nat := ds.foldl (fun n d => 10 * n + d.val) 0

/-- The digits of a number, without leading zeros; zero has one digit. -/
def digits (n : Nat) : List Digit :=
  if h : n < 10 then [⟨n, h⟩] else digits (n / 10) ++ [⟨n % 10, Nat.mod_lt n (by decide)⟩]

/-- The digits of a number, with leading zeros up to a width. -/
def padded (width n : Nat) : List Digit :=
  List.replicate (width - (digits n).length) 0 ++ digits n

def chars (n : Nat) : List Char := (digits n).map Digit.char

def paddedChars (width n : Nat) : List Char := (padded width n).map Digit.char

def text (n : Nat) : String := String.ofList (chars n)

@[simp] theorem digit?_char (d : Digit) : digit? d.char = some d := by
  revert d
  decide

theorem value_concat (ds : List Digit) (d : Digit) : value (ds ++ [d]) = 10 * value ds + d.val := by
  simp [value]

@[simp] theorem value_digits (n : Nat) : value (digits n) = n := by
  induction n using Nat.strongRecOn with
  | ind n ih =>
    rw [digits]
    split
    · simp [value]
    · rw [value_concat, ih (n / 10) (by omega)]
      simp only
      omega

theorem value_replicate_zero_append (k : Nat) (ds : List Digit) :
    value (List.replicate k 0 ++ ds) = value ds := by
  induction k with
  | zero => rfl
  | succ k ih => simpa [List.replicate_succ, value] using ih

@[simp] theorem value_padded (width n : Nat) : value (padded width n) = n := by
  rw [padded, value_replicate_zero_append, value_digits]

end UserDirectory.Decimal
