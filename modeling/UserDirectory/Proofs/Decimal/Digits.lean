import Mathlib.Data.List.Induction
import UserDirectory.Decimal.Digits
import UserDirectory.Proofs.Text

/-!
# What digits denote

The number that digits denote is said here from the last digit on, in any base (`Denotes`), and the
spellings of a number are all the digits that denote it, with zeros in front or without (`Spells`).
Of these it is written in the one that has no zero in front (`digits_value`).
-/

namespace UserDirectory

/-- The number that one or more digits denote. -/
inductive Denotes {base : Nat} : List (Fin base) → Nat → Prop
  | one (d : Fin base) : Denotes [d] d
  | more {ds : List (Fin base)} {n : Nat} (h : Denotes ds n) (d : Fin base) :
      Denotes (ds ++ [d]) (base * n + d)

theorem denotes_foldl {base : Nat} {ds : List (Fin base)} (hne : ds ≠ []) :
    Denotes ds (ds.foldl (fun n d => base * n + d.val) 0) := by
  induction ds using List.reverseRecOn with
  | nil => exact absurd rfl hne
  | append_singleton init d ih =>
    rw [List.foldl_append]
    cases init with
    | nil =>
      show Denotes [d] (base * 0 + d.val)
      rw [Nat.mul_zero, Nat.zero_add]
      exact .one d
    | cons e init => exact .more (ih (by simp)) d

theorem denotes_iff {base : Nat} {ds : List (Fin base)} {n : Nat} :
    Denotes ds n ↔ ds ≠ [] ∧ ds.foldl (fun n d => base * n + d.val) 0 = n := by
  constructor
  · intro h
    induction h with
    | one d => exact ⟨by simp, by simp⟩
    | more h d ih =>
      refine ⟨by simp, ?_⟩
      rw [List.foldl_append, ih.2]
      rfl
  · rintro ⟨hne, rfl⟩
    exact denotes_foldl hne

namespace Decimal

/-! ## The digits of a number -/

theorem digits_ne_nil (n : Nat) : digits n ≠ [] := by
  rw [digits]
  split <;> simp

/-- Of all numbers only zero is written with a zero in front. -/
theorem eq_nil_of_digits_eq {n : Nat} {ds : List Digit} (h : digits n = 0 :: ds) : ds = [] := by
  induction n using Nat.strongRecOn generalizing ds with
  | ind n ih =>
    rw [digits] at h
    split at h
    · simp only [List.cons.injEq] at h
      exact h.2.symm
    · -- the digits before the last are those of a positive number
      cases hinit : digits (n / 10) with
      | nil => exact absurd hinit (digits_ne_nil _)
      | cons d init =>
        rw [hinit, List.cons_append, List.cons.injEq] at h
        rw [h.1] at hinit
        have hvalue := value_digits (n / 10)
        rw [hinit, ih (n / 10) (by omega) hinit] at hvalue
        simp only [value, List.foldl_cons, List.foldl_nil, Fin.val_zero] at hvalue
        omega

/-- A number below a power of ten has no more digits than the exponent says. -/
theorem length_digits_le {n w : Nat} (hw : 0 < w) (h : n < Nat.pow 10 w) :
    (digits n).length ≤ w := by
  induction w generalizing n with
  | zero => exact absurd hw (by omega)
  | succ w ih =>
    rw [digits]
    split
    · simp
    · rw [List.length_append, List.length_singleton]
      have hw : 0 < w := by
        rcases Nat.eq_zero_or_pos w with rfl | hw
        · exact absurd (show n < 10 from h) ‹_›
        · exact hw
      have hn : n / 10 < Nat.pow 10 w := by
        have hstep : Nat.pow 10 (w + 1) = Nat.pow 10 w * 10 := rfl
        omega
      have := ih hw hn
      omega

/-- **Digits without a zero in front are the digits in which their number is written.** -/
theorem digits_value {ds : List Digit} (hne : ds ≠ []) (hzero : ∀ ds', ds = 0 :: ds' → ds' = []) :
    digits (value ds) = ds := by
  induction ds using List.reverseRecOn with
  | nil => exact absurd rfl hne
  | append_singleton init d ih =>
    rw [value_concat]
    cases init with
    | nil =>
      rw [digits, dif_pos (by simp [value])]
      simp [value]
    | cons e init =>
      have he : e ≠ 0 := by
        intro he
        exact absurd (hzero (init ++ [d]) (by rw [he]; rfl)) (by simp)
      have hinit : digits (value (e :: init)) = e :: init :=
        ih (by simp) fun ds' h => absurd (List.cons.inj h).1 he
      -- the digits before the last are not those of zero
      have hpos : value (e :: init) ≠ 0 := by
        intro h
        rw [h, digits, dif_pos (by decide)] at hinit
        exact he (List.cons.inj hinit).1.symm
      have hd := d.isLt
      have hdiv : (10 * value (e :: init) + d.val) / 10 = value (e :: init) := by omega
      have hmod : (10 * value (e :: init) + d.val) % 10 = d.val := by omega
      rw [digits, dif_neg (by omega)]
      simp only [hdiv, hmod, hinit]

/-! ## The spellings of a number -/

/-- A character is read as a digit if it is the mark of the digit. It is taken as it is (`id`), where
one that is read as a hexadecimal digit is taken in lower case. -/
theorem digit?_eq_some_iff {c : Char} {d : Digit} : digit? c = some d ↔ id c = d.char := by
  constructor
  · intro h
    unfold digit? at h
    split at h
    · cases h
      rename_i hc
      have hcode : 48 + (c.toNat - 48) = c.toNat := by omega
      show c = Char.ofNat (48 + (c.toNat - 48))
      rw [hcode, Char.ofNat_toNat]
    · cases h
  · rintro rfl
    exact digit?_char d

/-- Characters that spell a number: one or more digits, with zeros in front or without. -/
def Spells (cs : List Char) (n : Nat) : Prop :=
  ∃ ds : List Digit, cs = ds.map Digit.char ∧ Denotes ds n

theorem spells_iff {cs : List Char} {n : Nat} :
    Spells cs n ↔ ∃ ds, ds ≠ [] ∧ cs.map id = ds.map Digit.char ∧ value ds = n := by
  rw [List.map_id]
  constructor
  · intro h
    obtain ⟨ds, hcs, hds⟩ := h
    obtain ⟨hne, hvalue⟩ := denotes_iff.mp hds
    exact ⟨ds, hne, hcs, hvalue⟩
  · intro h
    obtain ⟨ds, hne, hcs, hvalue⟩ := h
    exact ⟨ds, hcs, denotes_iff.mpr ⟨hne, hvalue⟩⟩

end Decimal

end UserDirectory
