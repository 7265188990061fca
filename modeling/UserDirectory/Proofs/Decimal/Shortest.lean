import Mathlib.Data.List.TakeWhile
import UserDirectory.Proofs.Decimal.Rounding
import UserDirectory.Proofs.Json.Token

/-!
# The fewest digits are worth what rounds to the number

The digits that a magnitude is written with start with no zero and are worth a number of the
interval that rounds to the magnitude. Of that interval only the upper end is needed: halfway to
the next significand (`shortest_spec`).
-/

namespace UserDirectory.Decimal

theorem value_append_zeros (ds : List Digit) (k : Nat) :
    value (ds ++ List.replicate k 0) = value ds * 10 ^ k := by
  induction k with
  | zero => simp
  | succ k ih =>
    rw [List.replicate_succ', ← List.append_assoc, value_concat, ih, Nat.pow_succ]
    simp only [Fin.val_zero]
    ring

namespace Magnitude

theorem gridFraction_spec (q : Nat) (step : Int) :
    0 < (gridFraction q step).2 ∧
      ((gridFraction q step).1 : ℚ) / (gridFraction q step).2 = q * 10 ^ step := by
  unfold gridFraction
  split
  · rename_i h
    obtain ⟨k, hk⟩ := Int.eq_ofNat_of_zero_le h
    refine ⟨Nat.one_pos, ?_⟩
    simp [hk]
  · rename_i h
    obtain ⟨k, hk⟩ : ∃ k : Nat, step = -k := ⟨(-step).toNat, by omega⟩
    refine ⟨Nat.pow_pos (by decide), ?_⟩
    simp [hk, div_eq_mul_inv]

/-! ## What rounds to a magnitude -/

/-- The upper end of what rounds to a magnitude. -/
def upper (x : Magnitude) : ℚ := (x.significand + 1 / 2) * 2 ^ x.exponent

/-- What rounds to a positive magnitude is positive and not above the upper end. -/
theorem of_covers {x : Magnitude} (hx : 0 < x.significand) {num den : Nat} (hden : 0 < den)
    (h : x.covers num den = true) : 0 < num ∧ (num : ℚ) / den ≤ x.upper := by
  obtain ⟨hscaled, hquotient⟩ := scaled_spec (4 * num) hden x.exponent
  have hends : ∃ low, 0 < low ∧
      low * (scaled (4 * num) den x.exponent).2 ≤ (scaled (4 * num) den x.exponent).1 ∧
      (scaled (4 * num) den x.exponent).1 ≤
        (4 * x.significand + 2) * (scaled (4 * num) den x.exponent).2 := by
    unfold covers at h
    dsimp only at h
    refine ⟨if x.significand = Nat.pow 2 52 && x.exponent > minExponent then 4 * x.significand - 1
      else 4 * x.significand - 2, by split <;> omega, ?_⟩
    split at h
    · simpa only [Bool.and_eq_true, decide_eq_true_eq] using h
    · obtain ⟨hlow, hhigh⟩ := Bool.and_eq_true_iff.mp h
      exact ⟨(of_decide_eq_true hlow).le, (of_decide_eq_true hhigh).le⟩
  obtain ⟨low, hlow, hge, hle⟩ := hends
  generalize scaled (4 * num) den x.exponent = scaled at *
  have hpos : (0 : ℚ) < scaled.2 := by exact_mod_cast hscaled
  constructor
  · by_contra hzero
    obtain rfl : num = 0 := by omega
    have hn : 0 < scaled.1 := lt_of_lt_of_le (Nat.mul_pos hlow hscaled) hge
    have hn' : (0 : ℚ) < scaled.1 / scaled.2 := div_pos (by exact_mod_cast hn) hpos
    simp [hquotient] at hn'
  · have hfour : (scaled.1 : ℚ) / scaled.2 ≤ 4 * x.significand + 2 := by
      rw [div_le_iff₀ hpos]
      exact_mod_cast hle
    rw [hquotient, div_le_iff₀ (two_zpow_pos _), Nat.cast_mul, mul_div_assoc] at hfour
    rw [upper]
    push_cast at hfour
    linarith

/-! ## Digits -/

/-- The number that digits with a point are. -/
def Written.toRat (w : Written) : ℚ := value w.digits * 10 ^ (w.point - w.digits.length)

theorem exists_append_zeros {ds : List Digit} (h : value ds ≠ 0) :
    ∃ k, ds = dropTrailingZeros ds ++ List.replicate k 0 := by
  have hsplit : ds = (ds.reverse.dropWhile (· == 0)).reverse ++
      (ds.reverse.takeWhile (· == 0)).reverse := by
    rw [← List.reverse_append, List.takeWhile_append_dropWhile, List.reverse_reverse]
  have hzeros : (ds.reverse.takeWhile (· == 0)).reverse =
      List.replicate (ds.reverse.takeWhile (· == 0)).reverse.length 0 := by
    rw [List.eq_replicate_iff]
    refine ⟨rfl, fun d hd => ?_⟩
    have hzero := List.mem_takeWhile_imp (List.mem_reverse.mp hd)
    exact eq_of_beq hzero
  unfold dropTrailingZeros
  split
  · rename_i hnil
    -- nothing but zeros would be worth nothing
    rw [hnil, hzeros, List.nil_append] at hsplit
    have hzero := value_append_zeros [] (ds.reverse.takeWhile (· == 0)).reverse.length
    rw [List.nil_append, ← hsplit] at hzero
    exact absurd hzero (by simpa [value] using h)
  · exact ⟨_, hzeros ▸ hsplit⟩

theorem dropTrailingZeros_ne_nil (ds : List Digit) : dropTrailingZeros ds ≠ [] := by
  unfold dropTrailingZeros
  split
  · simp
  · assumption

theorem covers_of_decimalOf? {x : Magnitude} {point step : Int} {count q : Nat}
    (h : decimalOf? x point count = some (q, step)) :
    x.covers (gridFraction q step).1 (gridFraction q step).2 = true := by
  have hreads : ∀ first second : Nat, (if x.covers (gridFraction first (point - count)).1
      (gridFraction first (point - count)).2 then some (first, point - (count : Int))
      else if x.covers (gridFraction second (point - count)).1
        (gridFraction second (point - count)).2 then some (second, point - (count : Int))
      else none) = some (q, step) →
      x.covers (gridFraction q step).1 (gridFraction q step).2 = true := by
    intro first second h
    split at h
    · rename_i hcovers
      cases h
      exact hcovers
    split at h
    · rename_i hcovers
      cases h
      exact hcovers
    · cases h
  exact hreads _ _ h

/-- **The digits of a magnitude**: they start with no zero, but for a zero that stands alone before
the point, and are not worth more than the upper end of what rounds to the magnitude. -/
theorem shortest_spec {x : Magnitude} (hx : 0 < x.significand) :
    x.shortest.digits ≠ [] ∧
      (∀ ds, x.shortest.digits = 0 :: ds → ds = [] ∧ x.shortest.point = 1) ∧
      x.shortest.toRat ≤ x.upper := by
  unfold shortest
  dsimp only
  split
  · rename_i q step hfound
    obtain ⟨count, -, hfound⟩ := List.exists_of_findSome?_eq_some hfound
    obtain ⟨hden, hworth⟩ := gridFraction_spec q step
    obtain ⟨hnum, hle⟩ := of_covers hx hden (covers_of_decimalOf? hfound)
    have hq : q ≠ 0 := by
      rintro rfl
      have hpos : (0 : ℚ) < (gridFraction 0 step).1 / (gridFraction 0 step).2 :=
        div_pos (by exact_mod_cast hnum) (by exact_mod_cast hden)
      simp [hworth] at hpos
    have hworthy : value (digits q) ≠ 0 := by rwa [value_digits]
    obtain ⟨k, hk⟩ := exists_append_zeros hworthy
    refine ⟨dropTrailingZeros_ne_nil _, fun ds hds => ?_, ?_⟩
    · dsimp only at hds
      rw [hds, List.cons_append] at hk
      have hnil := eq_nil_of_digits_eq hk
      rw [hnil] at hk
      exact absurd ((value_digits q).symm.trans (congrArg value hk)) hq
    · -- the zeros that are left out are made up for by the place of the point
      have hlength := congrArg List.length hk
      have hvalue := congrArg value hk
      rw [List.length_append, List.length_replicate] at hlength
      rw [value_append_zeros, value_digits] at hvalue
      have hplace : step + ((digits q).length : Int) - (dropTrailingZeros (digits q)).length =
          step + k := by omega
      refine le_trans (le_of_eq ?_) hle
      rw [hworth, Written.toRat]
      dsimp only
      rw [hplace, zpow_add₀ (by norm_num), zpow_natCast]
      nth_rewrite 2 [hvalue]
      push_cast
      ring
  · refine ⟨by simp, fun ds h => ⟨(List.cons.inj h).2.symm, rfl⟩, ?_⟩
    have hzero : Written.toRat ⟨[0], 1⟩ = 0 := by simp [Written.toRat, value]
    rw [hzero]
    exact mul_nonneg (by positivity) (two_zpow_pos _).le

end Magnitude

end UserDirectory.Decimal
