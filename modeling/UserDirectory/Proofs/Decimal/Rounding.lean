import Mathlib.Algebra.Order.Field.Basic
import Mathlib.Algebra.Order.Field.Power
import Mathlib.Data.Rat.Cast.Order
import Mathlib.Tactic.FieldSimp
import Mathlib.Tactic.Linarith
import Mathlib.Tactic.Ring
import UserDirectory.Decimal.Binary64

/-!
# Rounding keeps the order

A fraction is rounded in two steps: an exponent is chosen at which its quotient has 53 bits, and
the quotient is rounded to a natural number. Both are said here of the rational number that the
fraction is (`FitsAt`, `RoundsTo`), and the larger of two numbers never gets the smaller result in
either. So the larger of two fractions never gets the smaller magnitude, and a fraction below one
whose magnitude is finite has a finite magnitude (`nearest?_mono`).
-/

namespace UserDirectory.Decimal.Magnitude

/-- The number that a magnitude is. -/
def toRat (x : Magnitude) : ℚ := x.significand * 2 ^ x.exponent

theorem two_zpow_pos (e : Int) : (0 : ℚ) < 2 ^ e := zpow_pos (by norm_num) e

theorem toRat_nonneg (x : Magnitude) : 0 ≤ x.toRat :=
  mul_nonneg (Nat.cast_nonneg _) (two_zpow_pos _).le

theorem toRat_zero : zero.toRat = 0 := by
  rw [toRat, zero, Nat.cast_zero, zero_mul]

/-! ## The quotient -/

/-- A natural number that is nearest to a quotient, and even if the quotient is halfway. -/
structure RoundsTo (q : ℚ) (m : Nat) : Prop where
  le : 2 * q ≤ 2 * m + 1
  ge : 2 * (m : ℚ) ≤ 2 * q + 1
  even : 2 * q = 2 * m + 1 ∨ 2 * (m : ℚ) = 2 * q + 1 → m % 2 = 0

theorem RoundsTo.mono {q q' : ℚ} {m m' : Nat} (h : RoundsTo q m) (h' : RoundsTo q' m')
    (hle : q ≤ q') : m ≤ m' := by
  by_contra hlt
  -- the quotients can only be one number, halfway between two of which one is odd
  have hsucc : (m' : ℚ) + 1 ≤ m := by exact_mod_cast Nat.lt_of_not_le hlt
  have hge := h.ge
  have hle' := h'.le
  have hm : (m : ℚ) = m' + 1 := by linarith
  have heven := h.even (.inr (by linarith))
  have heven' := h'.even (.inl (by linarith))
  have : m = m' + 1 := by exact_mod_cast hm
  omega

theorem roundsTo_self (m : Nat) : RoundsTo m m :=
  ⟨by linarith, by linarith, fun h => by rcases h with h | h <;> linarith⟩

theorem roundsTo_roundQuotient (n : Nat) {d : Nat} (hd : 0 < d) :
    RoundsTo (n / d) (roundQuotient n d) := by
  have hpos : (0 : ℚ) < d := by exact_mod_cast hd
  have hsplit : (n : ℚ) / d = (n / d : Nat) + ((n % d : Nat) : ℚ) / d := by
    field_simp
    exact_mod_cast (Nat.div_add_mod n d).symm
  have hpart : 0 ≤ ((n % d : Nat) : ℚ) / d := div_nonneg (Nat.cast_nonneg _) hpos.le
  have hless : ((n % d : Nat) : ℚ) / d < 1 := by
    rw [div_lt_one hpos]
    exact_mod_cast Nat.mod_lt n hd
  have hhalf : 2 * (n % d) < d ↔ 2 * (((n % d : Nat) : ℚ) / d) < 1 := by
    rw [← mul_div_assoc, div_lt_one hpos]
    exact_mod_cast Iff.rfl
  have hhalf' : 2 * (n % d) > d ↔ 2 * (((n % d : Nat) : ℚ) / d) > 1 := by
    rw [← mul_div_assoc, gt_iff_lt, gt_iff_lt, one_lt_div hpos]
    exact_mod_cast Iff.rfl
  unfold roundQuotient
  dsimp only
  rw [hsplit]
  generalize n / d = q, ((n % d : Nat) : ℚ) / d = f at *
  have hsucc : ((q + 1 : Nat) : ℚ) = q + 1 := Nat.cast_succ q
  split
  · rename_i h
    have := hhalf.mp h
    exact ⟨by linarith, by linarith, fun h => by rcases h with h | h <;> linarith⟩
  split
  · rename_i h
    have := hhalf'.mp h
    exact ⟨by linarith, by linarith, fun h => by rcases h with h | h <;> linarith⟩
  rename_i hnot hnot'
  -- halfway, and the even one of the two neighbours is taken
  have htie : 2 * f = 1 :=
    le_antisymm (not_lt.mp (mt hhalf'.mpr hnot')) (not_lt.mp (mt hhalf.mpr hnot))
  split
  · exact ⟨by linarith, by linarith, fun _ => by assumption⟩
  · exact ⟨by linarith, by linarith, fun _ => by omega⟩

/-! ## The exponent -/

/-- An exponent at which a number has a quotient of 53 bits, or of fewer at the least exponent. -/
structure FitsAt (q : ℚ) (e : Int) : Prop where
  least : minExponent ≤ e
  lt : q < 2 ^ 53 * 2 ^ e
  ge : minExponent < e → 2 ^ 52 * 2 ^ e ≤ q

theorem FitsAt.mono {q q' : ℚ} {e e' : Int} (h : FitsAt q e) (h' : FitsAt q' e') (hle : q ≤ q') :
    e ≤ e' := by
  by_contra hlt
  have hge := h.ge (by have := h'.least; omega)
  have hstep : (2 : ℚ) ^ (e' + 1) ≤ 2 ^ e := zpow_le_zpow_right₀ (by norm_num) (by omega)
  rw [zpow_add_one₀ (by norm_num)] at hstep
  have := h'.lt
  linarith

theorem scaled_spec (num : Nat) {den : Nat} (hden : 0 < den) (e : Int) :
    0 < (scaled num den e).2 ∧
      ((scaled num den e).1 : ℚ) / (scaled num den e).2 = num / den / 2 ^ e := by
  unfold scaled
  split
  · rename_i h
    obtain ⟨k, rfl⟩ := Int.eq_ofNat_of_zero_le h
    refine ⟨Nat.mul_pos hden (Nat.two_pow_pos _), ?_⟩
    simp [div_div]
  · rename_i h
    obtain ⟨k, rfl⟩ : ∃ k : Nat, e = -k := ⟨(-e).toNat, by omega⟩
    refine ⟨hden, ?_⟩
    simp
    field_simp

theorem two_pow_log2_le {n : Nat} (hn : 0 < n) : (2 : ℚ) ^ (n.log2 : Int) ≤ n := by
  rw [zpow_natCast]
  exact_mod_cast Nat.log2_self_le hn.ne'

theorem lt_two_pow_log2 (n : Nat) : (n : ℚ) < 2 ^ ((n.log2 : Int) + 1) := by
  have h : n < 2 ^ (n.log2 + 1) := Nat.lt_log2_self
  rw [← Nat.cast_add_one, zpow_natCast]
  exact_mod_cast h

theorem natDiv_lt_iff {n d : Nat} (hd : 0 < d) (k : Nat) : n / d < k ↔ (n : ℚ) / d < k := by
  rw [Nat.div_lt_iff_lt_mul hd, div_lt_iff₀ (by exact_mod_cast hd)]
  exact_mod_cast Iff.rfl

theorem fitsAt_exponentFor {num den : Nat} (hnum : 0 < num) (hden : 0 < den) :
    FitsAt (num / den) (exponentFor num den) := by
  have hpos : (0 : ℚ) < den := by exact_mod_cast hden
  have htwo : (2 : ℚ) ≠ 0 := by norm_num
  let guess : Int := (Nat.log2 num : Int) - (Nat.log2 den : Int) - 52
  have hguess := two_zpow_pos guess
  have hhalf : (2 : ℚ) ^ (guess - 1) = 2 ^ guess / 2 := zpow_sub_one₀ htwo guess
  obtain ⟨hscaled, hquotient⟩ := scaled_spec num hden guess
  -- the lengths of both numbers in bits leave 52 or 53 bits for the quotient
  have hlow : 2 ^ 51 * 2 ^ guess ≤ (num : ℚ) / den := by
    have hexp : (2 : ℚ) ^ 51 * 2 ^ guess = 2 ^ (num.log2 : Int) / 2 ^ ((den.log2 : Int) + 1) := by
      rw [← zpow_natCast, ← zpow_add₀ htwo, ← zpow_sub₀ htwo]
      congr 1
      omega
    rw [hexp]
    exact div_le_div₀ (Nat.cast_nonneg _) (two_pow_log2_le hnum) hpos (lt_two_pow_log2 den).le
  have hhigh : (num : ℚ) / den < 2 ^ 53 * 2 ^ guess := by
    have hexp : (2 : ℚ) ^ 53 * 2 ^ guess = 2 ^ ((num.log2 : Int) + 1) / 2 ^ (den.log2 : Int) := by
      rw [← zpow_natCast, ← zpow_add₀ htwo, ← zpow_sub₀ htwo]
      congr 1
      omega
    rw [hexp]
    exact div_lt_div₀ (lt_two_pow_log2 num) (two_pow_log2_le hden) (two_zpow_pos _).le
      (two_zpow_pos _)
  have hbits : ∀ k : Nat, (scaled num den guess).1 / (scaled num den guess).2 < Nat.pow 2 k ↔
      (num : ℚ) / den < 2 ^ k * 2 ^ guess := by
    intro k
    rw [natDiv_lt_iff hscaled, hquotient, div_lt_iff₀ hguess, Nat.pow_eq, Nat.cast_pow]
    rfl
  have hchoice : ∃ e : Int, exponentFor num den = max e minExponent ∧
      (num : ℚ) / den < 2 ^ 53 * 2 ^ e ∧ 2 ^ 52 * 2 ^ e ≤ (num : ℚ) / den := by
    unfold exponentFor
    dsimp only
    split
    · rename_i h
      have h := (hbits _).mp h
      exact ⟨guess - 1, rfl, by rw [hhalf]; linarith, by rw [hhalf]; linarith⟩
    split
    · rename_i h
      exact absurd ((hbits 53).mpr hhigh) (Nat.not_lt.mpr h)
    · rename_i h _
      exact ⟨guess, rfl, hhigh, not_lt.mp (mt (hbits _).mpr h)⟩
  obtain ⟨e, he, hlt, hge⟩ := hchoice
  rw [he]
  refine ⟨le_max_right _ _, hlt.trans_le ?_, fun h => ?_⟩
  · have := zpow_le_zpow_right₀ (show (1 : ℚ) ≤ 2 by norm_num) (le_max_left e minExponent)
    linarith
  · rwa [max_eq_left (by omega)]

/-! ## The magnitude -/

/-- The magnitude nearest to a fraction, however large it is. -/
def rounded (num den : Nat) : Magnitude :=
  let e := exponentFor num den
  let (n, d) := scaled num den e
  let m := roundQuotient n d
  if m = Nat.pow 2 53 then ⟨Nat.pow 2 52, e + 1⟩ else ⟨m, e⟩

theorem nearest?_eq {num : Nat} (hnum : 0 < num) (den : Nat) :
    nearest? num den =
      if (rounded num den).exponent > maxExponent then none else some (rounded num den) := by
  rw [nearest?, if_neg hnum.ne']
  rfl

/-- A magnitude as fractions are rounded to: its significand has 53 bits, or fewer at the least
exponent. -/
structure Normal (x : Magnitude) : Prop where
  lt : x.significand < 2 ^ 53
  ge : minExponent < x.exponent → 2 ^ 52 ≤ x.significand

/-- A magnitude as there are floating-point numbers. -/
structure IsFinite (x : Magnitude) : Prop extends Normal x where
  exponent_le : x.exponent ≤ maxExponent

theorem isFinite_zero : zero.IsFinite where
  lt := by decide
  ge := fun h => absurd h (by decide)
  exponent_le := by decide

/-- A magnitude that a number is rounded to, at the exponent that fits the number. -/
structure IsRounded (q : ℚ) (x : Magnitude) : Prop where
  normal : x.Normal
  quotient : ∃ e m, FitsAt q e ∧ RoundsTo (q / 2 ^ e) m ∧ x.toRat = m * 2 ^ e

/-- A quotient of at most 53 bits is rounded to a number of at most 53 bits, or to the next. -/
theorem FitsAt.le_of_roundsTo {q : ℚ} {e : Int} {m : Nat} (h : FitsAt q e)
    (hm : RoundsTo (q / 2 ^ e) m) : m ≤ 2 ^ 53 := by
  refine hm.mono (roundsTo_self (2 ^ 53)) ?_
  rw [div_le_iff₀ (two_zpow_pos e)]
  exact_mod_cast h.lt.le

theorem FitsAt.ge_of_roundsTo {q : ℚ} {e : Int} {m : Nat} (h : FitsAt q e)
    (hm : RoundsTo (q / 2 ^ e) m) (he : minExponent < e) : 2 ^ 52 ≤ m := by
  refine (roundsTo_self (2 ^ 52)).mono hm ?_
  rw [le_div_iff₀ (two_zpow_pos e)]
  exact_mod_cast h.ge he

theorem isRounded_rounded {num den : Nat} (hnum : 0 < num) (hden : 0 < den) :
    IsRounded (num / den) (rounded num den) := by
  have hfits := fitsAt_exponentFor hnum hden
  obtain ⟨hscaled, hquotient⟩ := scaled_spec num hden (exponentFor num den)
  have hrounds := roundsTo_roundQuotient (scaled num den (exponentFor num den)).1 hscaled
  rw [hquotient] at hrounds
  have hle := hfits.le_of_roundsTo hrounds
  have hge := hfits.ge_of_roundsTo hrounds
  unfold rounded
  dsimp only
  split
  · rename_i h
    have hlt : Nat.pow 2 52 < 2 ^ 53 := by decide
    refine ⟨⟨hlt, fun _ => Nat.le_refl _⟩, _, _, hfits, hrounds, ?_⟩
    rw [h, toRat, zpow_add_one₀ (by norm_num), Nat.pow_eq, Nat.pow_eq]
    push_cast
    ring
  · rename_i h
    exact ⟨⟨lt_of_le_of_ne hle h, hge⟩, _, _, hfits, hrounds, rfl⟩

theorem IsRounded.mono {q q' : ℚ} {x x' : Magnitude} (h : IsRounded q x) (h' : IsRounded q' x')
    (hle : q ≤ q') : x.toRat ≤ x'.toRat := by
  obtain ⟨e, m, hfits, hrounds, hx⟩ := h.quotient
  obtain ⟨e', m', hfits', hrounds', hx'⟩ := h'.quotient
  rw [hx, hx']
  rcases (hfits.mono hfits' hle).eq_or_lt with rfl | hlt
  · have hm : m ≤ m' := hrounds.mono hrounds' (div_le_div_of_nonneg_right hle (two_zpow_pos e).le)
    exact mul_le_mul_of_nonneg_right (by exact_mod_cast hm) (two_zpow_pos e).le
  · -- the larger exponent makes up for all that 53 bits can hold
    have hm : (m : ℚ) ≤ 2 ^ 53 := by exact_mod_cast hfits.le_of_roundsTo hrounds
    have hm' : (2 : ℚ) ^ 52 ≤ m' := by
      exact_mod_cast hfits'.ge_of_roundsTo hrounds' (hfits.least.trans_lt hlt)
    calc (m : ℚ) * 2 ^ e ≤ 2 ^ 53 * 2 ^ e := mul_le_mul_of_nonneg_right hm (two_zpow_pos e).le
      _ = 2 ^ 52 * 2 ^ (e + 1) := by rw [zpow_add_one₀ (by norm_num)]; ring
      _ ≤ 2 ^ 52 * 2 ^ e' := by
        refine mul_le_mul_of_nonneg_left ?_ (by positivity)
        exact zpow_le_zpow_right₀ (by norm_num) hlt
      _ ≤ m' * 2 ^ e' := mul_le_mul_of_nonneg_right hm' (two_zpow_pos e').le

/-- A magnitude has a finite exponent if it is below the first power of two that has none. -/
theorem Normal.exponent_le_iff {x : Magnitude} (h : x.Normal) :
    x.exponent ≤ maxExponent ↔ x.toRat < 2 ^ 1024 := by
  have hbound : (2 : ℚ) ^ 1024 = 2 ^ 53 * 2 ^ maxExponent := by
    rw [← zpow_natCast, ← zpow_natCast, ← zpow_add₀ (by norm_num)]
    rfl
  have hlt : (x.significand : ℚ) < 2 ^ 53 := by exact_mod_cast h.lt
  rw [hbound, toRat]
  constructor
  · intro hle
    have hpow : (2 : ℚ) ^ x.exponent ≤ 2 ^ maxExponent := zpow_le_zpow_right₀ (by norm_num) hle
    exact mul_lt_mul hlt hpow (two_zpow_pos _) (by positivity)
  · intro hsmall
    by_contra hlarge
    have hge : (2 : ℚ) ^ 52 ≤ x.significand := by
      exact_mod_cast h.ge (by unfold minExponent; unfold maxExponent at hlarge; omega)
    have hpow : (2 : ℚ) ^ (maxExponent + 1) ≤ 2 ^ x.exponent :=
      zpow_le_zpow_right₀ (by norm_num) (by omega)
    rw [zpow_add_one₀ (by norm_num)] at hpow
    have hmul := mul_le_mul hge hpow (by positivity) (Nat.cast_nonneg _)
    linarith

theorem nearest?_eq_some_iff {num den : Nat} (hnum : 0 < num) (hden : 0 < den) {x : Magnitude} :
    nearest? num den = some x ↔ rounded num den = x ∧ x.toRat < 2 ^ 1024 := by
  have hnormal := (isRounded_rounded hnum hden).normal
  rw [nearest?_eq hnum]
  split
  · rename_i h
    refine iff_of_false nofun ?_
    rintro ⟨rfl, hlt⟩
    exact absurd (hnormal.exponent_le_iff.mpr hlt) (not_le.mpr h)
  · rename_i h
    have hlt := hnormal.exponent_le_iff.mp (not_lt.mp h)
    constructor
    · rintro ⟨⟩
      exact ⟨rfl, hlt⟩
    · rintro ⟨rfl, -⟩
      rfl

/-- What a fraction is nearest to is finite. -/
theorem isFinite_of_nearest? {num den : Nat} (hden : 0 < den) {x : Magnitude}
    (h : nearest? num den = some x) : x.IsFinite := by
  rcases Nat.eq_zero_or_pos num with rfl | hnum
  · obtain rfl := Option.some.inj h
    exact isFinite_zero
  · obtain ⟨rfl, hlt⟩ := (nearest?_eq_some_iff hnum hden).mp h
    have hnormal := (isRounded_rounded hnum hden).normal
    exact ⟨hnormal, hnormal.exponent_le_iff.mpr hlt⟩

/-- **A fraction below one whose magnitude is finite has a finite magnitude, which is no
larger.** -/
theorem nearest?_mono {num den num' den' : Nat} (hden : 0 < den) (hden' : 0 < den')
    (hle : (num : ℚ) / den ≤ num' / den') {x' : Magnitude} (h : nearest? num' den' = some x') :
    ∃ x, nearest? num den = some x ∧ x.toRat ≤ x'.toRat := by
  rcases Nat.eq_zero_or_pos num with rfl | hnum
  · exact ⟨zero, rfl, toRat_zero ▸ x'.toRat_nonneg⟩
  · have hpos : (0 : ℚ) < num' / den' :=
      lt_of_lt_of_le (div_pos (by exact_mod_cast hnum) (by exact_mod_cast hden)) hle
    have hnum' : 0 < num' := by
      by_contra hzero
      obtain rfl : num' = 0 := by omega
      simp at hpos
    obtain ⟨rfl, hlt⟩ := (nearest?_eq_some_iff hnum' hden').mp h
    have hmono := (isRounded_rounded hnum hden).mono (isRounded_rounded hnum' hden') hle
    exact ⟨_, (nearest?_eq_some_iff hnum hden).mpr ⟨rfl, hmono.trans_lt hlt⟩, hmono⟩

/-- The same for natural numbers. -/
theorem nearest?_mono_nat {n n' : Nat} (hle : n ≤ n') {x' : Magnitude}
    (h : nearest? n' 1 = some x') : ∃ x, nearest? n 1 = some x ∧ x.toRat ≤ x'.toRat := by
  refine nearest?_mono Nat.one_pos Nat.one_pos ?_ h
  rw [Nat.cast_one, div_one, div_one]
  exact_mod_cast hle

/-! ## Products and quotients -/

theorem fraction_spec (x : Magnitude) :
    0 < x.fraction.2 ∧ (x.fraction.1 : ℚ) / x.fraction.2 = x.toRat := by
  unfold fraction toRat
  split
  · rename_i h
    obtain ⟨k, hk⟩ := Int.eq_ofNat_of_zero_le h
    refine ⟨Nat.one_pos, ?_⟩
    simp [hk]
  · rename_i h
    obtain ⟨k, hk⟩ : ∃ k : Nat, x.exponent = -k := ⟨(-x.exponent).toNat, by omega⟩
    refine ⟨Nat.two_pow_pos _, ?_⟩
    simp [hk, div_eq_mul_inv]

/-- A product below one that is finite is finite, and no larger. -/
theorem mul?_mono {x y x' y' : Magnitude} (hle : x.toRat * y.toRat ≤ x'.toRat * y'.toRat)
    {z' : Magnitude} (h : x'.mul? y' = some z') :
    ∃ z, x.mul? y = some z ∧ z.toRat ≤ z'.toRat := by
  obtain ⟨hx, hx'⟩ := x.fraction_spec
  obtain ⟨hy, hy'⟩ := y.fraction_spec
  obtain ⟨hu, hu'⟩ := x'.fraction_spec
  obtain ⟨hv, hv'⟩ := y'.fraction_spec
  refine nearest?_mono (Nat.mul_pos hx hy) (Nat.mul_pos hu hv) ?_ h
  push_cast
  rwa [mul_div_mul_comm, mul_div_mul_comm, hx', hy', hu', hv']

theorem fraction_pos {x : Magnitude} (h : 0 < x.toRat) : 0 < x.fraction.1 := by
  by_contra hzero
  have hworth := x.fraction_spec.2
  rw [show x.fraction.1 = 0 by omega, Nat.cast_zero, zero_div] at hworth
  exact h.ne hworth

/-- A quotient by a number of at least one is finite, and no larger than what is nearest to a bound
of the dividend. -/
theorem exists_div? {x y : Magnitude} (hy : 1 ≤ y.toRat) {bound : Nat} (hx : x.toRat ≤ bound)
    {z' : Magnitude} (h : nearest? bound 1 = some z') :
    ∃ z, x.div? y = some z ∧ z.toRat ≤ z'.toRat := by
  obtain ⟨hden, hworth⟩ := x.fraction_spec
  have hnum := fraction_pos (zero_lt_one.trans_le hy)
  refine nearest?_mono (Nat.mul_pos hden hnum) Nat.one_pos ?_ h
  have hquotient : ((x.fraction.1 * y.fraction.2 : Nat) : ℚ) / (x.fraction.2 * y.fraction.1 : Nat) =
      x.toRat / y.toRat := by
    rw [← hworth, ← y.fraction_spec.2]
    push_cast
    rw [div_div_div_eq]
  rw [hquotient, Nat.cast_one, div_one]
  exact (div_le_self x.toRat_nonneg hy).trans hx

theorem isFinite_of_mul? {x y z : Magnitude} (h : x.mul? y = some z) : z.IsFinite :=
  isFinite_of_nearest? (Nat.mul_pos x.fraction_spec.1 y.fraction_spec.1) h

theorem isFinite_of_div? {x y z : Magnitude} (hy : 0 < y.toRat) (h : x.div? y = some z) :
    z.IsFinite :=
  isFinite_of_nearest? (Nat.mul_pos x.fraction_spec.1 (fraction_pos hy)) h

end UserDirectory.Decimal.Magnitude
