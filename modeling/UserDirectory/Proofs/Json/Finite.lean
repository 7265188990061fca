import UserDirectory.Json.Numeral
import UserDirectory.Proofs.Decimal.Shortest

/-!
# A number that was kept is finite when it is read again

A kept floating-point number is written with the fewest digits that round to it, and a literal is
read in steps each of which rounds. The two do not have to agree, and near the largest number a
literal that rounds to a finite number may be read as none. The digits that are written stay clear
of that: a literal worth no more than `clearBound` is finite (`isSome_real?`), the digits of every
number but the largest are worth no more than that (`size_ofReal`, `upper_le`), and those of the
largest are tried.

Where the product with a power of ten is not made smaller by it, whether it is finite is a question
of its largest significand, since rounding keeps the order. The few powers that are steep enough to
matter are tried (`isSome_largest`).

What is written has one of five forms, by the place of the point in the digits (`RealForm`); all
that is said of a literal goes through them.
-/

namespace UserDirectory.Json.Numeral

open Decimal (Digit Magnitude Binary64)
open Decimal.Magnitude (toRat IsFinite maxExponent nearest?_mono_nat mul?_mono exists_div?
  isFinite_zero isFinite_of_nearest? isFinite_of_mul? isFinite_of_div?)

/-! ## Powers of ten -/

theorem nearest?_one : Magnitude.nearest? 1 1 = some ⟨2 ^ 52, -52⟩ := by decide

theorem toRat_one : (⟨2 ^ 52, -52⟩ : Magnitude).toRat = 1 := by
  norm_num [toRat, zpow_neg]

theorem tenPower_eq (k : Nat) : tenPower k = Magnitude.nearest? (10 ^ k) 1 := rfl

/-- Every power of ten of the table is finite and at least one. -/
theorem exists_tenPower {k : Nat} (hk : k ≤ maxTableExponent) :
    ∃ p, tenPower k = some p ∧ 1 ≤ p.toRat := by
  have hlast : (tenPower maxTableExponent).isSome = true := by decide +kernel
  obtain ⟨last, hlast⟩ := Option.isSome_iff_exists.mp hlast
  rw [tenPower_eq] at hlast ⊢
  obtain ⟨p, hp, -⟩ := nearest?_mono_nat (Nat.pow_le_pow_right (show 0 < 10 by decide) hk) hlast
  obtain ⟨one, hone, hle⟩ := nearest?_mono_nat (Nat.pow_pos (show 0 < 10 by decide)) hp
  obtain rfl := Option.some.inj (nearest?_one.symm.trans hone)
  exact ⟨p, hp, toRat_one ▸ hle⟩

/-- A significand times a power of ten of the table is one product. -/
theorem magnitude?_natCast (m : Nat) {e : Nat} (he : e ≤ maxTableExponent) :
    magnitude? m e = (Magnitude.nearest? m 1).bind fun x => (tenPower e).bind x.mul? := by
  have hnonneg : (e : Int) ≥ 0 := by omega
  simp only [magnitude?, scaleByTen, Int.natAbs_natCast, if_pos he, if_pos hnonneg,
    Option.bind_eq_bind]

/-- A significand times a power of ten is finite if a larger one times a larger power is. -/
theorem isSome_magnitude?_mono {m m' e e' : Nat} (hle : m ≤ m') (hexp : e ≤ e')
    (he' : e' ≤ maxTableExponent) (h : (magnitude? m' e').isSome = true) :
    (magnitude? m e).isSome = true := by
  have he := hexp.trans he'
  obtain ⟨z', hz'⟩ := Option.isSome_iff_exists.mp h
  rw [magnitude?_natCast m' he', Option.bind_eq_some_iff] at hz'
  obtain ⟨x', hx', hz'⟩ := hz'
  obtain ⟨p', hp', hz'⟩ := Option.bind_eq_some_iff.mp hz'
  obtain ⟨x, hx, hxle⟩ := nearest?_mono_nat hle hx'
  obtain ⟨p, hp, hple⟩ := nearest?_mono_nat (Nat.pow_le_pow_right (show 0 < 10 by decide) hexp) hp'
  obtain ⟨z, hz, -⟩ := mul?_mono (mul_le_mul hxle hple p.toRat_nonneg x'.toRat_nonneg) hz'
  rw [magnitude?_natCast m he, hx, Option.bind_some, tenPower_eq, hp, Option.bind_some, hz]
  rfl

/-! ## What is read is finite -/

/-- What a literal may be worth and is still finite, however it is written. -/
def clearBound : Nat := (2 ^ 54 - 3) * 2 ^ 970

theorem clearBound_lt : clearBound < 10 ^ (maxTableExponent + 1) := by decide +kernel

/-- With a smaller power of ten than this every significand keeps clear of the bound. -/
def steepExponent : Nat := 288

theorem mul_steep_le : (significandBound - 1) * 10 ^ steepExponent ≤ clearBound := by
  decide +kernel

/-- With each power of ten from there on, the largest significand that keeps clear of the bound. -/
theorem isSome_largest : ((List.range' steepExponent 21).all fun e =>
    (magnitude? (min (significandBound - 1) (clearBound / 10 ^ e)) e).isSome) = true := by
  decide +kernel

theorem nearest?_significandBound :
    Magnitude.nearest? significandBound 1 = some ⟨2 ^ 52, 12⟩ := by
  decide +kernel

theorem toRat_significandBound : (⟨2 ^ 52, 12⟩ : Magnitude).toRat = significandBound := by
  norm_num [toRat, significandBound]

theorem mul?_significandBound : (⟨2 ^ 52, 12⟩ : Magnitude).mul? ⟨2 ^ 52, -52⟩ =
    some ⟨2 ^ 52, 12⟩ := by
  decide +kernel

/-- A magnitude as the bounds allow is not made too large by a negative power of ten. -/
theorem isSome_scaleByTen_of_nonpos {x : Magnitude} (hx : x.toRat ≤ significandBound) {e : Int}
    (he : e ≤ 0) (steps : Nat) : (scaleByTen x e steps).isSome = true := by
  induction steps generalizing x e with
  | zero => rfl
  | succ steps ih =>
    rw [scaleByTen]
    split
    · rename_i hsmall
      obtain ⟨p, hp, hone⟩ := exists_tenPower hsmall
      rw [hp, Option.bind_eq_bind, Option.bind_some]
      split
      · -- the power is one
        obtain rfl : e = 0 := by omega
        obtain rfl := Option.some.inj (nearest?_one.symm.trans hp)
        obtain ⟨z, hz, -⟩ := mul?_mono (mul_le_mul_of_nonneg_right
          (toRat_significandBound ▸ hx) (zero_le_one.trans hone)) mul?_significandBound
        rw [hz]
        rfl
      · obtain ⟨z, hz, -⟩ := exists_div? hone hx nearest?_significandBound
        rw [hz]
        rfl
    split
    · rfl
    split
    · rename_i hlarge _ _
      omega
    · rename_i hlarge _ _
      obtain ⟨p, hp, hone⟩ := exists_tenPower (Nat.le_refl maxTableExponent)
      obtain ⟨z, hz, hle⟩ := exists_div? hone hx nearest?_significandBound
      simp only [hp, Option.bind_eq_bind, Option.bind_some, hz]
      exact ih (toRat_significandBound ▸ hle) (by omega)

/-- **A literal that keeps clear of the bound is finite.** -/
theorem isSome_magnitude? {m : Nat} {e : Int} (hm : m < significandBound)
    (h : (m : ℚ) * 10 ^ e ≤ clearBound) : (magnitude? m e).isSome = true := by
  rcases le_or_gt e 0 with he | he
  · -- a significand is not made larger
    obtain ⟨x, hx, hle⟩ := nearest?_mono_nat hm.le nearest?_significandBound
    rw [magnitude?, hx, Option.bind_eq_bind, Option.bind_some]
    exact isSome_scaleByTen_of_nonpos (toRat_significandBound ▸ hle) he 4
  obtain ⟨k, rfl⟩ := Int.eq_ofNat_of_zero_le he.le
  rw [zpow_natCast] at h
  have hworth : m * 10 ^ k ≤ clearBound := by exact_mod_cast h
  by_cases hk : k ≤ maxTableExponent
  · -- a power that is not steep is no larger than the first that is
    have hsteep : m * 10 ^ max k steepExponent ≤ clearBound := by
      rcases le_total k steepExponent with hle | hle
      · rw [max_eq_right hle]
        exact (Nat.mul_le_mul_right _ (by omega)).trans mul_steep_le
      · rwa [max_eq_left hle]
    have hmax : max k steepExponent ≤ maxTableExponent := max_le hk (by decide)
    have hmem : max k steepExponent ∈ List.range' steepExponent 21 := by
      rw [List.mem_range'_1]
      exact ⟨le_max_right .., Nat.lt_succ_of_le hmax⟩
    refine isSome_magnitude?_mono (le_min (by omega) ?_) (le_max_left ..) hmax
      (List.all_eq_true.mp isSome_largest _ hmem)
    rwa [Nat.le_div_iff_mul_le (Nat.pow_pos (by decide))]
  · -- nothing but zero keeps clear of the bound with such a power
    have hpow : 10 ^ (maxTableExponent + 1) ≤ 10 ^ k :=
      Nat.pow_le_pow_right (by decide) (Nat.lt_of_not_le hk)
    obtain rfl : m = 0 := by
      by_contra hne
      have hle := Nat.le_mul_of_pos_left (10 ^ k) (Nat.pos_of_ne_zero hne)
      exact absurd (clearBound_lt.trans_le (hpow.trans hle)) (not_lt.mpr hworth)
    show (scaleByTen Magnitude.zero k 4).isSome = true
    rw [scaleByTen, Int.natAbs_natCast, if_neg hk]
    rfl

/-! ## What a literal is worth -/

/-- The integer that an exponent is. -/
def exponentValue (e : Exponent) : Int :=
  if e.negative then -(Decimal.value e.digits : Int) else Decimal.value e.digits

/-- The number that a literal is, without its sign. -/
def size (x : Numeral) : ℚ :=
  Decimal.value (x.whole ++ x.fraction.getD []) *
    10 ^ ((x.exponent.elim 0 exponentValue) - ((x.fraction.getD []).length : Int))

/-- Digits that are taken in one after another. -/
def takeIn (m : Nat) (ds : List Digit) : Nat := ds.foldl (fun n d => 10 * n + d.val) m

theorem le_takeIn (m : Nat) (ds : List Digit) : m * 10 ^ ds.length ≤ takeIn m ds := by
  induction ds generalizing m with
  | nil => simp [takeIn]
  | cons d ds ih =>
    have ih := ih (10 * m + d.val)
    have hstep : takeIn m (d :: ds) = takeIn (10 * m + d.val) ds := rfl
    rw [hstep, List.length_cons, Nat.pow_succ]
    refine le_trans ?_ ih
    nlinarith [Nat.zero_le (d.val * 10 ^ ds.length)]

/-- The digits before the point that are taken in, and what the others are worth at least. -/
theorem takeWhole_spec (ds : List Digit) {m : Nat} (hm : m < significandBound) :
    (takeWhole ds m).1 < significandBound ∧
      (takeWhole ds m).1 * 10 ^ (takeWhole ds m).2 ≤ takeIn m ds ∧
      ((takeWhole ds m).2 = 0 → (takeWhole ds m).1 = takeIn m ds) ∧
      ∀ k, (takeWhole ds m).2 = k + 1 → significandBound * 10 ^ k ≤ takeIn m ds := by
  induction ds generalizing m with
  | nil => exact ⟨hm, by simp [takeWhole, takeIn], fun _ => rfl, nofun⟩
  | cons d ds ih =>
    have hstep : takeIn m (d :: ds) = takeIn (10 * m + d.val) ds := rfl
    rw [takeWhole]
    split
    · rename_i hfits
      exact ih hfits
    · rename_i hlarge
      refine ⟨hm, le_takeIn m (d :: ds), nofun, fun k hk => ?_⟩
      obtain rfl : ds.length = k := by simpa using hk
      rw [hstep]
      exact le_trans (Nat.mul_le_mul_right _ (not_lt.mp hlarge)) (le_takeIn _ ds)

/-- The digits after the point that are taken in are not worth more than all. -/
theorem takeFraction_spec (ds : List Digit) {m : Nat} (hm : m < significandBound) (k : Nat) :
    ∃ j ≤ ds.length, (takeFraction ds m k).2 = k + j ∧
      (takeFraction ds m k).1 < significandBound ∧
      (takeFraction ds m k).1 * 10 ^ (ds.length - j) ≤ takeIn m ds ∧
      (j = 0 → (takeFraction ds m k).1 = m) := by
  induction ds generalizing m k with
  | nil => exact ⟨0, Nat.le_refl _, rfl, hm, by simp [takeFraction, takeIn], fun _ => rfl⟩
  | cons d ds ih =>
    have hstep : takeIn m (d :: ds) = takeIn (10 * m + d.val) ds := rfl
    rw [takeFraction]
    split
    · rename_i hfits
      obtain ⟨j, hj, htaken, hbound, hle, -⟩ := ih hfits (k + 1)
      refine ⟨j + 1, Nat.succ_le_succ hj, by rw [htaken]; omega, hbound, ?_, nofun⟩
      rwa [hstep, List.length_cons, Nat.add_sub_add_right]
    · exact ⟨0, Nat.zero_le _, rfl, hm, le_takeIn m (d :: ds), fun _ => rfl⟩

/-- The significand of a literal and its power of ten before the written exponent. -/
def parts (x : Numeral) : Nat × Int :=
  let (whole, dropped) := takeWhole x.whole 0
  let (m, taken) := takeFraction (x.fraction.getD []) whole 0
  (m, (dropped : Int) - (taken : Int))

/-- The digits of a literal are at least worth what is taken in of them. -/
theorem parts_spec (x : Numeral) :
    x.parts.1 < significandBound ∧ (x.parts.1 : ℚ) * 10 ^ x.parts.2 ≤
      Decimal.value (x.whole ++ x.fraction.getD []) *
        10 ^ (-((x.fraction.getD []).length : Int)) := by
  have hten : (10 : ℚ) ≠ 0 := by norm_num
  unfold parts
  dsimp only
  generalize x.fraction.getD [] = fraction
  have hvalue : Decimal.value (x.whole ++ fraction) = takeIn (takeIn 0 x.whole) fraction :=
    List.foldl_append
  obtain ⟨hm, hwhole, hall, hlost⟩ := takeWhole_spec x.whole (m := 0) (by decide)
  obtain ⟨j, hj, htaken, hbound, hfraction, hnone⟩ := takeFraction_spec fraction hm 0
  generalize takeWhole x.whole 0 = w at *
  generalize takeFraction fraction w.1 0 = r at *
  refine ⟨hbound, ?_⟩
  rw [hvalue, htaken, Nat.zero_add]
  cases hdropped : w.2 with
  | zero =>
    rw [← hall hdropped]
    have hplace : (10 : ℚ) ^ (((0 : Nat) : Int) - j) =
        10 ^ (fraction.length - j) * 10 ^ (-(fraction.length : Int)) := by
      rw [← zpow_natCast, ← zpow_add₀ hten]
      congr 1
      omega
    rw [hplace, ← mul_assoc]
    refine mul_le_mul_of_nonneg_right ?_ (zpow_nonneg (by norm_num) _)
    exact_mod_cast hfraction
  | succ k =>
    -- the digits before the point are worth enough by themselves
    have hfront : (takeIn 0 x.whole : ℚ) ≤
        takeIn (takeIn 0 x.whole) fraction * 10 ^ (-(fraction.length : Int)) := by
      rw [zpow_neg, zpow_natCast, ← div_eq_mul_inv, le_div_iff₀ (by positivity)]
      exact_mod_cast le_takeIn _ fraction
    refine le_trans ?_ hfront
    rcases Nat.eq_zero_or_pos j with rfl | hpos
    · rw [hnone rfl, Nat.cast_zero, sub_zero, ← hdropped, zpow_natCast]
      exact_mod_cast hwhole
    · have hplace : (10 : ℚ) ^ (((k + 1 : Nat) : Int) - j) ≤ 10 ^ k := by
        rw [← zpow_natCast]
        exact zpow_le_zpow_right₀ (by norm_num) (by omega)
      have hlarge : (significandBound : ℚ) * 10 ^ k ≤ takeIn 0 x.whole := by
        exact_mod_cast hlost k hdropped
      refine le_trans (mul_le_mul ?_ hplace (zpow_nonneg (by norm_num) _) (Nat.cast_nonneg _))
        hlarge
      exact_mod_cast hbound.le

theorem real?_eq (x : Numeral) : x.real? =
    match x.exponent with
    | none => (magnitude? x.parts.1 x.parts.2).map (⟨x.negative, ·⟩)
    | some e =>
      if Decimal.value e.digits < exponentBound then
        (magnitude? x.parts.1 (x.parts.2 + exponentValue e)).map (⟨x.negative, ·⟩)
      else if x.parts.1 ≠ 0 && !e.negative then none
      else some ⟨x.negative, Magnitude.zero⟩ := by
  unfold real? parts exponentValue
  dsimp only
  cases x.exponent with
  | none =>
    simp only [Option.bind_eq_bind, Option.pure_def, Option.map_eq_bind]
    rfl
  | some e =>
    simp only [Option.bind_eq_bind, Option.pure_def, Option.map_eq_bind]
    rfl

/-- **A literal that is worth little enough is finite**, unless its exponent is too long. -/
theorem isSome_real? {x : Numeral} (hsize : x.size ≤ clearBound)
    (hexponent : ∀ e ∈ x.exponent, Decimal.value e.digits < exponentBound ∨ e.negative = true) :
    x.real?.isSome = true := by
  have hten : (10 : ℚ) ≠ 0 := by norm_num
  obtain ⟨hbound, hparts⟩ := x.parts_spec
  rw [size, sub_eq_neg_add, zpow_add₀ hten, ← mul_assoc] at hsize
  rw [real?_eq]
  cases he : x.exponent with
  | none =>
    rw [he, Option.elim_none, zpow_zero, mul_one] at hsize
    rw [Option.isSome_map]
    exact isSome_magnitude? hbound (hparts.trans hsize)
  | some e =>
    rw [he, Option.elim_some] at hsize
    dsimp only
    split
    · rw [Option.isSome_map]
      refine isSome_magnitude? hbound (le_trans ?_ hsize)
      rw [zpow_add₀ hten, ← mul_assoc]
      exact mul_le_mul_of_nonneg_right hparts (zpow_nonneg (by norm_num) _)
    · rename_i hlong
      have hnegative := (hexponent e he).resolve_left hlong
      rw [hnegative, Bool.not_true, Bool.and_false]
      rfl

/-! ## What is written of a number -/

theorem value_cons_zero (ds : List Digit) : Decimal.value (0 :: ds) = Decimal.value ds :=
  Decimal.value_replicate_zero_append 1 ds

theorem exponentValue_digits (e : Int) :
    exponentValue ⟨decide (e < 0), Decimal.digits e.natAbs⟩ = e := by
  rw [exponentValue]
  simp only [decide_eq_true_eq, Decimal.value_digits]
  split <;> omega

/-- The literal of a number, one case for each place of the point in its digits. -/
inductive RealForm (x : Binary64) : Numeral → Prop
  | zero (hzero : x.magnitude.significand = 0) : RealForm x ⟨x.negative, [0], some [0], none⟩
  /-- zeros follow the digits -/
  | padded {k : Nat} (hpos : 0 < x.magnitude.significand)
      (hpoint : x.magnitude.shortest.point = x.magnitude.shortest.digits.length + k) :
      RealForm x ⟨x.negative, x.magnitude.shortest.digits ++ List.replicate k 0, some [0], none⟩
  /-- the point stands among the digits -/
  | cut {k : Nat} (hpos : 0 < x.magnitude.significand) (hpoint : x.magnitude.shortest.point = k)
      (hfirst : 0 < k) (hlast : k < x.magnitude.shortest.digits.length) :
      RealForm x ⟨x.negative, x.magnitude.shortest.digits.take k,
        some (x.magnitude.shortest.digits.drop k), none⟩
  /-- zeros stand between the point and the digits -/
  | leading {k : Nat} (hpos : 0 < x.magnitude.significand)
      (hpoint : x.magnitude.shortest.point = -(k : Int)) :
      RealForm x ⟨x.negative, [0],
        some (List.replicate k 0 ++ x.magnitude.shortest.digits), none⟩
  /-- the point stands behind the first digit, and the exponent makes up for it -/
  | scaled {tail? : Option (List Digit)} (hpos : 0 < x.magnitude.significand)
      (hpoint : x.magnitude.shortest.point ≠ 1)
      (htail : tail?.getD [] = x.magnitude.shortest.digits.drop 1)
      (hnonempty : ∀ ds ∈ tail?, ds ≠ []) :
      RealForm x ⟨x.negative, x.magnitude.shortest.digits.take 1, tail?,
        some ⟨decide (x.magnitude.shortest.point - 1 < 0),
          Decimal.digits (x.magnitude.shortest.point - 1).natAbs⟩⟩

theorem realForm_ofReal (x : Binary64) : RealForm x (ofReal x) := by
  have hlimits : positionalPoints = (-5, 16) := rfl
  unfold ofReal
  rw [hlimits]
  split
  · exact .zero (by assumption)
  have hpos : 0 < x.magnitude.significand := Nat.pos_of_ne_zero (by assumption)
  dsimp only
  split
  · rename_i h
    exact .padded hpos (by omega)
  split
  · rename_i h h'
    exact .cut hpos (by omega) (by omega) (by omega)
  split
  · exact .leading hpos (by omega)
  · refine .scaled hpos (by omega) ?_ fun ds hds => ?_
    · split
      · rename_i hempty
        exact (List.isEmpty_iff.mp hempty).symm
      · rfl
    · split at hds
      · cases hds
      · rename_i hempty
        obtain rfl := Option.some.inj hds
        exact fun h => hempty (List.isEmpty_iff.mpr h)

/-- **The literal of a number is worth its digits.** -/
theorem size_ofReal {x : Binary64} (hx : 0 < x.magnitude.significand) :
    (ofReal x).size = x.magnitude.shortest.toRat := by
  have hten : (10 : ℚ) ≠ 0 := by norm_num
  have hnil := (Magnitude.shortest_spec hx).1
  have hform := realForm_ofReal x
  generalize ofReal x = y at hform
  rw [Magnitude.Written.toRat]
  cases hform with
  | zero hzero => omega
  | @padded k _ hpoint =>
    have hdigits : x.magnitude.shortest.digits ++ List.replicate k 0 ++ [0] =
        x.magnitude.shortest.digits ++ List.replicate (k + 1) 0 := by
      rw [List.append_assoc, ← List.replicate_succ']
    show (Decimal.value (x.magnitude.shortest.digits ++ List.replicate k 0 ++ [0]) : ℚ) *
      10 ^ ((0 : Int) - (1 : Nat)) = _
    rw [hdigits, Decimal.value_append_zeros, hpoint, Nat.cast_mul, mul_assoc]
    congr 1
    rw [Nat.cast_pow, ← zpow_natCast, Nat.cast_ofNat, ← zpow_add₀ hten]
    congr 1
    omega
  | @cut k _ hpoint _ hlast =>
    show (Decimal.value (x.magnitude.shortest.digits.take k ++
      x.magnitude.shortest.digits.drop k) : ℚ) *
        10 ^ ((0 : Int) - ((x.magnitude.shortest.digits.drop k).length : Nat)) = _
    rw [List.take_append_drop, List.length_drop]
    congr 2
    omega
  | @leading k _ hpoint =>
    show (Decimal.value (0 :: (List.replicate k 0 ++ x.magnitude.shortest.digits)) : ℚ) *
      10 ^ ((0 : Int) - ((List.replicate k 0 ++ x.magnitude.shortest.digits).length : Nat)) = _
    rw [value_cons_zero, Decimal.value_replicate_zero_append, List.length_append,
      List.length_replicate]
    congr 2
    omega
  | scaled _ _ htail _ =>
    have hcount := List.length_pos_iff.mpr hnil
    rw [size, htail, Option.elim_some, exponentValue_digits, List.take_append_drop,
      List.length_drop]
    congr 2
    omega

/-! ## What is written is finite -/

/-- Every number but the largest ends below the bound. -/
theorem upper_le {x : Magnitude} (hx : x.IsFinite) (hne : x ≠ ⟨2 ^ 53 - 1, maxExponent⟩) :
    x.upper ≤ clearBound := by
  have hbound : (clearBound : ℚ) = (2 ^ 54 - 3) * 2 ^ (970 : Int) := by
    have hodd : ((2 ^ 54 - 3 : Nat) : ℚ) = 2 ^ 54 - 3 := by norm_num
    rw [clearBound, Nat.cast_mul, Nat.cast_pow, hodd, zpow_ofNat, Nat.cast_ofNat]
  obtain ⟨m, e⟩ := x
  have hlt : m < 2 ^ 53 := hx.lt
  rw [hbound, Magnitude.upper]
  dsimp only at *
  rcases (show e ≤ 971 from hx.exponent_le).eq_or_lt with rfl | hsmall
  · have hm : m + 2 ≤ 2 ^ 53 := by
      by_contra hlarge
      exact hne (by rw [show m = 2 ^ 53 - 1 by omega]; rfl)
    have hm' : (m : ℚ) + 2 ≤ 2 ^ 53 := by exact_mod_cast hm
    have hpos := Magnitude.two_zpow_pos 970
    rw [show (971 : Int) = 970 + 1 from rfl, zpow_add_one₀ (by norm_num)]
    generalize (2 : ℚ) ^ (970 : Int) = c at *
    calc ((m : ℚ) + 1 / 2) * (c * 2) = (2 * m + 1) * c := by ring
      _ ≤ (2 ^ 54 - 3) * c := mul_le_mul_of_nonneg_right (by linarith) hpos.le
  · have hm' : (m : ℚ) + 1 ≤ 2 ^ 53 := by exact_mod_cast hlt
    have hpow : (2 : ℚ) ^ e ≤ 2 ^ (970 : Int) := zpow_le_zpow_right₀ (by norm_num) (by omega)
    exact mul_le_mul (by linarith) hpow (Magnitude.two_zpow_pos e).le (by norm_num)

theorem isSome_real?_largest (negative : Bool) :
    (ofReal ⟨negative, 2 ^ 53 - 1, maxExponent⟩).real?.isSome = true := by
  cases negative <;> decide +kernel

/-- The exponent that is written tells where the point is, which is not behind the first digit. -/
theorem of_mem_exponent_ofReal {x : Binary64} {e : Exponent} (h : e ∈ (ofReal x).exponent) :
    x.magnitude.shortest.point ≠ 1 ∧ e = ⟨decide (x.magnitude.shortest.point - 1 < 0),
      Decimal.digits (x.magnitude.shortest.point - 1).natAbs⟩ := by
  have hform := realForm_ofReal x
  generalize ofReal x = y at hform h
  cases hform with
  | scaled _ hpoint _ _ => exact ⟨hpoint, (Option.some.inj h).symm⟩
  | _ => cases h

/-- Digits that start with no zero are worth what their number says. -/
theorem pow_le_value {d : Digit} (hd : d ≠ 0) (ds : List Digit) :
    10 ^ ds.length ≤ Decimal.value (d :: ds) := by
  have hvalue : Decimal.value (d :: ds) = takeIn d.val ds := by
    simp [Decimal.value, takeIn]
  have hpos : 0 < d.val := Fin.pos_iff_ne_zero.mpr hd
  rw [hvalue]
  exact (Nat.le_mul_of_pos_left _ hpos).trans (le_takeIn d.val ds)

/-- **A number that was kept is finite when its literal is read.** -/
theorem isSome_real?_ofReal {x : Binary64} (hx : x.magnitude.IsFinite) :
    (ofReal x).real?.isSome = true := by
  by_cases hlargest : x.magnitude = ⟨2 ^ 53 - 1, maxExponent⟩
  · obtain ⟨negative, magnitude⟩ := x
    obtain rfl : magnitude = _ := hlargest
    exact isSome_real?_largest negative
  rcases Nat.eq_zero_or_pos x.magnitude.significand with hzero | hpos
  · have hof : ofReal x = ⟨x.negative, [0], some [0], none⟩ := if_pos hzero
    rw [hof]
    have hsize : size ⟨x.negative, [0], some [0], none⟩ = 0 := by simp [size, Decimal.value]
    exact isSome_real? (hsize.le.trans (Nat.cast_nonneg _))
      fun _ he => absurd he (Option.not_mem_none _)
  obtain ⟨hnil, hfirst, hworth⟩ := Magnitude.shortest_spec hpos
  have hclear := hworth.trans (upper_le hx hlargest)
  refine isSome_real? (size_ofReal hpos ▸ hclear) fun e he => ?_
  obtain ⟨hpoint, rfl⟩ := of_mem_exponent_ofReal he
  rw [Decimal.value_digits]
  by_contra hlong
  rw [not_or, not_lt, decide_eq_true_eq] at hlong
  -- with so large an exponent the first digit alone would be worth more than the bound
  generalize x.magnitude.shortest = w at *
  obtain ⟨digits, point⟩ := w
  cases digits with
  | nil => exact hnil rfl
  | cons d ds =>
    have hd : d ≠ 0 := by
      rintro rfl
      exact hpoint (hfirst ds rfl).2
    dsimp only at hlong
    obtain ⟨k, hk⟩ : ∃ k : Nat, point - 1 = k := ⟨(point - 1).toNat, by omega⟩
    have hlarge : maxTableExponent + 1 ≤ k := by
      have : maxTableExponent + 1 ≤ exponentBound := by decide
      omega
    have hworth : ((10 ^ k : Nat) : ℚ) ≤ clearBound := by
      refine le_trans ?_ hclear
      have hplace : point - ((d :: ds).length : Int) = k - ds.length := by
        rw [List.length_cons]
        omega
      rw [Magnitude.Written.toRat]
      dsimp only
      rw [hplace, zpow_sub₀ (by norm_num), ← mul_div_assoc, le_div_iff₀ (by positivity),
        zpow_natCast, zpow_natCast, mul_comm]
      exact_mod_cast Nat.mul_le_mul_right _ (pow_le_value hd ds)
    have hpow : 10 ^ (maxTableExponent + 1) ≤ 10 ^ k := Nat.pow_le_pow_right (by decide) hlarge
    exact absurd (clearBound_lt.trans_le hpow) (not_lt.mpr (by exact_mod_cast hworth))

/-! ## What is read is kept as a number can be -/

theorem isFinite_of_scaleByTen {x y : Magnitude} {e : Int} {steps : Nat} (hx : IsFinite x)
    (h : scaleByTen x e steps = some y) : IsFinite y := by
  induction steps generalizing x e with
  | zero =>
    obtain rfl := Option.some.inj h
    exact hx
  | succ steps ih =>
    rw [scaleByTen] at h
    split at h
    · rename_i hsmall
      obtain ⟨p, hp, h⟩ := Option.bind_eq_some_iff.mp h
      split at h
      · exact isFinite_of_mul? h
      · obtain ⟨q, hq, hone⟩ := exists_tenPower hsmall
        obtain rfl := Option.some.inj (hp.symm.trans hq)
        exact isFinite_of_div? (zero_lt_one.trans_le hone) h
    split at h
    · obtain rfl := Option.some.inj h
      exact hx
    split at h
    · cases h
    · obtain ⟨p, hp, h⟩ := Option.bind_eq_some_iff.mp h
      obtain ⟨y', hy', h⟩ := Option.bind_eq_some_iff.mp h
      obtain ⟨q, hq, hone⟩ := exists_tenPower (Nat.le_refl maxTableExponent)
      obtain rfl := Option.some.inj (hp.symm.trans hq)
      exact ih (isFinite_of_div? (zero_lt_one.trans_le hone) hy') h

theorem isFinite_of_real? {x : Numeral} {r : Binary64} (h : x.real? = some r) :
    IsFinite r.magnitude := by
  have hmagnitude : ∀ {m : Nat} {e : Int},
      (magnitude? m e).map (⟨x.negative, ·⟩) = some r → IsFinite r.magnitude := by
    intro m e h
    obtain ⟨y, hy, rfl⟩ := Option.map_eq_some_iff.mp h
    obtain ⟨start, hstart, hy⟩ := Option.bind_eq_some_iff.mp hy
    exact isFinite_of_scaleByTen (isFinite_of_nearest? Nat.one_pos hstart) hy
  rw [real?_eq] at h
  split at h
  · exact hmagnitude h
  split at h
  · exact hmagnitude h
  split at h
  · cases h
  · obtain rfl := Option.some.inj h
    exact isFinite_zero

/-- The literal of a number is no integer. -/
theorem int?_ofReal (x : Binary64) : (ofReal x).int? = none := by
  have hform := realForm_ofReal x
  generalize ofReal x = y at hform
  cases hform with
  | @scaled tail? => cases tail? <;> rfl
  | _ => rfl

theorem number?_ofReal (x : Binary64) : (ofReal x).number? = (ofReal x).real?.map .real := by
  rw [number?, int?_ofReal]

/-- What a document keeps of a literal: an integer of 64 bits as it is, any other number as the
floating-point number that it is read as. -/
theorem number?_cases {x : Numeral} {n : Number} (h : x.number? = some n) :
    (∃ i : Int, x.int? = some i ∧ -9223372036854775808 ≤ i ∧ i < 18446744073709551616 ∧
      ofNumber n = ofInt i) ∨
    (∃ r : Binary64, r.magnitude.IsFinite ∧ ofNumber n = ofReal r ∧
      ∀ i ∈ x.int?, i < -9223372036854775808 ∨ 18446744073709551616 ≤ i) := by
  have hreal : (x.real?.map .real : Option Number) = some n →
      ∃ r : Binary64, r.magnitude.IsFinite ∧ ofNumber n = ofReal r := by
    intro h
    obtain ⟨r, hr, rfl⟩ := Option.map_eq_some_iff.mp h
    exact ⟨r, isFinite_of_real? hr, rfl⟩
  have hlarge : Nat.pow 2 64 = 18446744073709551616 := rfl
  have hsmall : Nat.pow 2 63 = 9223372036854775808 := rfl
  rw [number?] at h
  split at h
  · rename_i k hk
    split at h
    · rename_i hlt
      obtain rfl := Option.some.inj h
      refine .inl ⟨k, hk, ?_, ?_, rfl⟩
      · omega
      · omega
    · rename_i hge
      obtain ⟨r, hr, hof⟩ := hreal h
      refine .inr ⟨r, hr, hof, fun i hi => ?_⟩
      obtain rfl := Option.some.inj (hk.symm.trans hi)
      rw [Int.ofNat_eq_natCast]
      omega
  · rename_i k hk
    split at h
    · rename_i hlt
      obtain rfl := Option.some.inj h
      refine .inl ⟨.negSucc k, hk, ?_, ?_, ?_⟩
      · omega
      · omega
      · rw [ofInt, decide_eq_true (Int.negSucc_lt_zero k)]
        rfl
    · rename_i hge
      obtain ⟨r, hr, hof⟩ := hreal h
      refine .inr ⟨r, hr, hof, fun i hi => ?_⟩
      obtain rfl := Option.some.inj (hk.symm.trans hi)
      omega
  · rename_i hk
    obtain ⟨r, hr, hof⟩ := hreal h
    exact .inr ⟨r, hr, hof, by simp [hk]⟩

/-- **The literal of a number is one of the grammar.** -/
theorem wellFormed_ofReal (x : Binary64) : (ofReal x).WellFormed := by
  have hform := realForm_ofReal x
  have hspec := @Magnitude.shortest_spec x.magnitude
  generalize ofReal x = y at hform
  cases hform with
  | zero _ => exact ⟨by simp, by simp, by simp, nofun⟩
  | @padded k hpos hpoint =>
    obtain ⟨hnil, hfirst, -⟩ := hspec hpos
    obtain ⟨d, ds, hds⟩ := List.exists_cons_of_ne_nil hnil
    refine ⟨by simp [hnil], fun rest heq => ?_, by simp, nofun⟩
    -- a zero in front stands alone and before the point, so none follow it
    dsimp only at heq
    rw [hds, List.cons_append] at heq
    obtain ⟨rfl, rfl⟩ := List.cons.inj heq
    obtain ⟨rfl, hone⟩ := hfirst ds hds
    rw [hds, hone] at hpoint
    obtain rfl : k = 0 := by simpa using hpoint
    rfl
  | @cut k hpos hpoint hzero hlast =>
    obtain ⟨hnil, hfirst, -⟩ := hspec hpos
    obtain ⟨d, ds, hds⟩ := List.exists_cons_of_ne_nil hnil
    obtain ⟨j, rfl⟩ : ∃ j, k = j + 1 := ⟨k - 1, by omega⟩
    rw [hds] at hlast ⊢
    refine ⟨by simp, fun rest heq => ?_, fun rest heq => ?_, nofun⟩
    · obtain ⟨rfl, rfl⟩ := List.cons.inj heq
      obtain ⟨rfl, -⟩ := hfirst ds hds
      exact List.take_nil
    · obtain rfl := Option.some.inj heq
      rwa [ne_eq, List.drop_eq_nil_iff, not_le]
  | leading _ _ => exact ⟨by simp, by simp, by simp [(hspec ‹_›).1], nofun⟩
  | scaled hpos _ _ hnonempty =>
    obtain ⟨d, ds, hds⟩ := List.exists_cons_of_ne_nil (hspec hpos).1
    rw [hds]
    refine ⟨by simp, by simp, hnonempty, fun e heq => ?_⟩
    obtain rfl := Option.some.inj heq
    exact Decimal.digits_ne_nil _

end UserDirectory.Json.Numeral
