import UserDirectory.Proofs.Decimal.Digits
import UserDirectory.Time.Timestamp

/-!
# Moments are read back from their timestamps

Both written forms of a moment are read back: an exact timestamp gives the moment itself, to the
last digit of its fraction (`ofExact?_exact`), and a second stamp the moment without its fraction
(`ofSecondStamp?_secondStamp`). Numbers are written with a fixed number of digits, so a reader that
takes at most that many stops where the writer stopped; only signed years go on until something
else follows.
-/

namespace UserDirectory

namespace Decimal

theorem length_padded {n w : Nat} (hw : 0 < w) (h : n < Nat.pow 10 w) :
    (padded w n).length = w := by
  have := length_digits_le hw h
  rw [padded, List.length_append, List.length_replicate]
  omega

theorem padded_ne_nil {w : Nat} (hw : 0 < w) (n : Nat) : padded w n ≠ [] := by
  intro h
  have hlength := congrArg List.length h
  rw [padded, List.length_append, List.length_replicate, List.length_nil] at hlength
  omega

end Decimal

namespace Time

open Decimal (Digit)

/-! ## Digits -/

@[simp] theorem isDigit_char (d : Digit) : isDigit d.char = true := by
  simp [isDigit]

theorem filterMap_digit?_map (ds : List Digit) :
    (ds.map Digit.char).filterMap Decimal.digit? = ds := by
  have hread : Decimal.digit? ∘ Digit.char = some := funext Decimal.digit?_char
  rw [List.filterMap_map, hread, List.filterMap_some]

/-- Digits are taken up to the limit, or up to where something else follows. -/
theorem takeDigits_map {limit : Nat} {ds : List Digit} {k : List Char} (hne : ds ≠ [])
    (hle : ds.length ≤ limit) (hk : ds.length = limit ∨ ∀ c ∈ k.head?, isDigit c = false) :
    takeDigits limit (ds.map Digit.char ++ k) = some (ds, k) := by
  have hlength : (ds.map Digit.char).length = ds.length := List.length_map _
  have hall : ∀ c ∈ ds.map Digit.char, isDigit c = true := by simp
  -- within the limit nothing more is taken from what follows
  have hrest : (k.take (limit - ds.length)).takeWhile isDigit = [] := by
    rcases hk with heq | hk
    · rw [heq, Nat.sub_self, List.take_zero, List.takeWhile_nil]
    · cases k with
      | nil => simp
      | cons c k =>
        have hc : isDigit c = false := hk c rfl
        cases limit - ds.length with
        | zero => rfl
        | succ m => simp [hc]
  have hcount : ((ds.map Digit.char ++ k).take limit).takeWhile isDigit = ds.map Digit.char := by
    rw [List.take_append, List.take_of_length_le (by rw [hlength]; exact hle), hlength,
      List.takeWhile_append_of_pos hall, hrest, List.append_nil]
  have hpos : ds.length ≠ 0 := fun h => hne (List.length_eq_zero_iff.mp h)
  simp only [takeDigits, hcount, hlength, if_neg hpos]
  rw [List.take_left' hlength, List.drop_left' hlength, filterMap_digit?_map]

theorem isBlank_char (d : Digit) : Text.isBlank d.char = false := by
  revert d
  decide

theorem trimStart_cons {c : Char} (h : Text.isBlank c = false) (cs : List Char) :
    trimStart (c :: cs) = c :: cs := by
  simp [trimStart, h]

/-- Digits have no blanks in front. -/
theorem trimStart_map {ds : List Digit} (hne : ds ≠ []) (k : List Char) :
    trimStart (ds.map Digit.char ++ k) = ds.map Digit.char ++ k := by
  cases ds with
  | nil => exact absurd rfl hne
  | cons d ds => exact trimStart_cons (isBlank_char d) _

/-! ## The fields -/

theorem takeTwo_paddedChars {n : Nat} (h : n < 100) (k : List Char) :
    takeTwo (Decimal.paddedChars 2 n ++ k) = some (n, k) := by
  have hne : Decimal.padded 2 n ≠ [] := Decimal.padded_ne_nil (by decide) n
  have hlength : (Decimal.padded 2 n).length = 2 := Decimal.length_padded (by decide) (by omega)
  rw [takeTwo, Decimal.paddedChars, trimStart_map hne,
    takeDigits_map hne (Nat.le_of_eq hlength) (.inl hlength)]
  simp only [Option.map_some, Decimal.value_padded]

/-- A year without a sign is not taken for one with a sign. -/
theorem takeYear_map {ds : List Digit} (hne : ds ≠ []) (k : List Char) :
    takeYear (ds.map Digit.char ++ k) =
      (takeDigits 4 (ds.map Digit.char ++ k)).map fun (ds, rest) =>
        ((Decimal.value ds : Int), rest) := by
  have hsign : ∀ d : Digit, d.char ≠ '-' ∧ d.char ≠ '+' := by decide
  rw [takeYear, trimStart_map hne]
  cases ds with
  | nil => exact absurd rfl hne
  | cons d ds =>
    simp only [List.map_cons, List.cons_append]
    split
    · rename_i heq
      exact absurd (List.cons.inj heq).1 (hsign d).1
    · rename_i heq
      exact absurd (List.cons.inj heq).1 (hsign d).2
    · rfl

theorem takeYear_yearChars (year : Int) (k : List Char) :
    takeYear (yearChars year ++ '-' :: k) = some (year, '-' :: k) := by
  have hne : Decimal.padded 4 year.natAbs ≠ [] := Decimal.padded_ne_nil (by decide) _
  unfold yearChars
  split
  · rename_i hyear
    have hlength : (Decimal.padded 4 year.natAbs).length = 4 :=
      Decimal.length_padded (by decide) (show year.natAbs < 10000 by omega)
    rw [Decimal.paddedChars, takeYear_map hne,
      takeDigits_map hne (Nat.le_of_eq hlength) (.inl hlength)]
    simp only [Option.map_some, Decimal.value_padded, Option.some.injEq, Prod.mk.injEq, and_true]
    omega
  · -- a signed year goes on until the hyphen
    have htaken : takeDigits (Decimal.paddedChars 4 year.natAbs ++ '-' :: k).length
        (Decimal.paddedChars 4 year.natAbs ++ '-' :: k) =
        some (Decimal.padded 4 year.natAbs, '-' :: k) :=
      takeDigits_map hne (by simp [Decimal.paddedChars]) (.inr (by simp; decide))
    by_cases hneg : year < 0
    · rw [if_pos hneg, List.cons_append, takeYear, trimStart_cons (by decide)]
      show (takeDigits _ _).map _ = _
      rw [htaken]
      simp only [Option.map_some, Decimal.value_padded, Option.some.injEq, Prod.mk.injEq, and_true]
      omega
    · rw [if_neg hneg, List.cons_append, takeYear, trimStart_cons (by decide)]
      show (takeDigits _ _).map _ = _
      rw [htaken]
      simp only [Option.map_some, Decimal.value_padded, Option.some.injEq, Prod.mk.injEq, and_true]
      omega

/-- The fields of a moment down to the second. -/
def readingOf (t : Instant) : Reading :=
  ⟨t.date.year, t.date.month, t.date.day, t.hour, t.minute, t.second⟩

theorem Date.month_lt (d : Date) : d.month < 100 := by
  have := d.isDate.2.1.2
  omega

theorem Date.day_lt (d : Date) : d.day < 100 := by
  have h := d.isDate.2.2.2
  unfold daysInMonth at h
  split at h
  · split at h <;> omega
  · split at h <;> omega

/-- The fields are read back whatever is allowed between them. -/
theorem takeReading_secondChars {gap : List Char → List Char}
    {separator : List Char → Option (List Char)} (hhyphen : ∀ k, gap ('-' :: k) = '-' :: k)
    (hcolon : ∀ k, gap (':' :: k) = ':' :: k) (hseparator : ∀ k, separator ('T' :: k) = some k)
    (t : Instant) (k : List Char) :
    takeReading gap separator (secondChars t ++ k) = some (readingOf t, k) := by
  have hmonth := t.date.month_lt
  have hday := t.date.day_lt
  have hhour : t.hour.val < 100 := by omega
  have hminute : t.minute.val < 100 := by omega
  have hsecond : t.second.val < 100 := by omega
  simp only [takeReading, secondChars, List.append_assoc, List.cons_append, takeYear_yearChars,
    Option.bind_eq_bind, Option.bind_some, hhyphen, hcolon, hseparator, takeChar, if_true,
    takeTwo_paddedChars, hmonth, hday, hhour, hminute, hsecond]
  rfl

theorem instant?_readingOf (t : Instant) (nano : Fin 1000000000) :
    (readingOf t).instant? nano = some { t with nano } := by
  have hdate : Date.of? t.date.year t.date.month t.date.day = some t.date :=
    dif_pos t.date.isDate
  have hrange : t.hour.val < 24 ∧ t.minute.val < 60 ∧ t.second.val < 61 ∧
      nano.val < 1000000000 := ⟨t.hour.2, t.minute.2, t.second.2, nano.2⟩
  simp only [readingOf, Reading.instant?, hdate, Option.bind_eq_bind, Option.bind_some]
  exact dif_pos hrange

/-! ## Second stamps -/

/-- **A second stamp gives the moment without its fraction.** -/
theorem ofSecondStamp?_secondStamp (t : Instant) :
    ofSecondStamp? (secondStamp t) = some t.wholeSecond := by
  have hread : takeReading id (takeChar 'T') (secondChars t ++ ['Z']) =
      some (readingOf t, ['Z']) :=
    takeReading_secondChars (fun _ => rfl) (fun _ => rfl) (fun _ => rfl) t ['Z']
  simp only [ofSecondStamp?, secondStamp, String.toList_ofList, hread, Option.bind_eq_bind,
    Option.bind_some, if_true]
  exact instant?_readingOf t 0

/-! ## Exact timestamps -/

/-- Digits after a point are read as that fraction of a second. -/
theorem takeFraction_padded {w n : Nat} (hw : 0 < w) (hw' : w ≤ 9) (hn : n < Nat.pow 10 w)
    (k : List Char) :
    takeFraction ('.' :: Decimal.paddedChars w n ++ 'Z' :: k) =
      some (n * Nat.pow 10 (9 - w), 'Z' :: k) := by
  have hlength := Decimal.length_padded hw hn
  have htaken : takeDigits 9 ((Decimal.padded w n).map Digit.char ++ 'Z' :: k) =
      some (Decimal.padded w n, 'Z' :: k) :=
    takeDigits_map (Decimal.padded_ne_nil hw n) (by omega) (.inr (by simp; decide))
  simp only [List.cons_append, takeFraction, Decimal.paddedChars, htaken, Option.bind_eq_bind,
    Option.bind_some, Decimal.value_padded, hlength]
  rfl

theorem takeFraction_fractionChars (nano : Fin 1000000000) (k : List Char) :
    takeFraction (fractionChars nano ++ 'Z' :: k) = some (nano.val, 'Z' :: k) := by
  have hnano := nano.2
  unfold fractionChars
  -- none, three, six or nine digits, the fewest that drop nothing but zeros
  split
  · rename_i hzero
    rw [hzero]
    rfl
  · split
    · rw [takeFraction_padded (by decide) (by decide) (show nano.val / 1000000 < 1000 by omega)]
      simp only [Option.some.injEq, Prod.mk.injEq, and_true, Nat.pow_eq, Nat.reduceSub,
        Nat.reducePow]
      omega
    · split
      · rw [takeFraction_padded (by decide) (by decide) (show nano.val / 1000 < 1000000 by omega)]
        simp only [Option.some.injEq, Prod.mk.injEq, and_true, Nat.pow_eq, Nat.reduceSub,
          Nat.reducePow]
        omega
      · rw [takeFraction_padded (by decide) (by decide) (show nano.val < 1000000000 by omega)]
        simp

/-- No offset moves nothing. -/
theorem plusMinutes?_zero (t : Instant) : t.plusMinutes? 0 = some t := by
  obtain ⟨date, hour, minute, second, nano⟩ := t
  have hhour := hour.2
  have hminute := minute.2
  -- the minute of the day stays within the day
  have hinDay : (((hour.val * 60 + minute.val + 0 : Int)) % 1440).toNat =
      hour.val * 60 + minute.val := by omega
  have hnonneg : ¬ ((hour.val * 60 + minute.val + 0 : Int)) < 0 := by omega
  have hlt : ((hour.val * 60 + minute.val + 0 : Int)) < 1440 := by omega
  simp only [Instant.plusMinutes?, hinDay, if_neg hnonneg, if_pos hlt, Option.map_some,
    Option.some.injEq, Instant.mk.injEq, true_and, and_true]
  refine ⟨Fin.ext ?_, Fin.ext ?_⟩
  · simp only [Fin.val_ofNat]
    omega
  · simp only [Fin.val_ofNat]
    omega

/-- **An exact timestamp gives the moment back.** -/
theorem ofExact?_exact (t : Instant) : ofExact? (exact t) = some t := by
  have hchars : (exact t).toList = secondChars t ++ (fractionChars t.nano ++ ['Z']) := by
    simp [exact, exactWith]
  have hread : takeReading trimStart takeSeparator
      (secondChars t ++ (fractionChars t.nano ++ ['Z'])) =
      some (readingOf t, fractionChars t.nano ++ ['Z']) :=
    takeReading_secondChars (trimStart_cons (by decide)) (trimStart_cons (by decide))
      (fun _ => rfl) t _
  have hfraction := takeFraction_fractionChars t.nano []
  have hinstant : (readingOf t).instant? t.nano = some t := instant?_readingOf t t.nano
  have hoffset : takeOffset (trimStart ['Z']) = some (0, []) := by decide
  have hend : (trimStart []).isEmpty = true := rfl
  simp only [ofExact?, hchars, hread, Option.bind_eq_bind, Option.bind_some, hfraction, hoffset,
    hend, if_true, hinstant]
  exact plusMinutes?_zero t

end Time

end UserDirectory
