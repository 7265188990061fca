import UserDirectory.Uuid

/-!
# Identifiers are read from the spelling in which they are written

Of the four spellings of an identifier the hyphenated one in lower case is written. `parse?_text`
says that it is read back: the hyphens come out where they were put in, and every digit is its own.
-/

namespace UserDirectory.Uuid

/-- Hyphens that were put between groups are taken out again. -/
theorem unhyphenate?_hyphenate (first : Bool) (ns : List Nat) (cs : List Char)
    (h : cs.length = ns.foldr (· + ·) 0) :
    unhyphenate? first ns (hyphenate first ns cs) = some cs := by
  induction ns generalizing first cs with
  | nil =>
    have hcs : cs = [] := List.length_eq_zero_iff.mp (by simpa using h)
    subst hcs
    rfl
  | cons n ns ih =>
    rw [List.foldr_cons] at h
    have htake : (cs.take n).length = n := by
      rw [List.length_take]
      omega
    have hdrop : (cs.drop n).length = ns.foldr (· + ·) 0 := by
      rw [List.length_drop]
      omega
    have ih := ih false (cs.drop n) hdrop
    have hbody : ∀ k : List Char, ¬ (cs.take n ++ k).length < n := by
      intro k
      rw [List.length_append, htake]
      omega
    have hparts : ∀ k : List Char, (cs.take n ++ k).take n = cs.take n ∧
        (cs.take n ++ k).drop n = k :=
      fun k => ⟨List.take_left' htake, List.drop_left' htake⟩
    cases first with
    | true =>
      simp only [hyphenate, unhyphenate?, if_true, List.nil_append, Option.bind_some,
        if_neg (hbody _), (hparts _).1, (hparts _).2, ih, Option.map_some, List.take_append_drop]
    | false =>
      simp only [hyphenate, unhyphenate?, Bool.false_eq_true, if_false, List.cons_append,
        List.nil_append, Option.bind_some, if_neg (hbody _), (hparts _).1, (hparts _).2, ih,
        Option.map_some, List.take_append_drop]

theorem mapM_hexValue?_map (ds : List (Fin 16)) :
    (ds.map Text.hexDigit).mapM Text.hexValue? = some ds := by
  induction ds with
  | nil => rfl
  | cons d ds ih =>
    rw [List.map_cons, List.mapM_cons, Text.hexValue?_hexDigit, ih]
    rfl

theorem ofPlain?_map (u : Uuid) : ofPlain? (u.digits.map Text.hexDigit) = some u := by
  rw [ofPlain?, mapM_hexValue?_map, Option.bind_some, ofDigits?, dif_pos u.length_digits]

/-- **An identifier is read back from its text.** -/
@[simp] theorem parse?_text (u : Uuid) : parse? u.text = some u := by
  have hdigits : (u.digits.map Text.hexDigit).length = 32 := by
    rw [List.length_map, u.length_digits]
  have hlength : (hyphenate true groups (u.digits.map Text.hexDigit)).length = 36 := by
    simp [groups, hyphenate, u.length_digits]
  have hread := unhyphenate?_hyphenate true groups _ hdigits
  simp only [parse?, text, String.toList_ofList, hlength]
  rw [ofHyphenated?, hread, Option.bind_some, ofPlain?_map]

end UserDirectory.Uuid
