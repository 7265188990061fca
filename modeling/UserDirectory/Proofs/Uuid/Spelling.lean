import Mathlib.Algebra.GroupWithZero.Nat
import UserDirectory.Proofs.Text
import UserDirectory.Proofs.Uuid
import UserDirectory.User

/-!
# The spellings of an identifier, and no others, are read

What can be read is said without the reader: the digits of the identifier, with hyphens between the
groups or without any, each letter in either case, and what may stand around the hyphenated digits
(`SpelledWith`). `parse?_eq_some_iff` says that the reader takes just that.

Two facts carry it. A character is read as a digit if it is that digit but for its case
(`Text.hexValue?_eq_some_iff`), and the hyphens come out of just those characters into which they were
put (`unhyphenate?_eq_some_iff`).
-/

namespace UserDirectory

namespace Text

/-- No letter becomes a hyphen in lower case. -/
theorem toLower_eq_hyphen_iff {c : Char} : c.toLower = '-' ↔ c = '-' := by
  have hhyphen : '-'.toNat = 45 := rfl
  rw [← Char.toNat_inj, toNat_toLower, ← Char.toNat_inj, hhyphen]
  split <;> omega

end Text

namespace Uuid

theorem mapM_hexValue?_eq_some_iff {cs : List Char} {ds : List (Fin 16)} :
    cs.mapM Text.hexValue? = some ds ↔ cs.map Char.toLower = ds.map Text.hexDigit :=
  Text.mapM_eq_some_iff fun _ _ => Text.hexValue?_eq_some_iff

/-! ## Hyphens between the groups -/

/-- Hyphens are taken out of just those characters into which they were put. -/
theorem unhyphenate?_eq_some_iff {first : Bool} {ns : List Nat} {cs ds : List Char} :
    unhyphenate? first ns cs = some ds ↔ ds.length = ns.sum ∧ cs = hyphenate first ns ds := by
  constructor
  · intro h
    induction ns generalizing first cs ds with
    | nil =>
      simp only [unhyphenate?, List.isEmpty_iff] at h
      split at h
      · rename_i hcs
        cases h
        exact ⟨rfl, hcs⟩
      · cases h
    | cons n ns ih =>
      -- after the hyphen, if one is due, come the first group and the groups behind it
      simp only [unhyphenate?, Option.bind_eq_some_iff] at h
      obtain ⟨body, hbody, h⟩ := h
      have hcs : cs = (if first then [] else ['-']) ++ body := by
        cases first with
        | true => exact Option.some.inj hbody
        | false =>
          simp only [Bool.false_eq_true, if_false] at hbody ⊢
          split at hbody
          · cases hbody
            rfl
          · cases hbody
      split at h
      · cases h
      rename_i hlong
      obtain ⟨es, hes, rfl⟩ := Option.map_eq_some_iff.mp h
      obtain ⟨hlength, hrest⟩ := ih hes
      have htake : (body.take n).length = n := by
        rw [List.length_take]
        omega
      refine ⟨?_, ?_⟩
      · rw [List.length_append, htake, hlength]
        rfl
      · rw [hyphenate, List.take_left' htake, List.drop_left' htake, ← hrest, List.append_assoc,
          List.take_append_drop]
        exact hcs
  · rintro ⟨hlength, rfl⟩
    exact unhyphenate?_hyphenate first ns ds hlength

/-- Characters with hyphens between the groups are such in lower case. -/
theorem map_toLower_hyphenate (first : Bool) (ns : List Nat) (cs : List Char) :
    (hyphenate first ns cs).map Char.toLower = hyphenate first ns (cs.map Char.toLower) := by
  induction ns generalizing first cs with
  | nil => rfl
  | cons n ns ih =>
    rw [hyphenate, hyphenate, List.map_append, List.map_append, ih, List.map_take, List.map_drop]
    cases first <;> rfl

/-- Characters that have hyphens between the groups in lower case have them as they are. -/
theorem exists_hyphenate_of_map_toLower {first : Bool} {ns : List Nat} {cs ds : List Char}
    (hlength : ds.length = ns.sum) (h : cs.map Char.toLower = hyphenate first ns ds) :
    ∃ es, es.length = ns.sum ∧ cs = hyphenate first ns es ∧ es.map Char.toLower = ds := by
  induction ns generalizing first cs ds with
  | nil =>
    obtain rfl := List.length_eq_zero_iff.mp hlength
    exact ⟨[], rfl, List.map_eq_nil_iff.mp h, rfl⟩
  | cons n ns ih =>
    rw [List.sum_cons] at hlength
    rw [hyphenate, List.map_eq_append_iff] at h
    obtain ⟨front, rest, rfl, hfront, hrest⟩ := h
    rw [List.map_eq_append_iff] at hfront
    obtain ⟨hyphen, group, rfl, hhyphen, hgroup⟩ := hfront
    have hdrop : (ds.drop n).length = ns.sum := by
      rw [List.length_drop]
      omega
    have hlast : group.length = n := by
      have hcount := congrArg List.length hgroup
      rw [List.length_map, List.length_take] at hcount
      omega
    obtain ⟨es, hes, rfl, hlower⟩ := ih hdrop hrest
    have hsame : hyphen = if first then [] else ['-'] := by
      cases first with
      | true => exact List.map_eq_nil_iff.mp hhyphen
      | false =>
        obtain ⟨c, rfl, hc⟩ := List.map_eq_singleton_iff.mp hhyphen
        rw [Text.toLower_eq_hyphen_iff.mp hc]
        rfl
    refine ⟨group ++ es, ?_, ?_, ?_⟩
    · rw [List.length_append, List.sum_cons, hlast, hes]
    · rw [hyphenate, List.take_left' hlast, List.drop_left' hlast, hsame]
    · rw [List.map_append, hgroup, hlower, List.take_append_drop]

/-! ## Spellings -/

/-- The digits of an identifier in lower case. -/
def plain (u : Uuid) : List Char := u.digits.map Text.hexDigit

/-- The digits of an identifier in lower case, with hyphens between the groups. -/
def hyphenated (u : Uuid) : List Char :=
  u.plain.take 8 ++ '-' :: (u.plain.drop 8).take 4 ++ '-' :: (u.plain.drop 12).take 4 ++
    '-' :: (u.plain.drop 16).take 4 ++ '-' :: u.plain.drop 20

/-- Characters that spell an identifier, each letter of its digits in either case. What may stand
before the digits as a resource name is given. -/
inductive SpelledWith (isLead : List Char → Prop) (u : Uuid) : List Char → Prop
  | hyphenated {cs : List Char} (h : cs.map Char.toLower = u.hyphenated) : SpelledWith isLead u cs
  | plain {cs : List Char} (h : cs.map Char.toLower = u.plain) : SpelledWith isLead u cs
  | braced {cs : List Char} (h : cs.map Char.toLower = u.hyphenated) :
      SpelledWith isLead u ('{' :: (cs ++ ['}']))
  | named {lead cs : List Char} (hlead : isLead lead) (h : cs.map Char.toLower = u.hyphenated) :
      SpelledWith isLead u (lead ++ cs)

/-- A resource name, each letter in either case. -/
def IsLead (cs : List Char) : Prop := cs.map Char.toLower = urnLead

/-- A text that spells an identifier. -/
def Spelled (u : Uuid) (s : String) : Prop := SpelledWith IsLead u s.toList

theorem length_plain (u : Uuid) : u.plain.length = 32 := by
  rw [plain, List.length_map, u.length_digits]

theorem length_hyphenated (u : Uuid) : u.hyphenated.length = 36 := by
  simp [hyphenated, u.length_plain]

/-- The hyphens stand between the groups. -/
theorem hyphenate_plain (u : Uuid) : hyphenate true groups u.plain = u.hyphenated := by
  have hrest : (u.plain.drop 32) = [] := List.drop_of_length_le (Nat.le_of_eq u.length_plain)
  have hlast : (u.plain.drop 20).take 12 = u.plain.drop 20 :=
    List.take_of_length_le (by simp [u.length_plain])
  simp [hyphenate, groups, hyphenated, hrest, hlast]

/-- An identifier is written hyphenated and in lower case. -/
theorem toList_text (u : Uuid) : u.text.toList = u.hyphenated := by
  rw [← hyphenate_plain, text, String.toList_ofList, plain]

theorem ofDigits?_eq_some_iff {ds : List (Fin 16)} {u : Uuid} :
    ofDigits? ds = some u ↔ ds = u.digits := by
  obtain ⟨es, hes⟩ := u
  unfold ofDigits?
  split
  · simp
  · rename_i h
    refine iff_of_false nofun ?_
    rintro rfl
    exact h hes

theorem ofPlain?_eq_some_iff {cs : List Char} {u : Uuid} :
    ofPlain? cs = some u ↔ cs.map Char.toLower = u.plain := by
  simp only [ofPlain?, Option.bind_eq_some_iff, ofDigits?_eq_some_iff, exists_eq_right,
    mapM_hexValue?_eq_some_iff, plain]

theorem ofHyphenated?_eq_some_iff {cs : List Char} {u : Uuid} :
    ofHyphenated? cs = some u ↔ cs.map Char.toLower = u.hyphenated := by
  rw [ofHyphenated?, Option.bind_eq_some_iff, ← u.hyphenate_plain]
  constructor
  · rintro ⟨ds, hds, hread⟩
    obtain ⟨-, rfl⟩ := unhyphenate?_eq_some_iff.mp hds
    rw [map_toLower_hyphenate, ofPlain?_eq_some_iff.mp hread]
  · intro h
    obtain ⟨ds, hlength, rfl, hlower⟩ := exists_hyphenate_of_map_toLower u.length_plain h
    exact ⟨ds, unhyphenate?_eq_some_iff.mpr ⟨hlength, rfl⟩, ofPlain?_eq_some_iff.mpr hlower⟩

/-- What is read spells what it is read as. -/
theorem spelled_of_parse? {s : String} {u : Uuid} (h : parse? s = some u) : u.Spelled s := by
  unfold parse? at h
  unfold Spelled
  generalize s.toList = cs at h ⊢
  dsimp only at h
  split at h
  · exact .plain (ofPlain?_eq_some_iff.mp h)
  · exact .hyphenated (ofHyphenated?_eq_some_iff.mp h)
  · -- between the braces
    rename_i hlength
    split at h
    · rename_i hbraces
      obtain ⟨hfirst, hlast⟩ := Bool.and_eq_true_iff.mp hbraces
      obtain ⟨rest, rfl⟩ := List.head?_eq_some_iff.mp (of_decide_eq_true hfirst)
      obtain ⟨body, hbody⟩ := List.getLast?_eq_some_iff.mp (of_decide_eq_true hlast)
      cases body with
      | nil => cases hbody
      | cons c body =>
        obtain ⟨rfl, hrest⟩ := List.cons.inj hbody
        rw [List.append_eq] at hrest
        subst hrest
        have hbody : body.length = 36 := by simpa using hlength
        rw [List.drop_one, List.tail_cons, List.take_left' hbody] at h
        exact .braced (ofHyphenated?_eq_some_iff.mp h)
    · cases h
  · -- after the name
    split at h
    · rename_i hlead
      rw [← List.take_append_drop 9 cs]
      exact .named hlead (ofHyphenated?_eq_some_iff.mp h)
    · cases h
  · cases h

/-- What spells an identifier is read as it. -/
theorem parse?_of_spelled {s : String} {u : Uuid} (h : u.Spelled s) : parse? s = some u := by
  unfold Spelled at h
  unfold parse?
  generalize s.toList = cs at h ⊢
  dsimp only
  have hlower : ∀ {ds es : List Char}, ds.map Char.toLower = es → ds.length = es.length := by
    rintro ds _ rfl
    rw [List.length_map]
  cases h with
  | hyphenated h =>
    have hlength := (hlower h).trans u.length_hyphenated
    simp only [hlength]
    exact ofHyphenated?_eq_some_iff.mpr h
  | plain h =>
    have hlength := (hlower h).trans u.length_plain
    simp only [hlength]
    exact ofPlain?_eq_some_iff.mpr h
  | @braced cs h =>
    have hlength := (hlower h).trans u.length_hyphenated
    have htake : (cs ++ ['}']).take 36 = cs := List.take_left' hlength
    have hlast : (('{' :: cs) ++ ['}']).getLast? = some '}' := List.getLast?_concat
    rw [List.cons_append] at hlast
    simp only [List.length_cons, List.length_append, hlength, List.length_nil, List.head?_cons,
      hlast, decide_true, Bool.and_self, if_true, List.drop_one, List.tail_cons, htake]
    exact ofHyphenated?_eq_some_iff.mpr h
  | @named lead cs hlead h =>
    have hlength := (hlower h).trans u.length_hyphenated
    have hnine : lead.length = 9 := hlower hlead
    simp only [List.length_append, hlength, hnine, List.take_left' hnine, List.drop_left' hnine,
      if_pos (show lead.map Char.toLower = urnLead from hlead)]
    exact ofHyphenated?_eq_some_iff.mpr h

/-- **The reader takes the spellings of an identifier and nothing else.** -/
theorem parse?_eq_some_iff {s : String} {u : Uuid} : parse? s = some u ↔ u.Spelled s :=
  ⟨spelled_of_parse?, parse?_of_spelled⟩

end Uuid

end UserDirectory
