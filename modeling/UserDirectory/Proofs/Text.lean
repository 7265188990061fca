import Mathlib.Data.List.TakeWhile
import UserDirectory.Text.Blank
import UserDirectory.Text.Hex

/-!
# Texts taken apart

Three things are taken from a text: what stands between the blanks at its ends (`trim_eq_iff`), a
hexadecimal digit in either case (`hexValue?_eq_some_iff`), and the digits in front, up to where
something else follows (`takeRun_iff`). The last is said once for digits of every kind: all that
is needed is which characters a digit is read from.
-/

namespace UserDirectory.Text

/-! ## Blanks at the ends -/

/-- A text is `core` between blanks, and `core` neither begins nor ends with one. -/
structure Spaces (core cs : List Char) : Prop where
  between : ∃ before after, cs = before ++ core ++ after ∧
    (∀ c ∈ before, isBlank c = true) ∧ ∀ c ∈ after, isBlank c = true
  head : ∀ c ∈ core.head?, isBlank c = false
  last : ∀ c ∈ core.getLast?, isBlank c = false

theorem dropWhile_of_head {p : Char → Bool} {cs : List Char} (h : ∀ c ∈ cs.head?, p c = false) :
    cs.dropWhile p = cs := by
  cases cs with
  | nil => rfl
  | cons c cs => exact List.dropWhile_cons_of_neg (by simp [h c rfl])

theorem head_dropWhile (p : Char → Bool) (cs : List Char) :
    ∀ c ∈ (cs.dropWhile p).head?, p c = false := by
  intro c hc
  have h := List.head?_dropWhile_not p cs
  rw [hc] at h
  exact Bool.eq_false_iff.mpr (by simpa using h)

theorem spaces_trim (cs : List Char) : Spaces (trim cs) cs := by
  let rest := cs.dropWhile isBlank
  have hrest : rest = trim cs ++ (rest.reverse.takeWhile isBlank).reverse := by
    rw [trim, ← List.reverse_append, List.takeWhile_append_dropWhile, List.reverse_reverse]
  refine ⟨⟨cs.takeWhile isBlank, (rest.reverse.takeWhile isBlank).reverse, ?_, fun c hc => ?_,
    fun c hc => ?_⟩, fun c hc => ?_, fun c hc => ?_⟩
  · rw [List.append_assoc, ← hrest, List.takeWhile_append_dropWhile]
  · exact List.all_eq_true.mp List.all_takeWhile c hc
  · exact List.all_eq_true.mp List.all_takeWhile c (List.mem_reverse.mp hc)
  · -- what is left begins as the text does once its first blanks are gone
    refine head_dropWhile isBlank cs c ?_
    show c ∈ rest.head?
    rw [hrest, List.head?_append, hc, Option.some_or]
    rfl
  · refine head_dropWhile isBlank rest.reverse c ?_
    rw [trim, List.getLast?_reverse] at hc
    exact hc

/-- **What is left of a text without the blanks at its ends.** -/
theorem trim_eq_iff {core cs : List Char} : trim cs = core ↔ Spaces core cs := by
  refine ⟨fun h => h ▸ spaces_trim cs, fun ⟨⟨before, after, hcs, hbefore, hafter⟩, hhead, hlast⟩ =>
    ?_⟩
  subst hcs
  cases core with
  | nil =>
    -- there are only blanks
    rw [List.append_nil, trim, List.dropWhile_append_of_pos hbefore,
      List.dropWhile_eq_nil_iff.mpr hafter]
    rfl
  | cons d ds =>
    have hfirst : (d :: ds ++ after).dropWhile isBlank = d :: ds ++ after := dropWhile_of_head hhead
    have hrest : (after.reverse ++ (d :: ds).reverse).dropWhile isBlank = (d :: ds).reverse := by
      rw [List.dropWhile_append_of_pos fun c hc => hafter c (List.mem_reverse.mp hc)]
      exact dropWhile_of_head (by rwa [List.head?_reverse])
    rw [trim, List.append_assoc, List.dropWhile_append_of_pos hbefore, hfirst, List.reverse_append,
      hrest, List.reverse_reverse]

/-! ## Hexadecimal digits in either case -/

theorem toNat_toLower (c : Char) :
    c.toLower.toNat = if 65 ≤ c.toNat ∧ c.toNat ≤ 90 then c.toNat + 32 else c.toNat := by
  have hrange : (c.val ≥ 'A'.val ∧ c.val ≤ 'Z'.val) ↔ 65 ≤ c.toNat ∧ c.toNat ≤ 90 := Iff.rfl
  unfold Char.toLower
  split
  · rename_i h
    have hle : c.val.toNat ≤ 90 := (hrange.mp h).2
    rw [if_pos (hrange.mp h)]
    show (c.val + 32).toNat = c.val.toNat + 32
    rw [UInt32.toNat_add]
    exact Nat.mod_eq_of_lt (show c.val.toNat + 32 < 2 ^ 32 by omega)
  · rename_i h
    rw [if_neg (mt hrange.mpr h)]

theorem toNat_hexDigit (d : Fin 16) :
    (hexDigit d).toNat = if d.val < 10 then 48 + d.val else 87 + d.val := by
  revert d
  decide

/-- A character is read as a digit if it is the digit but for its case. -/
theorem hexValue?_eq_some_iff {c : Char} {d : Fin 16} :
    hexValue? c = some d ↔ c.toLower = hexDigit d := by
  have hd := d.isLt
  rw [← Char.toNat_inj, toNat_toLower, toNat_hexDigit, hexValue?]
  split
  · simp only [Option.some.injEq, Fin.ext_iff]
    split <;> split <;> omega
  split
  · simp only [Option.some.injEq, Fin.ext_iff]
    split <;> split <;> omega
  split
  · simp only [Option.some.injEq, Fin.ext_iff]
    split <;> split <;> omega
  · simp only [reduceCtorEq, false_iff]
    split <;> split <;> omega

/-! ## Runs of digits -/

/-- No digit stands in front. -/
def Halts {α : Type} (read : Char → Option α) (cs : List Char) : Prop :=
  ∀ c ∈ cs.head?, read c = none

section

-- a digit is written as its mark, and read from every character of the shape of its mark
variable {α : Type} {read : Char → Option α} {shape : Char → Char} {mark : α → Char}

theorem halts_nil : Halts read [] := by
  intro c hc
  cases hc

theorem halts_cons {c : Char} (h : read c = none) (cs : List Char) : Halts read (c :: cs) := by
  intro d hd
  cases hd
  exact h

/-- A text is read as digits if it has the shape of their marks. -/
theorem mapM_eq_some_iff (h : ∀ c a, read c = some a ↔ shape c = mark a) {cs : List Char}
    {as : List α} : cs.mapM read = some as ↔ cs.map shape = as.map mark := by
  induction cs generalizing as with
  | nil => cases as <;> simp
  | cons c cs ih =>
    simp only [List.mapM_cons, Option.bind_eq_bind, Option.bind_eq_some_iff, Option.pure_def,
      Option.some.injEq, ih, h]
    constructor
    · rintro ⟨a, ha, as, has, rfl⟩
      rw [List.map_cons, List.map_cons, ha, has]
    · intro hmap
      cases as with
      | nil => cases hmap
      | cons a as =>
        obtain ⟨ha, has⟩ := List.cons.inj hmap
        exact ⟨a, ha, as, has, rfl⟩

/-- What has the shape of marks is read as their digits, character by character. -/
theorem filterMap_of_marks (h : ∀ c a, read c = some a ↔ shape c = mark a) {front : List Char}
    {as : List α} (hmap : front.map shape = as.map mark) :
    front.filterMap read = as ∧ ∀ c ∈ front, (read c).isSome = true := by
  induction front generalizing as with
  | nil =>
    obtain rfl := List.map_eq_nil_iff.mp hmap.symm
    exact ⟨rfl, nofun⟩
  | cons c front ih =>
    cases as with
    | nil => cases hmap
    | cons a as =>
      obtain ⟨ha, hrest⟩ := List.cons.inj hmap
      have hread := (h c a).mpr ha
      obtain ⟨rfl, hall⟩ := ih hrest
      refine ⟨by rw [List.filterMap_cons, hread], ?_⟩
      intro d hd
      rcases List.mem_cons.mp hd with rfl | hd
      · rw [hread]
        rfl
      · exact hall d hd

/-- What is read, character by character, has the shape of the marks of what is read. -/
theorem map_shape_of_isSome (h : ∀ c a, read c = some a ↔ shape c = mark a) {front : List Char}
    (hall : ∀ c ∈ front, (read c).isSome = true) :
    front.map shape = (front.filterMap read).map mark := by
  induction front with
  | nil => rfl
  | cons c front ih =>
    obtain ⟨a, ha⟩ := Option.isSome_iff_exists.mp (hall c (List.mem_cons_self ..))
    rw [List.filterMap_cons, ha, List.map_cons, List.map_cons, (h c a).mp ha,
      ih fun d hd => hall d (List.mem_cons_of_mem c hd)]

/-- **The digits in front are taken, and all of them.** What is left goes on with something else. -/
theorem takeRun_iff (h : ∀ c a, read c = some a ↔ shape c = mark a) {cs rest : List Char}
    {as : List α} :
    (cs.takeWhile fun c => (read c).isSome).filterMap read = as ∧ cs.drop as.length = rest ↔
      ∃ front, cs = front ++ rest ∧ front.map shape = as.map mark ∧ Halts read rest := by
  have hlength : ∀ {front : List Char} {as : List α}, front.map shape = as.map mark →
      front.length = as.length := by
    intro front as hmap
    rw [← List.length_map (f := shape), hmap, List.length_map]
  constructor
  · intro hread
    obtain ⟨rfl, rfl⟩ := hread
    have hsplit : (cs.takeWhile fun c => (read c).isSome) ++
        (cs.dropWhile fun c => (read c).isSome) = cs := List.takeWhile_append_dropWhile
    have hall : ∀ c ∈ cs.takeWhile fun c => (read c).isSome, (read c).isSome = true :=
      fun c hc => List.all_eq_true.mp List.all_takeWhile c hc
    have hmap := map_shape_of_isSome h hall
    have hrest : cs.drop ((cs.takeWhile fun c => (read c).isSome).filterMap read).length =
        cs.dropWhile fun c => (read c).isSome := by
      rw [← hlength hmap]
      exact (congrArg (List.drop _) hsplit.symm).trans List.drop_left
    rw [hrest]
    refine ⟨_, hsplit.symm, hmap, ?_⟩
    intro c hc
    exact Option.not_isSome_iff_eq_none.mp (Bool.eq_false_iff.mp (head_dropWhile _ cs c hc))
  · intro hfront
    obtain ⟨front, rfl, hmap, hhalts⟩ := hfront
    obtain ⟨hfront, hall⟩ := filterMap_of_marks h hmap
    have hnone : (rest.takeWhile fun c => (read c).isSome) = [] := by
      cases rest with
      | nil => rfl
      | cons c rest => simp [hhalts c rfl]
    rw [List.takeWhile_append_of_pos hall, hnone, List.append_nil]
    exact ⟨hfront, List.drop_left' (hlength hmap)⟩

/-- A reader that takes the digits in front, unless it refuses them, for what they are worth. -/
theorem taken_iff (h : ∀ c a, read c = some a ↔ shape c = mark a) (refuses : List α → Bool)
    (worth : List α → Nat) {n : Nat} {cs rest : List Char} :
    (let as := (cs.takeWhile fun c => (read c).isSome).filterMap read
      if refuses as then none else some (worth as, cs.drop as.length)) = some (n, rest) ↔
      ∃ as front, cs = front ++ rest ∧ front.map shape = as.map mark ∧ refuses as = false ∧
        worth as = n ∧ Halts read rest := by
  dsimp only
  constructor
  · intro hread
    split at hread
    · cases hread
    · rename_i hrefuses
      obtain ⟨front, hcs, hfront, hhalts⟩ := (takeRun_iff h).mp ⟨rfl, rfl⟩
      cases hread
      exact ⟨_, front, hcs, hfront, Bool.eq_false_iff.mpr hrefuses, rfl, hhalts⟩
  · intro hread
    obtain ⟨as, front, hcs, hfront, hrefuses, rfl, hhalts⟩ := hread
    obtain ⟨has, hrest⟩ := (takeRun_iff h).mpr ⟨front, hcs, hfront, hhalts⟩
    rw [has, hrest, hrefuses]
    rfl

end

end UserDirectory.Text
