import UserDirectory.Config.SocketAddress
import UserDirectory.Proofs.Decimal.Digits

/-!
# The texts of socket addresses, and no others, are read

The texts of an address are said here as a grammar, part by part: numbers with dots between them
(`IsDotted`), groups with colons between them (`IsGroups`), eight groups of which a run of zeros
may be left out (`IsV6`), a scope and a port. `parse?_eq_some_iff` says that the reader takes just
these.

The reader takes of each part as much as there is and never goes back, where the grammar asks only
whether a text can be divided. The two agree since what may follow a part cannot belong to it: no
digit follows a number (`Text.Halts`), and groups are followed by two colons, by a scope or by the
bracket (`Closes`).
-/

namespace UserDirectory.Config.SocketAddress

open Decimal (Digit Spells)
open Text (Halts halts_nil halts_cons)

/-! ## The grammar -/

/-- Four numbers below 256, each as it is written, with dots between them. -/
inductive IsDotted : List Nat → List Char → Prop
  | mk {a b c d : Nat} (ha : a < 256) (hb : b < 256) (hc : c < 256) (hd : d < 256) :
      IsDotted [a, b, c, d]
        (Decimal.chars a ++ '.' :: (Decimal.chars b ++
          '.' :: (Decimal.chars c ++ '.' :: Decimal.chars d)))

/-- One to four hexadecimal digits, in either case. -/
def IsGroup (group : Nat) (cs : List Char) : Prop :=
  ∃ ds : List (Fin 16), cs.map Char.toLower = ds.map Text.hexDigit ∧ ds.length ≤ 4 ∧
    Denotes ds group

/-- The colon that stands in front of all groups but the first. -/
def colon (first : Bool) : List Char := if first then [] else [':']

/-- Groups with colons between them. The last two may be given as a version 4 address, and then
the groups are `dotted`. -/
inductive IsGroups : (first : Bool) → List Nat → (dotted : Bool) → List Char → Prop
  | nil (first : Bool) : IsGroups first [] false []
  | cons {first dotted : Bool} {g : Nat} {gs : List Nat} {cs rest : List Char}
      (hg : IsGroup g cs) (hgs : IsGroups false gs dotted rest) :
      IsGroups first (g :: gs) dotted (colon first ++ (cs ++ rest))
  | dotted {first : Bool} {a b c d : Nat} {cs : List Char} (h : IsDotted [a, b, c, d] cs) :
      IsGroups first [256 * a + b, 256 * c + d] true (colon first ++ cs)

/-- Eight groups, or fewer with two colons for the zeros that are left out. What is in front of the
two colons is not dotted. -/
inductive IsV6 : List Nat → List Char → Prop
  | whole {gs : List Nat} {dotted : Bool} {cs : List Char} (h : IsGroups true gs dotted cs)
      (hlength : gs.length = 8) : IsV6 gs cs
  | short {head tail : List Nat} {dotted : Bool} {front back : List Char}
      (hhead : IsGroups true head false front) (htail : IsGroups true tail dotted back)
      (hlength : head.length + tail.length ≤ 7) :
      IsV6 (head ++ List.replicate (8 - head.length - tail.length) 0 ++ tail)
        (front ++ ':' :: ':' :: back)

/-- A scope after a percent sign, or none. -/
inductive IsScope : Nat → List Char → Prop
  | none : IsScope 0 []
  | some {scope : Nat} {cs : List Char} (h : Spells cs scope) (hbound : scope < Nat.pow 2 32) :
      IsScope scope ('%' :: cs)

/-- A port after a colon. -/
def IsPort (port : Nat) (cs : List Char) : Prop :=
  ∃ digits, cs = ':' :: digits ∧ Spells digits port ∧ port < 65536

/-- The texts of an address, character by character. -/
inductive IsText : SocketAddress → List Char → Prop
  | v4 {octets : List Nat} {port : Nat} {host tail : List Char} (hhost : IsDotted octets host)
      (hport : IsPort port tail) : IsText (v4 octets port) (host ++ tail)
  | v6 {groups : List Nat} {scope port : Nat} {host zone tail : List Char}
      (hhost : IsV6 groups host) (hzone : IsScope scope zone) (hport : IsPort port tail) :
      IsText (v6 groups scope port) ('[' :: (host ++ (zone ++ ']' :: tail)))

/-- A text of an address. -/
def Spelled (a : SocketAddress) (s : String) : Prop := IsText a s.toList

/-! ## Marks -/

theorem takeChar_eq_some_iff {c : Char} {cs rest : List Char} :
    takeChar c cs = some rest ↔ cs = c :: rest := by
  cases cs with
  | nil => simp [takeChar]
  | cons d cs =>
    rw [takeChar, List.cons.injEq]
    split
    · simp_all
    · simp_all

theorem takeSeparator_eq_some_iff {index : Nat} {cs rest : List Char} :
    takeSeparator ':' index cs = some rest ↔ cs = colon (index == 0) ++ rest := by
  rw [takeSeparator]
  cases index with
  | zero => simp [colon]
  | succ index => simp [colon, takeChar_eq_some_iff]

/-! ## Numbers -/

theorem takeNumber_eq_some_iff {bound n : Nat} {cs rest : List Char} :
    takeNumber bound cs = some (n, rest) ↔
      ∃ front, cs = front ++ rest ∧ Spells front n ∧ n < bound ∧ Halts Decimal.digit? rest := by
  refine (Text.taken_iff @Decimal.digit?_eq_some_iff
    (fun ds => ds.isEmpty || Decimal.value ds ≥ bound) Decimal.value).trans ?_
  simp only [Bool.or_eq_false_iff, List.isEmpty_eq_false_iff, decide_eq_false_iff_not, Nat.not_le,
    ge_iff_le]
  constructor
  · intro h
    obtain ⟨ds, front, hcs, hfront, ⟨hne, hbound⟩, rfl, hhalts⟩ := h
    exact ⟨front, hcs, Decimal.spells_iff.mpr ⟨ds, hne, hfront, rfl⟩, hbound, hhalts⟩
  · intro h
    obtain ⟨front, hcs, hspells, hbound, hhalts⟩ := h
    obtain ⟨ds, hne, hfront, rfl⟩ := Decimal.spells_iff.mp hspells
    exact ⟨ds, front, hcs, hfront, ⟨hne, hbound⟩, rfl, hhalts⟩

theorem takeOctet_eq_some_iff {n : Nat} {cs rest : List Char} :
    takeOctet cs = some (n, rest) ↔
      cs = Decimal.chars n ++ rest ∧ n < 256 ∧ Halts Decimal.digit? rest := by
  refine (Text.taken_iff @Decimal.digit?_eq_some_iff
    (fun ds => ds.isEmpty || ds.length > 3 || (ds.head? = some 0 && ds.length > 1) ||
      Decimal.value ds ≥ 256) Decimal.value).trans ?_
  simp only [Bool.or_eq_false_iff, Bool.and_eq_false_imp, List.isEmpty_eq_false_iff,
    decide_eq_false_iff_not, decide_eq_true_eq, Nat.not_le, Nat.not_lt, gt_iff_lt, ge_iff_le,
    List.map_id]
  constructor
  · intro h
    obtain ⟨ds, front, rfl, rfl, ⟨⟨⟨hne, -⟩, hzero⟩, hbound⟩, rfl, hhalts⟩ := h
    -- no zero in front, so these are the digits in which the number is written
    have hdigits : Decimal.digits (Decimal.value ds) = ds := by
      refine Decimal.digits_value hne ?_
      intro ds' hds
      have hlength := hzero (by rw [hds]; rfl)
      rw [hds, List.length_cons] at hlength
      exact List.length_eq_zero_iff.mp (by omega)
    rw [Decimal.chars, hdigits]
    exact ⟨rfl, hbound, hhalts⟩
  · intro h
    obtain ⟨rfl, hbound, hhalts⟩ := h
    have hlength : (Decimal.digits n).length ≤ 3 :=
      Decimal.length_digits_le (by decide) (Nat.lt_trans hbound (by decide))
    have hzero : (Decimal.digits n).head? = some 0 → (Decimal.digits n).length ≤ 1 := by
      intro hhead
      obtain ⟨ds, hds⟩ := List.head?_eq_some_iff.mp hhead
      rw [hds, Decimal.eq_nil_of_digits_eq hds]
      exact Nat.le_refl 1
    rw [← Decimal.value_digits n] at hbound
    exact ⟨Decimal.digits n, _, rfl, rfl, ⟨⟨⟨Decimal.digits_ne_nil n, hlength⟩, hzero⟩, hbound⟩,
      Decimal.value_digits n, hhalts⟩

theorem takePort_eq_some_iff {port : Nat} {cs rest : List Char} :
    takePort cs = some (port, rest) ↔
      ∃ tail, cs = tail ++ rest ∧ IsPort port tail ∧ Halts Decimal.digit? rest := by
  simp only [takePort, Option.bind_eq_bind, Option.bind_eq_some_iff, takeChar_eq_some_iff,
    takeNumber_eq_some_iff]
  constructor
  · intro h
    obtain ⟨_, rfl, digits, rfl, hspells, hbound, hhalts⟩ := h
    exact ⟨':' :: digits, rfl, ⟨digits, rfl, hspells, hbound⟩, hhalts⟩
  · intro h
    obtain ⟨_, rfl, ⟨digits, rfl, hspells, hbound⟩, hhalts⟩ := h
    exact ⟨_, rfl, digits, rfl, hspells, hbound, hhalts⟩

/-! ## Version 4 -/

theorem takeV4_eq_some_iff {octets : List Nat} {cs rest : List Char} :
    takeV4 cs = some (octets, rest) ↔
      ∃ host, cs = host ++ rest ∧ IsDotted octets host ∧ Halts Decimal.digit? rest := by
  simp only [takeV4, Option.bind_eq_bind, Option.bind_eq_some_iff, Prod.exists, Option.pure_def,
    Option.some.injEq, Prod.mk.injEq, takeChar_eq_some_iff, takeOctet_eq_some_iff]
  constructor
  · intro h
    obtain ⟨a, _, ⟨rfl, ha, -⟩, _, rfl, b, _, ⟨rfl, hb, -⟩, _, rfl, c, _, ⟨rfl, hc, -⟩, _, rfl,
      d, _, ⟨rfl, hd, hhalts⟩, rfl, rfl⟩ := h
    exact ⟨_, by simp, .mk ha hb hc hd, hhalts⟩
  · intro h
    obtain ⟨_, rfl, ⟨ha, hb, hc, hd⟩, hhalts⟩ := h
    have hdot : ∀ cs, Halts Decimal.digit? ('.' :: cs) := halts_cons (by decide)
    exact ⟨_, _, ⟨by simp, ha, hdot _⟩, _, rfl, _, _, ⟨rfl, hb, hdot _⟩, _, rfl, _, _,
      ⟨rfl, hc, hdot _⟩, _, rfl, _, _, ⟨rfl, hd, hhalts⟩, rfl, rfl⟩

theorem readV4?_eq_some_iff {a : SocketAddress} {cs : List Char} :
    readV4? cs = some a ↔ ∃ octets port host tail, a = v4 octets port ∧ cs = host ++ tail ∧
      IsDotted octets host ∧ IsPort port tail := by
  simp only [readV4?, Option.bind_eq_bind, Option.bind_eq_some_iff, Prod.exists, takeV4_eq_some_iff,
    takePort_eq_some_iff]
  constructor
  · intro h
    obtain ⟨octets, _, ⟨host, rfl, hhost, -⟩, port, rest, ⟨tail, rfl, hport, -⟩, h⟩ := h
    split at h
    · rename_i hrest
      cases h
      refine ⟨octets, port, host, tail, rfl, ?_, hhost, hport⟩
      rw [List.isEmpty_iff.mp hrest, List.append_nil]
    · cases h
  · intro h
    obtain ⟨octets, port, host, tail, rfl, rfl, hhost, hport⟩ := h
    have hhalts : Halts Decimal.digit? tail := by
      obtain ⟨digits, rfl, -⟩ := hport
      exact halts_cons (by decide) digits
    exact ⟨octets, tail, ⟨host, rfl, hhost, hhalts⟩, port, [],
      ⟨tail, (List.append_nil tail).symm, hport, halts_nil⟩, rfl⟩

/-! ## Groups -/

theorem takeGroup_eq_some_iff {group : Nat} {cs rest : List Char} :
    takeGroup cs = some (group, rest) ↔
      ∃ front, cs = front ++ rest ∧ IsGroup group front ∧ Halts Text.hexValue? rest := by
  refine (Text.taken_iff @Text.hexValue?_eq_some_iff (fun ds => ds.isEmpty || ds.length > 4)
    (List.foldl (fun n d => 16 * n + d.val) 0)).trans ?_
  simp only [Bool.or_eq_false_iff, List.isEmpty_eq_false_iff, decide_eq_false_iff_not, Nat.not_lt,
    gt_iff_lt]
  constructor
  · intro h
    obtain ⟨ds, front, hcs, hfront, ⟨hne, hlength⟩, hvalue, hhalts⟩ := h
    exact ⟨front, hcs, ⟨ds, hfront, hlength, denotes_iff.mpr ⟨hne, hvalue⟩⟩, hhalts⟩
  · intro h
    obtain ⟨front, hcs, ⟨ds, hfront, hlength, hdenotes⟩, hhalts⟩ := h
    obtain ⟨hne, hvalue⟩ := denotes_iff.mp hdenotes
    exact ⟨ds, front, hcs, hfront, ⟨hne, hlength⟩, hvalue, hhalts⟩

theorem takeEmbedded_eq_some_iff {index : Nat} {gs : List Nat} {cs rest : List Char} :
    takeEmbedded index cs = some (gs, rest) ↔
      ∃ front a b c d, cs = colon (index == 0) ++ (front ++ rest) ∧ IsDotted [a, b, c, d] front ∧
        gs = [256 * a + b, 256 * c + d] ∧ Halts Decimal.digit? rest := by
  simp only [takeEmbedded, Option.bind_eq_bind, Option.bind_eq_some_iff, Prod.exists,
    takeSeparator_eq_some_iff, takeV4_eq_some_iff]
  constructor
  · intro h
    obtain ⟨_, rfl, _, _, ⟨front, rfl, hfront, hhalts⟩, h⟩ := h
    cases hfront with
    | @mk a b c d ha hb hc hd =>
      cases h
      exact ⟨_, a, b, c, d, rfl, .mk ha hb hc hd, rfl, hhalts⟩
  · intro h
    obtain ⟨front, a, b, c, d, rfl, hfront, rfl, hhalts⟩ := h
    exact ⟨_, rfl, _, _, ⟨front, rfl, hfront, hhalts⟩, rfl⟩

/-! ## What follows groups -/

/-- What may follow groups. -/
inductive Closes : List Char → Prop
  | colons (rest : List Char) : Closes (':' :: ':' :: rest)
  | scope (rest : List Char) : Closes ('%' :: rest)
  | bracket (rest : List Char) : Closes (']' :: rest)

/-- Neither in front of what follows groups nor behind its first colon is there a digit. -/
theorem Closes.hexValue?_eq_none {first : Bool} {c : Char} {k cs : List Char} (h : Closes k)
    (hk : k = colon first ++ c :: cs) : Text.hexValue? c = none := by
  cases first with
  | true =>
    -- it is the first character
    have hc : c = ':' ∨ c = '%' ∨ c = ']' := by
      cases h with
      | colons rest => exact .inl (List.cons.inj hk).1.symm
      | scope rest => exact .inr (.inl (List.cons.inj hk).1.symm)
      | bracket rest => exact .inr (.inr (List.cons.inj hk).1.symm)
    rcases hc with rfl | rfl | rfl <;> decide
  | false =>
    -- there is a colon in front of it, and it is the second
    have hc : c = ':' := by
      cases h with
      | colons rest => exact (List.cons.inj (List.cons.inj hk).2).1.symm
      | scope rest => exact absurd (List.cons.inj hk).1 (by decide)
      | bracket rest => exact absurd (List.cons.inj hk).1 (by decide)
    subst hc
    decide

theorem hexValue?_of_mem_group {g : Nat} {c : Char} {cs : List Char} (h : IsGroup g cs)
    (hc : c ∈ cs) : (Text.hexValue? c).isSome = true := by
  obtain ⟨ds, hds, -⟩ := h
  exact (Text.filterMap_of_marks @Text.hexValue?_eq_some_iff hds).2 c hc

theorem hexValue?_of_mem_chars {n : Nat} {c : Char} (hc : c ∈ Decimal.chars n) :
    (Text.hexValue? c).isSome = true := by
  have hdigit : ∀ d : Digit, (Text.hexValue? d.char).isSome = true := by decide
  obtain ⟨d, -, rfl⟩ := List.mem_map.mp hc
  exact hdigit d

theorem IsGroup.exists_cons {g : Nat} {cs : List Char} (h : IsGroup g cs) :
    ∃ c rest, cs = c :: rest := by
  obtain ⟨ds, hds, -, hdenotes⟩ := h
  refine List.exists_cons_of_ne_nil ?_
  intro hcs
  rw [hcs] at hds
  exact (denotes_iff.mp hdenotes).1 (List.map_eq_nil_iff.mp hds.symm)

theorem exists_chars_eq_cons (n : Nat) : ∃ c rest, Decimal.chars n = c :: rest := by
  refine List.exists_cons_of_ne_nil ?_
  intro h
  exact Decimal.digits_ne_nil n (List.map_eq_nil_iff.mp h)

/-- Nothing of what follows groups is taken for a group. -/
theorem Closes.takeGroup_eq_none {k : List Char} (hk : Closes k) (index : Nat) :
    (takeSeparator ':' index k).bind takeGroup = none := by
  rw [Option.eq_none_iff_forall_ne_some]
  intro p hp
  obtain ⟨g, rest⟩ := p
  obtain ⟨_, hseparator, hgroup⟩ := Option.bind_eq_some_iff.mp hp
  obtain ⟨front, rfl, hfront, -⟩ := takeGroup_eq_some_iff.mp hgroup
  obtain ⟨c, cs, rfl⟩ := hfront.exists_cons
  have hnone := hk.hexValue?_eq_none (takeSeparator_eq_some_iff.mp hseparator)
  have hsome := hexValue?_of_mem_group hfront (List.mem_cons_self ..)
  rw [hnone] at hsome
  cases hsome

/-- Nothing of what follows groups is taken for a version 4 address. -/
theorem Closes.takeEmbedded_eq_none {k : List Char} (hk : Closes k) (index : Nat) :
    takeEmbedded index k = none := by
  rw [Option.eq_none_iff_forall_ne_some]
  intro p hp
  obtain ⟨gs, rest⟩ := p
  obtain ⟨front, a, b, c, d, hcs, hfront, -, -⟩ := takeEmbedded_eq_some_iff.mp hp
  cases hfront with
  | mk ha hb hc hd =>
    obtain ⟨e, es, he⟩ := exists_chars_eq_cons a
    have hsome := hexValue?_of_mem_chars (n := a) (by rw [he]; exact List.mem_cons_self ..)
    rw [he] at hcs
    have hnone := hk.hexValue?_eq_none hcs
    rw [hnone] at hsome
    cases hsome

/-- What comes after a group goes on neither with a digit nor with a point. -/
theorem IsGroups.exists_cons {gs : List Nat} {dotted : Bool} {rest k : List Char}
    (h : IsGroups false gs dotted rest) (hk : Closes k) :
    ∃ c cs, rest ++ k = c :: cs ∧ Text.hexValue? c = none ∧ c ≠ '.' := by
  cases h with
  | nil =>
    cases hk with
    | colons rest => exact ⟨':', _, rfl, by decide, by decide⟩
    | scope rest => exact ⟨'%', _, rfl, by decide, by decide⟩
    | bracket rest => exact ⟨']', _, rfl, by decide, by decide⟩
  | cons hg hgs => exact ⟨':', _, rfl, by decide, by decide⟩
  | dotted h => exact ⟨':', _, rfl, by decide, by decide⟩

/-- A group that is not followed by a point is not taken for a version 4 address. -/
theorem IsGroup.takeEmbedded_eq_none {index g : Nat} {cs rest : List Char} {c : Char}
    (h : IsGroup g cs) (hc : Text.hexValue? c = none) (hpoint : c ≠ '.') :
    takeEmbedded index (colon (index == 0) ++ (cs ++ c :: rest)) = none := by
  rw [Option.eq_none_iff_forall_ne_some]
  intro p hp
  obtain ⟨gs, rest'⟩ := p
  obtain ⟨front, a, b, c', d, hcs, hfront, -, -⟩ := takeEmbedded_eq_some_iff.mp hp
  cases hfront with
  | mk ha hb hc' hd =>
    -- behind the digits there is a point in the one reading and none in the other
    have hsame := congrArg (List.dropWhile fun c => (Text.hexValue? c).isSome)
      (List.append_cancel_left hcs)
    rw [List.dropWhile_append_of_pos fun _ => hexValue?_of_mem_group h, List.append_assoc,
      List.dropWhile_append_of_pos fun _ => hexValue?_of_mem_chars,
      List.dropWhile_cons_of_neg (by simp [hc]), List.cons_append,
      List.dropWhile_cons_of_neg (by decide)] at hsame
    exact hpoint (List.cons.inj hsame).1

/-! ## Version 6 -/

/-- What is taken is groups. -/
theorem isGroups_of_takeGroups {left index : Nat} {cs rest : List Char} {gs : List Nat}
    {dotted : Bool} (h : takeGroups left index cs = (gs, dotted, rest)) :
    gs.length ≤ left ∧ ∃ front, cs = front ++ rest ∧ IsGroups (index == 0) gs dotted front := by
  -- on the room that is left, as the reader goes on
  induction left generalizing index cs gs with
  | zero =>
    cases h
    exact ⟨Nat.le_refl 0, [], rfl, .nil _⟩
  | succ left ih =>
    rw [takeGroups] at h
    dsimp only at h
    split at h
    · -- the last two groups are dotted
      rename_i groups rest' hembedded
      cases h
      split at hembedded
      · cases hembedded
      · obtain ⟨front, a, b, c, d, rfl, hfront, rfl, -⟩ := takeEmbedded_eq_some_iff.mp hembedded
        refine ⟨?_, colon (index == 0) ++ front, (List.append_assoc ..).symm, .dotted hfront⟩
        show 2 ≤ left + 1
        omega
    · split at h
      · -- there is none
        cases h
        exact ⟨Nat.zero_le _, [], rfl, .nil _⟩
      · rename_i g rest' hgroup
        obtain ⟨_, hseparator, hg⟩ := Option.bind_eq_some_iff.mp hgroup
        obtain ⟨front, rfl, hfront, -⟩ := takeGroup_eq_some_iff.mp hg
        obtain rfl := takeSeparator_eq_some_iff.mp hseparator
        cases htail : takeGroups left (index + 1) rest' with
        | mk tail p =>
          obtain ⟨dotted', rest''⟩ := p
          rw [htail] at h
          cases h
          obtain ⟨hlength, back, rfl, hback⟩ := ih htail
          refine ⟨Nat.succ_le_succ hlength, colon (index == 0) ++ (front ++ back), ?_,
            .cons hfront hback⟩
          simp only [List.append_assoc]

/-- Groups are taken, up to what may follow them. -/
theorem takeGroups_of_isGroups {first dotted : Bool} {gs : List Nat} {front k : List Char}
    (h : IsGroups first gs dotted front) (hk : Closes k) {left index : Nat}
    (hindex : (index == 0) = first) (hle : gs.length ≤ left) :
    takeGroups left index (front ++ k) = (gs, dotted, k) := by
  -- on the groups; there is room for those to come, however many were before
  induction h generalizing left index with
  | nil first =>
    cases left with
    | zero => rfl
    | succ left =>
      rw [List.nil_append, takeGroups]
      simp only [hk.takeEmbedded_eq_none, hk.takeGroup_eq_none, ite_self]
  | @cons first dotted g gs cs rest hg hgs ih =>
    cases left with
    | zero => cases hle
    | succ left =>
      subst hindex
      -- a version 4 address is looked for first, and no point follows the digits
      obtain ⟨c, cs', hrest, hhex, hpoint⟩ := hgs.exists_cons hk
      have hgroup : (takeSeparator ':' index (colon (index == 0) ++ (cs ++ (rest ++ k)))).bind
          takeGroup = some (g, rest ++ k) := by
        refine Option.bind_eq_some_iff.mpr ⟨_, takeSeparator_eq_some_iff.mpr rfl, ?_⟩
        exact takeGroup_eq_some_iff.mpr ⟨cs, rfl, hg, hrest ▸ halts_cons hhex cs'⟩
      have hembedded : takeEmbedded index (colon (index == 0) ++ (cs ++ (rest ++ k))) = none := by
        rw [hrest]
        exact hg.takeEmbedded_eq_none hhex hpoint
      have htail : takeGroups left (index + 1) (rest ++ k) = (gs, dotted, k) :=
        ih rfl (Nat.le_of_succ_le_succ hle)
      rw [List.append_assoc, List.append_assoc, takeGroups]
      simp only [hembedded, hgroup, htail, ite_self]
  | @dotted first a b c d cs h =>
    subst hindex
    -- there is room for its two groups, so it is looked for
    obtain ⟨left, rfl⟩ : ∃ l, left = l + 2 := ⟨left - 2, by
      have : 2 ≤ left := hle
      omega⟩
    have hhalts : Halts Decimal.digit? k := by
      cases hk with
      | colons rest => exact halts_cons (by decide) _
      | scope rest => exact halts_cons (by decide) _
      | bracket rest => exact halts_cons (by decide) _
    have hembedded : takeEmbedded index (colon (index == 0) ++ (cs ++ k)) =
        some ([256 * a + b, 256 * c + d], k) :=
      takeEmbedded_eq_some_iff.mpr ⟨cs, a, b, c, d, rfl, h, rfl, hhalts⟩
    rw [List.append_assoc, takeGroups]
    simp only [hembedded, Nat.succ_ne_zero, if_false]

/-- What is taken is eight groups. -/
theorem isV6_of_takeV6 {gs : List Nat} {cs rest : List Char} (h : takeV6 cs = some (gs, rest)) :
    ∃ front, cs = front ++ rest ∧ IsV6 gs front := by
  unfold takeV6 at h
  cases hhead : takeGroups 8 0 cs with
  | mk head p =>
    obtain ⟨dotted, rest'⟩ := p
    rw [hhead] at h
    obtain ⟨hle, front, rfl, hfront⟩ := isGroups_of_takeGroups hhead
    dsimp only at h
    split at h
    · rename_i hlength
      cases h
      exact ⟨front, rfl, .whole hfront hlength⟩
    · rename_i hlength
      split at h
      · cases h
      · rename_i hdotted
        obtain rfl : dotted = false := Bool.eq_false_iff.mpr hdotted
        simp only [Option.bind_eq_bind, Option.bind_eq_some_iff, takeChar_eq_some_iff] at h
        obtain ⟨_, rfl, behind, rfl, h⟩ := h
        -- behind the two colons there is room for all groups but those in front and one zero
        cases htail : takeGroups (7 - head.length) 0 behind with
        | mk tail q =>
          obtain ⟨dotted', rest''⟩ := q
          simp only [htail] at h
          cases h
          obtain ⟨hle', back, rfl, hback⟩ := isGroups_of_takeGroups htail
          exact ⟨front ++ ':' :: ':' :: back, by simp, .short hfront hback (by omega)⟩

/-- Eight groups are taken, up to what may follow them. -/
theorem takeV6_of_isV6 {gs : List Nat} {front k : List Char} (h : IsV6 gs front) (hk : Closes k) :
    takeV6 (front ++ k) = some (gs, k) := by
  unfold takeV6
  cases h with
  | whole h hlength =>
    rw [takeGroups_of_isGroups h hk rfl (Nat.le_of_eq hlength)]
    simp only [hlength, if_true]
    rfl
  | @short head tail dotted front back hhead htail hlength =>
    have hfront : takeGroups 8 0 (front ++ ':' :: ':' :: (back ++ k)) =
        (head, false, ':' :: ':' :: (back ++ k)) :=
      takeGroups_of_isGroups hhead (.colons (back ++ k)) rfl (by omega)
    have hback : takeGroups (7 - head.length) 0 (back ++ k) = (tail, dotted, k) :=
      takeGroups_of_isGroups htail hk rfl (by omega)
    have hne : head.length ≠ 8 := by omega
    rw [List.append_assoc, List.cons_append, List.cons_append, hfront]
    simp only [hne, if_false, Bool.false_eq_true, takeChar, if_true, Option.bind_eq_bind,
      Option.bind_some, hback]
    rfl

/-! ## Addresses -/

theorem takeScope_eq_iff {scope : Nat} {cs rest : List Char} :
    takeScope cs = (scope, ']' :: rest) ↔
      ∃ zone, cs = zone ++ ']' :: rest ∧ IsScope scope zone := by
  constructor
  · intro h
    unfold takeScope at h
    cases hread : (takeChar '%' cs).bind (takeNumber (Nat.pow 2 32)) with
    | none =>
      rw [hread] at h
      cases h
      exact ⟨[], rfl, .none⟩
    | some p =>
      rw [hread] at h
      cases h
      obtain ⟨_, hpercent, hnumber⟩ := Option.bind_eq_some_iff.mp hread
      obtain rfl := takeChar_eq_some_iff.mp hpercent
      obtain ⟨digits, rfl, hspells, hbound, -⟩ := takeNumber_eq_some_iff.mp hnumber
      exact ⟨'%' :: digits, rfl, .some hspells hbound⟩
  · intro h
    obtain ⟨zone, rfl, hzone⟩ := h
    cases hzone with
    | none => rfl
    | @some _ digits hspells hbound =>
      have hnumber : takeNumber (Nat.pow 2 32) (digits ++ ']' :: rest) = some (scope, ']' :: rest) :=
        takeNumber_eq_some_iff.mpr ⟨digits, rfl, hspells, hbound, halts_cons (by decide) rest⟩
      rw [takeScope, List.cons_append, takeChar, if_pos rfl, Option.bind_some, hnumber]
      rfl

theorem readV6?_eq_some_iff {a : SocketAddress} {cs : List Char} :
    readV6? cs = some a ↔ ∃ groups scope port host zone tail, a = v6 groups scope port ∧
      cs = '[' :: (host ++ (zone ++ ']' :: tail)) ∧ IsV6 groups host ∧ IsScope scope zone ∧
      IsPort port tail := by
  constructor
  · intro h
    simp only [readV6?, Option.bind_eq_bind, Option.bind_eq_some_iff, Prod.exists,
      takeChar_eq_some_iff, takePort_eq_some_iff] at h
    obtain ⟨_, rfl, groups, rest, hhost, _, hbracket, port, rest', ⟨tail, rfl, hport, -⟩, h⟩ := h
    obtain ⟨host, rfl, hgroups⟩ := isV6_of_takeV6 hhost
    obtain ⟨zone, rfl, hzone⟩ := takeScope_eq_iff.mp (Prod.ext rfl hbracket)
    split at h
    · rename_i hrest
      cases h
      refine ⟨groups, _, port, host, zone, tail, rfl, ?_, hgroups, hzone, hport⟩
      rw [List.isEmpty_iff.mp hrest, List.append_nil]
    · cases h
  · intro h
    obtain ⟨groups, scope, port, host, zone, tail, rfl, rfl, hgroups, hzone, hport⟩ := h
    have hcloses : Closes (zone ++ ']' :: tail) := by
      cases hzone with
      | none => exact .bracket tail
      | some hspells hbound => exact .scope _
    have hhost := takeV6_of_isV6 hgroups hcloses
    have hscope : takeScope (zone ++ ']' :: tail) = (scope, ']' :: tail) :=
      takeScope_eq_iff.mpr ⟨zone, rfl, hzone⟩
    have hend : takePort tail = some (port, []) :=
      takePort_eq_some_iff.mpr ⟨tail, (List.append_nil tail).symm, hport, halts_nil⟩
    simp only [readV6?, takeChar, if_true, Option.bind_eq_bind, Option.bind_some, hhost, hscope,
      hend]
    rfl

/-- A text of a version 4 address begins with a digit, not with a bracket. -/
theorem readV4?_bracket (cs : List Char) : readV4? ('[' :: cs) = none := rfl

/-- **The reader takes the texts of an address and nothing else.** -/
theorem parse?_eq_some_iff {s : String} {a : SocketAddress} : parse? s = some a ↔ a.Spelled s := by
  rw [parse?, Spelled, Option.or_eq_some_iff, readV4?_eq_some_iff, readV6?_eq_some_iff]
  constructor
  · intro h
    rcases h with ⟨octets, port, host, tail, rfl, hs, hhost, hport⟩ |
      ⟨-, groups, scope, port, host, zone, tail, rfl, hs, hhost, hzone, hport⟩
    · rw [hs]
      exact .v4 hhost hport
    · rw [hs]
      exact .v6 hhost hzone hport
  · intro h
    generalize s.toList = cs at h ⊢
    -- the first reader stops at the bracket, so it does not keep the second from its address
    cases h with
    | v4 hhost hport => exact .inl ⟨_, _, _, _, rfl, rfl, hhost, hport⟩
    | v6 hhost hzone hport =>
      exact .inr ⟨readV4?_bracket _, _, _, _, _, _, _, rfl, rfl, hhost, hzone, hport⟩

/-- Letters in either case, numbers with dots, a scope, and a port with a zero in front. -/
example : parse? "[::FFff:1.2.3.4%7]:0080" =
    some (.v6 [0, 0, 0, 0, 0, 0xFFFF, 0x102, 0x304] 7 80) := by decide +kernel

end UserDirectory.Config.SocketAddress
