import UserDirectory.Proofs.Envelope
import UserDirectory.Proofs.Json.Finite
import UserDirectory.Proofs.Json.Shape

/-!
# What is kept of a document

A kept value is written as a document of the grammar (`wellFormed_toTree`), and what is written can
be kept again (`isSome_ofTree?_toTree`). Between the two stands the order of the members: those of
a kept object are sorted by key. If no key was there twice, they are only brought into another
order (`foldl_insert_perm`), so whoever looks a member up finds what was kept of the one with that
key (`kept_lookup`).
-/

namespace UserDirectory.Json

open Fields (spelled spelled_cons)

namespace Value

/-! ## Kept values as documents -/

theorem memberTrees_eq (ms : List (String × Value)) :
    memberTrees ms = ms.map fun m => (Quoted.escape m.1, m.2.toTree) := by
  induction ms with
  | nil => rfl
  | cons m ms ih => rw [memberTrees, ih, List.map_cons]

theorem itemTrees_eq (vs : List Value) : itemTrees vs = vs.map toTree := by
  induction vs with
  | nil => rfl
  | cons v vs ih => rw [itemTrees, ih, List.map_cons]

theorem wellFormed_ofNumber (x : Number) : (Numeral.ofNumber x).WellFormed := by
  cases x with
  | natural n => exact Numeral.wellFormed_ofInt n
  | negative n =>
    exact ⟨Decimal.digits_ne_nil _, fun _ h => Decimal.eq_nil_of_digits_eq h, nofun, nofun⟩
  | real r => exact Numeral.wellFormed_ofReal r

mutual

/-- **A kept value is written as a document of the grammar.** -/
theorem wellFormed_toTree : ∀ v : Value, v.toTree.WellFormed
  | null => trivial
  | bool _ => trivial
  | number x => wellFormed_ofNumber x
  | string s => Quoted.closed_escape s
  | array items => wellFormed_itemTrees items
  | object members => wellFormed_memberTrees members

theorem wellFormed_itemTrees : ∀ vs : List Value, Tree.ItemsWellFormed (itemTrees vs)
  | [] => trivial
  | v :: vs => ⟨wellFormed_toTree v, wellFormed_itemTrees vs⟩

theorem wellFormed_memberTrees : ∀ ms : List (String × Value),
    Tree.MembersWellFormed (memberTrees ms)
  | [] => trivial
  | (key, v) :: ms =>
    ⟨Quoted.closed_escape key, wellFormed_toTree v, wellFormed_memberTrees ms⟩

end

/-! ## Members in order -/

theorem mem_of_mem_insert {key : String} {v : Value} {ms : List (String × Value)}
    {m : String × Value} (h : m ∈ insert key v ms) : m = (key, v) ∨ m ∈ ms := by
  induction ms with
  | nil => exact .inl (List.mem_singleton.mp h)
  | cons n ms ih =>
    obtain ⟨k, w⟩ := n
    rw [insert] at h
    split at h
    · exact List.mem_cons.mp h
    split at h
    · rcases List.mem_cons.mp h with h | h
      · exact .inl h
      · exact .inr (List.mem_cons_of_mem _ h)
    · rcases List.mem_cons.mp h with rfl | h
      · exact .inr List.mem_cons_self
      · exact (ih h).imp_right (List.mem_cons_of_mem _)

theorem insert_perm {key : String} {ms : List (String × Value)} (h : key ∉ ms.map Prod.fst)
    (v : Value) : (insert key v ms).Perm ((key, v) :: ms) := by
  induction ms with
  | nil => exact .refl _
  | cons m ms ih =>
    obtain ⟨k, w⟩ := m
    rw [List.map_cons, List.mem_cons, not_or] at h
    rw [insert, if_neg h.1]
    split
    · exact .refl _
    · exact ((ih h.2).cons _).trans (.swap ..)

theorem mem_of_mem_foldl {ms kept : List (String × Value)} {m : String × Value}
    (h : m ∈ ms.foldl (fun kept m => insert m.1 m.2 kept) kept) : m ∈ ms ∨ m ∈ kept := by
  induction ms generalizing kept with
  | nil => exact .inr h
  | cons n ms ih =>
    rcases ih h with h | h
    · exact .inl (List.mem_cons_of_mem _ h)
    · exact (mem_of_mem_insert h).imp_left fun h => List.mem_cons.mpr (.inl h)

theorem foldl_insert_perm {ms kept : List (String × Value)}
    (h : ((ms ++ kept).map Prod.fst).Nodup) :
    (ms.foldl (fun kept m => insert m.1 m.2 kept) kept).Perm (ms ++ kept) := by
  induction ms generalizing kept with
  | nil => exact .refl _
  | cons m ms ih =>
    obtain ⟨key, v⟩ := m
    have hfirst : (ms ++ (key, v) :: kept).Perm ((key, v) :: (ms ++ kept)) := List.perm_middle
    have hnew : key ∉ kept.map Prod.fst := by
      intro hmem
      have := (List.nodup_cons.mp h).1
      exact this (List.map_append ▸ List.mem_append_right _ hmem)
    have hinsert := (insert_perm hnew v).append_left ms
    have hnodup : ((ms ++ insert key v kept).map Prod.fst).Nodup :=
      (((hinsert.trans hfirst).map Prod.fst).nodup_iff).mpr h
    exact (ih hnodup).trans (hinsert.trans hfirst)

/-! ## Kept again -/

theorem forall₂_of_mapM {α β : Type} {f : α → Option β} {as : List α} {bs : List β}
    (h : as.mapM f = some bs) : List.Forall₂ (fun a b => f a = some b) as bs := by
  induction as generalizing bs with
  | nil =>
    obtain rfl := Option.some.inj h
    exact .nil
  | cons a as ih =>
    rw [List.mapM_cons] at h
    obtain ⟨b, hb, h⟩ := Option.bind_eq_some_iff.mp h
    obtain ⟨bs, hbs, h⟩ := Option.bind_eq_some_iff.mp h
    obtain rfl := Option.some.inj h
    exact .cons hb (ih hbs)

theorem exists_of_forall₂ {α β : Type} {R : α → β → Prop} {as : List α} {bs : List β}
    (h : List.Forall₂ R as bs) {b : β} (hb : b ∈ bs) : ∃ a ∈ as, R a b := by
  induction h with
  | nil => cases hb
  | cons hab _ ih =>
    rcases List.mem_cons.mp hb with rfl | hb
    · exact ⟨_, List.mem_cons_self, hab⟩
    · obtain ⟨a, ha, hR⟩ := ih hb
      exact ⟨a, List.mem_cons_of_mem _ ha, hR⟩

/-- A member whose key is a text and whose value is kept. -/
def KeptMember (room : Nat) (m : Octets × Tree) (e : String × Value) : Prop :=
  Quoted.text? m.1 = some e.1 ∧ ofTree? room m.2 = some e.2

/-- What is kept of a tree, one case for each kind of tree. -/
inductive KeptAs (room : Nat) : Tree → Value → Prop
  | null : KeptAs room .null .null
  | bool (b : Bool) : KeptAs room (.bool b) (.bool b)
  | number {x : Numeral} {n : Number} (h : x.number? = some n) :
      KeptAs room (.number x) (.number n)
  | string {raw : Octets} {s : String} (h : Quoted.text? raw = some s) :
      KeptAs room (.string raw) (.string s)
  | array {inner : Nat} {items : List Tree} {vs : List Value} (hroom : room = inner + 1)
      (h : List.Forall₂ (fun t v => ofTree? inner t = some v) items vs) :
      KeptAs room (.array items) (.array vs)
  | object {inner : Nat} {ms : List (Octets × Tree)} {read : List (String × Value)}
      (hroom : room = inner + 1) (h : List.Forall₂ (KeptMember inner) ms read) :
      KeptAs room (.object ms) (.object (read.foldl (fun kept m => insert m.1 m.2 kept) []))

theorem keptAs_of_ofTree? {room : Nat} {t : Tree} {v : Value} (h : ofTree? room t = some v) :
    KeptAs room t v := by
  cases t with
  | null =>
    rw [ofTree?] at h
    cases h
    exact .null
  | bool b =>
    rw [ofTree?] at h
    cases h
    exact .bool b
  | number x =>
    rw [ofTree?] at h
    obtain ⟨n, hn, rfl⟩ := Option.map_eq_some_iff.mp h
    exact .number hn
  | string raw =>
    rw [ofTree?] at h
    obtain ⟨s, hs, rfl⟩ := Option.map_eq_some_iff.mp h
    exact .string hs
  | array items =>
    cases room with
    | zero => cases h
    | succ room =>
      rw [ofTree?] at h
      obtain ⟨vs, hvs, rfl⟩ := Option.map_eq_some_iff.mp h
      exact .array rfl (forall₂_of_mapM hvs)
  | object ms =>
    cases room with
    | zero => cases h
    | succ room =>
      rw [ofTree?] at h
      obtain ⟨read, hread, h⟩ := Option.bind_eq_some_iff.mp h
      obtain rfl := Option.some.inj h
      refine .object rfl ((forall₂_of_mapM hread).imp fun m e h => ?_)
      obtain ⟨key, hkey, h⟩ := Option.bind_eq_some_iff.mp h
      obtain ⟨w, hw, h⟩ := Option.bind_eq_some_iff.mp h
      obtain rfl := Option.some.inj h
      exact ⟨hkey, hw⟩

theorem isSome_mapM {α β : Type} {f : α → Option β} {as : List α}
    (h : ∀ a ∈ as, (f a).isSome = true) : (as.mapM f).isSome = true := by
  induction as with
  | nil => rfl
  | cons a as ih =>
    obtain ⟨b, hb⟩ := Option.isSome_iff_exists.mp (h a List.mem_cons_self)
    obtain ⟨bs, hbs⟩ := Option.isSome_iff_exists.mp
      (ih fun a' ha' => h a' (List.mem_cons_of_mem _ ha'))
    rw [List.mapM_cons, hb, hbs]
    rfl

theorem isSome_ofTree?_array {room : Nat} {ts : List Tree}
    (h : ∀ t ∈ ts, (ofTree? room t).isSome = true) :
    (ofTree? (room + 1) (.array ts)).isSome = true := by
  rw [ofTree?, Option.isSome_map]
  exact isSome_mapM h

theorem isSome_ofTree?_object {room : Nat} {ms : List (Octets × Tree)}
    (h : ∀ m ∈ ms, (Quoted.text? m.1).isSome = true ∧ (ofTree? room m.2).isSome = true) :
    (ofTree? (room + 1) (.object ms)).isSome = true := by
  have hread : (ms.mapM fun (key, t) => do
      return (← Quoted.text? key, ← ofTree? room t)).isSome = true := by
    refine isSome_mapM fun m hm => ?_
    obtain ⟨hkey, hvalue⟩ := h m hm
    obtain ⟨key, hkey⟩ := Option.isSome_iff_exists.mp hkey
    obtain ⟨v, hv⟩ := Option.isSome_iff_exists.mp hvalue
    simp only [hkey, hv]
    rfl
  obtain ⟨read, hread⟩ := Option.isSome_iff_exists.mp hread
  rw [ofTree?, hread]
  rfl

theorem of_isSome_ofTree?_object {room : Nat} {ms : List (Octets × Tree)}
    (h : (ofTree? (room + 1) (.object ms)).isSome = true) :
    ∀ m ∈ ms, (Quoted.text? m.1).isSome = true ∧ (ofTree? room m.2).isSome = true := by
  obtain ⟨v, hv⟩ := Option.isSome_iff_exists.mp h
  intro m hm
  cases keptAs_of_ofTree? hv with
  | object hroom hread =>
    obtain rfl := Nat.succ.inj hroom
    obtain ⟨e, -, hkey, hvalue⟩ := exists_of_forall₂ hread.flip hm
    exact ⟨Option.isSome_of_eq_some hkey, Option.isSome_of_eq_some hvalue⟩

theorem isSome_number?_ofNumber {x : Numeral} {n : Number} (h : x.number? = some n) :
    (Numeral.ofNumber n).number?.isSome = true := by
  obtain ⟨i, -, hlow, hhigh, hof⟩ | ⟨r, hr, hof, -⟩ := Numeral.number?_cases h
  · rw [hof]
    exact Numeral.isSome_number?_ofInt hlow hhigh
  · rw [hof, Numeral.number?_ofReal, Option.isSome_map]
    exact Numeral.isSome_real?_ofReal hr

/-- **What was kept can be kept again**, in as much room. -/
theorem isSome_ofTree?_toTree {room : Nat} {t : Tree} {v : Value} (h : ofTree? room t = some v)
    {room' : Nat} (hroom : room ≤ room') : (ofTree? room' v.toTree).isSome = true := by
  induction room using Nat.strongRecOn generalizing t v room' with
  | ind room ih =>
    cases keptAs_of_ofTree? h with
    | null => rw [toTree, ofTree?, Option.isSome_some]
    | bool b => rw [toTree, ofTree?, Option.isSome_some]
    | number hn =>
      rw [toTree, ofTree?, Option.isSome_map]
      exact isSome_number?_ofNumber hn
    | string hs => exact keepable_string _ _
    | @array inner items vs hinner hvs =>
      obtain ⟨k, rfl⟩ : ∃ k, room' = k + 1 := ⟨room' - 1, by omega⟩
      rw [toTree, itemTrees_eq]
      refine isSome_ofTree?_array fun u hu => ?_
      obtain ⟨w, hw, rfl⟩ := List.mem_map.mp hu
      obtain ⟨t, -, ht⟩ := exists_of_forall₂ hvs hw
      exact ih inner (by omega) ht (by omega)
    | @object inner ms read hinner hread =>
      obtain ⟨k, rfl⟩ : ∃ k, room' = k + 1 := ⟨room' - 1, by omega⟩
      rw [toTree, memberTrees_eq]
      refine isSome_ofTree?_object fun u hu => ?_
      obtain ⟨e, he, rfl⟩ := List.mem_map.mp hu
      have hmem : e ∈ read := (mem_of_mem_foldl he).resolve_right List.not_mem_nil
      obtain ⟨m, -, -, hm⟩ := exists_of_forall₂ hread hmem
      exact ⟨by rw [Quoted.text?_escape, Option.isSome_some], ih inner (by omega) hm (by omega)⟩

/-- What can be kept can be kept in more room. -/
theorem isSome_ofTree?_mono {room : Nat} {t : Tree} (h : (ofTree? room t).isSome = true)
    {room' : Nat} (hroom : room ≤ room') : (ofTree? room' t).isSome = true := by
  induction room using Nat.strongRecOn generalizing t room' with
  | ind room ih =>
    obtain ⟨v, hv⟩ := Option.isSome_iff_exists.mp h
    cases keptAs_of_ofTree? hv with
    | null => rw [ofTree?, Option.isSome_some]
    | bool b => rw [ofTree?, Option.isSome_some]
    | number hn => rw [ofTree?, hn, Option.map_some, Option.isSome_some]
    | string hs => rw [ofTree?, hs, Option.map_some, Option.isSome_some]
    | @array inner items vs hinner hvs =>
      obtain ⟨k, rfl⟩ : ∃ k, room' = k + 1 := ⟨room' - 1, by omega⟩
      refine isSome_ofTree?_array fun u hu => ?_
      obtain ⟨w, -, hw⟩ := exists_of_forall₂ hvs.flip hu
      exact ih inner (by omega) (Option.isSome_of_eq_some hw) (by omega)
    | @object inner ms read hinner hread =>
      obtain ⟨k, rfl⟩ : ∃ k, room' = k + 1 := ⟨room' - 1, by omega⟩
      refine isSome_ofTree?_object fun u hu => ?_
      obtain ⟨e, -, hkey, hvalue⟩ := exists_of_forall₂ hread.flip hu
      exact ⟨Option.isSome_of_eq_some hkey,
        ih inner (by omega) (Option.isSome_of_eq_some hvalue) (by omega)⟩

/-! ## Looking up what was kept -/

/-- What is found under a name before and after its member was kept. -/
inductive KeptField (room : Nat) : Option Tree → Option Tree → Prop
  | missing : KeptField room none none
  | kept {t : Tree} {v : Value} (h : ofTree? room t = some v) :
      KeptField room (some t) (some v.toTree)

/-- Kept members with their values as trees. -/
def treesOf (ms : List (String × Value)) : Fields := ms.map fun m => (m.1, m.2.toTree)

theorem map_fst_treesOf (ms : List (String × Value)) :
    (treesOf ms).map Prod.fst = ms.map Prod.fst := by
  rw [treesOf, List.map_map]
  rfl

theorem spelled_memberTrees (ms : List (String × Value)) :
    spelled (memberTrees ms) = treesOf ms := by
  induction ms with
  | nil => rfl
  | cons m ms ih => rw [memberTrees, spelled_cons (Quoted.text?_escape m.1), ih]; rfl

theorem map_fst_spelled {room : Nat} {ms : List (Octets × Tree)} {read : List (String × Value)}
    (h : List.Forall₂ (KeptMember room) ms read) :
    (spelled ms).map Prod.fst = read.map Prod.fst := by
  induction h with
  | nil => rfl
  | cons hm _ ih => rw [spelled_cons hm.1, List.map_cons, ih, List.map_cons]

theorem keptField_lookup {room : Nat} {ms : List (Octets × Tree)} {read : List (String × Value)}
    (h : List.Forall₂ (KeptMember room) ms read) (name : String) :
    KeptField room ((spelled ms).lookup name) ((treesOf read).lookup name) := by
  induction h with
  | nil => exact .missing
  | @cons m e _ _ hm _ ih =>
    rw [spelled_cons hm.1, treesOf, List.map_cons, List.lookup_cons, List.lookup_cons]
    split
    · exact .kept hm.2
    · exact ih

/-- **Whoever looks a member up in what was kept finds what was kept of it**, if no key was there
twice. -/
theorem kept_lookup {room : Nat} {ms : List (Octets × Tree)} {v : Value}
    (h : ofTree? (room + 1) (.object ms) = some v) (hnodup : ((spelled ms).map Prod.fst).Nodup) :
    ∃ ms', v.toTree = .object ms' ∧ (∀ m ∈ ms', (Quoted.text? m.1).isSome = true) ∧
      ((spelled ms').map Prod.fst).Nodup ∧
      ∀ name, KeptField room ((spelled ms).lookup name) ((spelled ms').lookup name) := by
  cases keptAs_of_ofTree? h with
  | @object _ _ read hroom hread =>
    obtain rfl := Nat.succ.inj hroom
    rw [map_fst_spelled hread, ← List.append_nil read] at hnodup
    have hperm := foldl_insert_perm hnodup
    rw [List.append_nil] at hperm hnodup
    generalize read.foldl (fun kept m => insert m.1 m.2 kept) [] = kept at *
    have hnodup' : (kept.map Prod.fst).Nodup := ((hperm.map Prod.fst).nodup_iff).mpr hnodup
    refine ⟨memberTrees kept, rfl, ?_, ?_, fun name => ?_⟩
    · rw [memberTrees_eq, List.forall_mem_map]
      intro m _
      rw [Quoted.text?_escape, Option.isSome_some]
    · rwa [spelled_memberTrees, map_fst_treesOf]
    · have honce : ((treesOf kept).map Prod.fst).count name ≤ 1 := by
        rw [map_fst_treesOf]
        exact List.nodup_iff_count_le_one.mp hnodup' name
      have hsame : (treesOf kept).Perm (treesOf read) := hperm.map _
      rw [spelled_memberTrees, ← Fields.lookup_perm hsame honce]
      exact keptField_lookup hread name

end Value

end UserDirectory.Json
