import UserDirectory.Json.Codec
import UserDirectory.Proofs.Json.Tree

/-!
# Values that their documents give back

A value is *faithful* if the tree that it is written as is well formed and is read as the value
itself. Then the whole way through octets gives it back: `Faithful.decode_encode`.

A record is written from a list of its fields, some of which may be without a tree and are left
out (`Record`). What a reader finds in the document of a record is said once here, by name:
`ofTree?_members`, `required_fields`, `optional_fields`. A type of records then only has to list its
fields.
-/

namespace UserDirectory.Json

/-- A value whose tree is well formed and is read as the value. -/
structure Faithful {α : Type} [ToTree α] [OfTree α] (a : α) : Prop where
  wellFormed : (toTree a).WellFormed
  ofTree?_toTree : ∀ room, ofTree? room (toTree a) = some a

/-- The types all of whose values are faithful. -/
class Lawful (α : Type) [ToTree α] [OfTree α] : Prop where
  faithful : ∀ a : α, Faithful a

/-- The types none of whose values is written as null. -/
class NeverNull (α : Type) [ToTree α] : Prop where
  toTree_ne_null : ∀ a : α, toTree a ≠ .null

export Lawful (faithful)
export NeverNull (toTree_ne_null)

/-- **The document of a faithful value gives it back.** -/
theorem Faithful.decode_encode {α : Type} [ToTree α] [OfTree α] {a : α} (h : Faithful a) :
    decode (encode a) = some a := by
  rw [decode, encode, Tree.read?_text h.wellFormed, Option.bind_some, h.ofTree?_toTree]

/-! ## Plain types -/

instance : Lawful String :=
  ⟨fun s => ⟨Quoted.closed_escape s, fun _ => Quoted.text?_escape s⟩⟩

instance : NeverNull String := ⟨fun _ h => nomatch h⟩

instance : Lawful Bool := ⟨fun _ => ⟨trivial, fun _ => rfl⟩⟩

/-- What is not null is read as a value that is there. -/
theorem ofTree?_option {α : Type} [OfTree α] {t : Tree} (h : t ≠ .null) (room : Nat) :
    (ofTree? room t : Option (Option α)) = (ofTree? room t).map some := by
  cases t with
  | null => exact absurd rfl h
  | _ => rfl

instance {α : Type} [ToTree α] [OfTree α] [Lawful α] [NeverNull α] : Lawful (Option α) := by
  refine ⟨fun a => ?_⟩
  cases a with
  | none => exact ⟨trivial, fun _ => rfl⟩
  | some a =>
    refine ⟨(faithful a).wellFormed, fun room => ?_⟩
    show ofTree? room (toTree a) = some (some a)
    rw [ofTree?_option (toTree_ne_null a), (faithful a).ofTree?_toTree, Option.map_some]

/-- A list of faithful values is faithful. -/
theorem faithful_list {α : Type} [ToTree α] [OfTree α] {as : List α} (h : ∀ a ∈ as, Faithful a) :
    Faithful as := by
  refine ⟨?_, fun room => ?_⟩
  · show Tree.ItemsWellFormed (as.map toTree)
    rw [Tree.itemsWellFormed_iff]
    intro t ht
    obtain ⟨a, ha, rfl⟩ := List.mem_map.mp ht
    exact (h a ha).wellFormed
  · show (as.map toTree).mapM (ofTree? (room - 1)) = some as
    induction as with
    | nil => rfl
    | cons a as ih =>
      have hrest := ih fun a' ha' => h a' (List.mem_cons_of_mem _ ha')
      simp only [List.map_cons, List.mapM_cons, (h a List.mem_cons_self).ofTree?_toTree, hrest]
      rfl

instance {α : Type} [ToTree α] [OfTree α] [Lawful α] : Lawful (List α) :=
  ⟨fun _ => faithful_list fun a _ => faithful a⟩

instance {α : Type} [ToTree α] : NeverNull (List α) := ⟨fun _ h => nomatch h⟩

/-! ## Records -/

/-- The fields of a record that is being written; those without a tree are left out. -/
abbrev Record := List (String × Option Tree)

namespace Record

/-- The members that are written. -/
def members (r : Record) : List (Octets × Tree) :=
  r.filterMap fun e => e.2.map (Quoted.escape e.1, ·)

/-- The fields that are found when the members are read. -/
def fields (r : Record) : Fields := r.filterMap fun e => e.2.map (e.1, ·)

/-- The names of the fields, present or not. -/
def names (r : Record) : List String := r.map Prod.fst

theorem members_append (r r' : Record) : members (r ++ r') = r.members ++ r'.members :=
  List.filterMap_append

theorem member_eq {α : Type} [ToTree α] (name : String) (a : α) :
    Json.member name a = members [(name, some (toTree a))] := rfl

theorem optionalMember_eq {α : Type} [ToTree α] (name : String) (a? : Option α) :
    Json.optionalMember name a? = members [(name, a?.map toTree)] := by
  cases a? <;> rfl

/-- A record whose trees are all well formed. -/
inductive WellFormed : Record → Prop
  | nil : WellFormed []
  | required {α : Type} [ToTree α] [OfTree α] {name : String} {a : α} {r : Record} :
      Faithful a → WellFormed r → WellFormed ((name, some (toTree a)) :: r)
  | optional {α : Type} [ToTree α] [OfTree α] {name : String} {a? : Option α} {r : Record} :
      (∀ a ∈ a?, Faithful a) → WellFormed r → WellFormed ((name, a?.map toTree) :: r)

theorem WellFormed.membersWellFormed {r : Record} (h : r.WellFormed) :
    Tree.MembersWellFormed r.members := by
  induction h with
  | nil => trivial
  | @required α _ _ name a r ha _ ih => exact ⟨Quoted.closed_escape name, ha.wellFormed, ih⟩
  | @optional α _ _ name a? r ha _ ih =>
    cases a? with
    | none => exact ih
    | some a => exact ⟨Quoted.closed_escape name, (ha a rfl).wellFormed, ih⟩

theorem ofMembers?_members (r : Record) : Fields.ofMembers? r.members = some r.fields := by
  induction r with
  | nil => rfl
  | cons e r ih =>
    obtain ⟨name, t?⟩ := e
    cases t? with
    | none => exact ih
    | some t =>
      show List.mapM _ ((Quoted.escape name, t) :: members r) = some ((name, t) :: fields r)
      unfold Fields.ofMembers? at ih
      simp only [List.mapM_cons, ih, Quoted.text?_escape, Option.map_some]
      rfl

theorem map_fst_fields_sublist (r : Record) : (r.fields.map Prod.fst).Sublist r.names := by
  induction r with
  | nil => exact .slnil
  | cons e r ih =>
    obtain ⟨name, t?⟩ := e
    cases t? with
    | none => exact ih.cons name
    | some t => exact ih.cons_cons name

theorem filter_fields (r : Record) (p : String → Bool) :
    r.fields.filter (fun m => p m.1) = fields (r.filter fun e => p e.1) := by
  induction r with
  | nil => rfl
  | cons e r ih =>
    obtain ⟨name, t?⟩ := e
    cases t? with
    | none => cases h : p name <;> simpa [fields, h] using ih
    | some t => cases h : p name <;> simpa [fields, h] using ih

/-- No field of a record occurs twice, so those with known names are found. -/
theorem known?_fields {r : Record} (h : r.names.Nodup) (known : List String) :
    Fields.known? known r.fields = some (fields (r.filter fun e => known.contains e.1)) := by
  -- both leaving out fields and keeping only known ones give a sublist of the names
  have hnodup : ((fields (r.filter fun e => known.contains e.1)).map Prod.fst).Nodup :=
    (h.sublist (List.filter_sublist.map Prod.fst)).sublist (map_fst_fields_sublist _)
  rw [Fields.known?, filter_fields, if_pos hnodup]

theorem known?_names {r : Record} (h : r.names.Nodup) :
    Fields.known? r.names r.fields = some r.fields := by
  have hall : r.filter (fun e => r.names.contains e.1) = r := by
    rw [List.filter_eq_self]
    intro e he
    rw [List.contains_iff_mem]
    exact List.mem_map_of_mem he
  rw [known?_fields h, hall]

/-- The document of a record shows its fields to a reader who knows their names. -/
theorem ofTree?_members {r : Record} (h : r.names.Nodup) :
    Fields.ofTree? r.names (.object r.members) = some r.fields := by
  rw [Fields.ofTree?, ofMembers?_members, Option.bind_some, known?_names h]

theorem lookup_fields {r : Record} (h : r.names.Nodup) {name : String} {t? : Option Tree}
    (hmem : (name, t?) ∈ r) : r.fields.lookup name = t? := by
  induction r with
  | nil => exact absurd hmem (by simp)
  | cons e r ih =>
    obtain ⟨name', t'?⟩ := e
    obtain ⟨hfirst, hrest⟩ := List.nodup_cons.mp h
    rcases List.mem_cons.mp hmem with heq | htail
    · obtain ⟨rfl, rfl⟩ := Prod.mk.injEq .. ▸ heq
      cases t? with
      | none =>
        -- the name of a field that is left out does not occur later
        show (fields r).lookup name = none
        rw [List.lookup_eq_none_iff]
        intro m hm
        have hm' := (map_fst_fields_sublist r).subset (List.mem_map_of_mem hm)
        simp only [bne_iff_ne, ne_eq]
        exact fun hne => hfirst (hne ▸ hm')
      | some t => simp [fields]
    · have hne : name ≠ name' := by
        rintro rfl
        exact hfirst (List.mem_map.mpr ⟨(name, t?), htail, rfl⟩)
      have ih := ih hrest htail
      cases t'? with
      | none => exact ih
      | some t' =>
        show ((name', t') :: fields r).lookup name = t?
        rw [List.lookup_cons, beq_false_of_ne hne]
        exact ih

theorem required_fields {α : Type} [ToTree α] [OfTree α] {r : Record} (h : r.names.Nodup)
    (name : String) (a : α) (ha : Faithful a) (hmem : (name, some (toTree a)) ∈ r) (room : Nat) :
    r.fields.required room name = some a := by
  rw [Fields.required, lookup_fields h hmem, Option.bind_some, ha.ofTree?_toTree]

/-- An optional field is found as it was written, unless it was written as null. -/
theorem optional_fields_of_ne_null {α : Type} [ToTree α] [OfTree α] {r : Record}
    (h : r.names.Nodup) (name : String) (a? : Option α) (hnull : ∀ a ∈ a?, toTree a ≠ .null)
    (ha : ∀ a ∈ a?, Faithful a) (hmem : (name, a?.map toTree) ∈ r) (room : Nat) :
    r.fields.optional room name = some a? := by
  rw [Fields.optional, Fields.withDefault, lookup_fields h hmem]
  cases a? with
  | none => rfl
  | some a =>
    show ofTree? room (toTree a) = some (some a)
    rw [ofTree?_option (hnull a rfl), (ha a rfl).ofTree?_toTree, Option.map_some]

theorem optional_fields {α : Type} [ToTree α] [OfTree α] [NeverNull α] {r : Record}
    (h : r.names.Nodup) (name : String) (a? : Option α) (ha : ∀ a ∈ a?, Faithful a)
    (hmem : (name, a?.map toTree) ∈ r) (room : Nat) :
    r.fields.optional room name = some a? :=
  optional_fields_of_ne_null h name a? (fun a _ => toTree_ne_null a) ha hmem room

theorem ofTree?_member {α : Type} [ToTree α] (name : String) (a : α) :
    Fields.ofTree? [name] (.object (Json.member name a)) = some [(name, toTree a)] := by
  have h : (names [(name, some (toTree a))]).Nodup := by simp [names]
  exact ofTree?_members h

theorem required_singleton {α : Type} [ToTree α] [OfTree α] [Lawful α] (name : String) (a : α)
    (room : Nat) : Fields.required [(name, toTree a)] room name = some a := by
  rw [Fields.required, List.lookup_cons_self, Option.bind_some, (faithful a).ofTree?_toTree]

theorem membersWellFormed_member {α : Type} [ToTree α] [OfTree α] [Lawful α] (name : String)
    (a : α) : Tree.MembersWellFormed (Json.member name a) :=
  ⟨Quoted.closed_escape name, (faithful a).wellFormed, trivial⟩

end Record

end UserDirectory.Json
