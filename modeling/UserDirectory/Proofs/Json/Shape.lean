import Mathlib.Data.List.Nodup
import Mathlib.Logic.Relation
import UserDirectory.Proofs.Json.Codec

/-!
# What readers do not notice and what they refuse

A shape says where in the documents of a type the records are, which fields they have, and which of
those must be there. With it one can say what may be done to a document without any reader noticing
(`Alters`): to put the members of an object in another order, to insert one whose key is no field,
to write null for a field that is not there. One can also say what no reader takes (`Broken`): an
object in which a field is twice, or without one that must be there. Both may happen at any depth.

The reader of a record sees the members of an object only through the lookup of its fields. So all
there is to say of a change is that the fields are looked up alike afterwards: `alike_of_alters`,
one lemma for each kind of change. A lookup does not depend on the order of the members because no
field may be there twice (`Fields.lookup_eq_some_iff`).
-/

namespace UserDirectory.Json

/-! ## Shapes -/

/-- How the documents of a type are built, as far as there are records in them. -/
inductive Shape
  /-- there are no records in it -/
  | plain
  | list (item : Shape)
  /-- Each field has a name, whether it must be there, and a shape. If there is a field that stands
  apart, all other members are kept as values of unknown shape before they are looked at. -/
  | record (apart : Option String) (fields : List (String × Bool × Shape))

/-- The fields of a record: their names, whether they must be there, and their shapes. -/
abbrev ShapeFields := List (String × Bool × Shape)

def ShapeFields.names (fields : ShapeFields) : List String := fields.map (·.1)

/-- The members that must be kept as values can be: all but those of the field that stands apart. -/
def Kept (apart : Option String) (room : Nat) (f : Fields) : Prop :=
  ∀ name ∈ apart, ∀ m ∈ f, m.1 ≠ name → (Value.ofTree? (room - 1) m.2).isSome = true

/-- One change that is not noticed in a document which may open `room` levels of containers. A key
is a text, in whatever way it is escaped. -/
inductive Alters : Shape → Nat → Tree → Tree → Prop
  | permuted {apart : Option String} {fields : ShapeFields} {room : Nat}
      {ms ms' : List (Octets × Tree)} (hperm : ms.Perm ms') :
      Alters (.record apart fields) room (.object ms) (.object ms')
  | inserted {apart : Option String} {fields : ShapeFields} {room : Nat}
      {ms : List (Octets × Tree)} {key : Octets} {name : String} {t : Tree}
      (hkey : Quoted.text? key = some name) (hnew : name ∉ fields.names)
      (hkept : apart.isSome = true → (Value.ofTree? (room - 1) t).isSome = true) :
      Alters (.record apart fields) room (.object ms) (.object ((key, t) :: ms))
  | nulled {apart : Option String} {fields : ShapeFields} {room : Nat}
      {ms : List (Octets × Tree)} {key : Octets} {name : String} {s : Shape}
      (hkey : Quoted.text? key = some name) (hfield : (name, false, s) ∈ fields)
      (habsent : ∀ m ∈ ms, Quoted.text? m.1 ≠ some name) :
      Alters (.record apart fields) room (.object ms) (.object ((key, .null) :: ms))
  | field {apart : Option String} {fields : ShapeFields} {room : Nat}
      {pre post : List (Octets × Tree)} {key : Octets} {name : String} {must : Bool} {s : Shape}
      {u u' : Tree} (hkey : Quoted.text? key = some name) (hfield : (name, must, s) ∈ fields)
      (h : Alters s (room - 1) u u') :
      Alters (.record apart fields) room (.object (pre ++ (key, u) :: post))
        (.object (pre ++ (key, u') :: post))
  | item {s : Shape} {room : Nat} {pre post : List Tree} {u u' : Tree}
      (h : Alters s (room - 1) u u') :
      Alters (.list s) room (.array (pre ++ u :: post)) (.array (pre ++ u' :: post))

/-- A document in which a field is twice or one that must be there is missing. -/
inductive Broken : Shape → Tree → Prop
  | repeated {apart : Option String} {fields : ShapeFields} {pre mid post : List (Octets × Tree)}
      {key key' : Octets} {name : String} {u u' : Tree} (hfield : name ∈ fields.names)
      (hkey : Quoted.text? key = some name) (hkey' : Quoted.text? key' = some name) :
      Broken (.record apart fields) (.object (pre ++ (key, u) :: (mid ++ (key', u') :: post)))
  | missing {apart : Option String} {fields : ShapeFields} {ms : List (Octets × Tree)}
      {name : String} {s : Shape} (hfield : (name, true, s) ∈ fields)
      (habsent : ∀ m ∈ ms, Quoted.text? m.1 ≠ some name) :
      Broken (.record apart fields) (.object ms)
  | field {apart : Option String} {fields : ShapeFields} {ms : List (Octets × Tree)}
      {key : Octets} {name : String} {must : Bool} {s : Shape} {u : Tree} (hmem : (key, u) ∈ ms)
      (hkey : Quoted.text? key = some name) (hfield : (name, must, s) ∈ fields) (h : Broken s u) :
      Broken (.record apart fields) (.object ms)
  | item {s : Shape} {items : List Tree} {u : Tree} (hmem : u ∈ items) (h : Broken s u) :
      Broken (.list s) (.array items)

/-- The types whose documents have a shape. -/
class Shaped (α : Type) where
  shape (α) : Shape

export Shaped (shape)

/-! ## What a reader of a record sees -/

namespace Fields

/-- The members whose keys are texts. -/
def spelled (ms : List (Octets × Tree)) : Fields :=
  ms.filterMap fun m => (Quoted.text? m.1).map (·, m.2)

/-- None of the names occurs twice. -/
def Once (names : List String) (f : Fields) : Prop :=
  ∀ name ∈ names, (f.map Prod.fst).count name ≤ 1

/-- Members that are read as a record with fields of these names. -/
def Readable (names : List String) (ms : List (Octets × Tree)) : Prop :=
  (∀ m ∈ ms, (Quoted.text? m.1).isSome = true) ∧ Once names (spelled ms)

theorem spelled_append (ms ms' : List (Octets × Tree)) :
    spelled (ms ++ ms') = spelled ms ++ spelled ms' := List.filterMap_append

theorem spelled_cons {key : Octets} {name : String} (hkey : Quoted.text? key = some name) (t : Tree)
    (ms : List (Octets × Tree)) : spelled ((key, t) :: ms) = (name, t) :: spelled ms := by
  refine List.filterMap_cons_some ?_
  rw [hkey, Option.map_some]

theorem mem_spelled {key : Octets} {name : String} (hkey : Quoted.text? key = some name) {t : Tree}
    {ms : List (Octets × Tree)} (hmem : (key, t) ∈ ms) : (name, t) ∈ spelled ms := by
  refine List.mem_filterMap.mpr ⟨(key, t), hmem, ?_⟩
  rw [hkey, Option.map_some]

/-- A name that no key spells is not found. -/
theorem not_mem_names_spelled {name : String} {ms : List (Octets × Tree)}
    (habsent : ∀ m ∈ ms, Quoted.text? m.1 ≠ some name) : name ∉ (spelled ms).map Prod.fst := by
  intro hmem
  obtain ⟨m, hm, hname⟩ := List.mem_map.mp hmem
  obtain ⟨m', hm', heq⟩ := List.mem_filterMap.mp hm
  obtain ⟨n, hn, rfl⟩ := Option.map_eq_some_iff.mp heq
  exact habsent m' hm' (hname ▸ hn)

theorem ofMembers?_eq_some_iff {ms : List (Octets × Tree)} {f : Fields} :
    ofMembers? ms = some f ↔
      (∀ m ∈ ms, (Quoted.text? m.1).isSome = true) ∧ f = spelled ms := by
  induction ms generalizing f with
  | nil => exact ⟨fun h => ⟨nofun, (Option.some.inj h).symm⟩, fun ⟨_, h⟩ => congrArg some h.symm⟩
  | cons m ms ih =>
    obtain ⟨key, t⟩ := m
    unfold ofMembers? at ih ⊢
    cases hkey : Quoted.text? key with
    | none => simp [hkey]
    | some name =>
      simp only [List.mapM_cons, hkey, Option.map_some, Option.bind_eq_bind, Option.bind_some,
        Option.bind_eq_some_iff, ih, List.forall_mem_cons, Option.isSome_some, true_and,
        spelled_cons hkey, Option.pure_def, Option.some.injEq]
      constructor
      · rintro ⟨g, ⟨hms, rfl⟩, rfl⟩
        exact ⟨hms, rfl⟩
      · rintro ⟨hms, rfl⟩
        exact ⟨_, ⟨hms, rfl⟩, rfl⟩

/-- Whether the fields that were found are each there once. -/
theorem nodup_found_iff {names : List String} {f : Fields} :
    ((f.filter fun m => names.contains m.1).map Prod.fst).Nodup ↔ Once names f := by
  have hfound : (f.filter fun m => names.contains m.1).map Prod.fst =
      (f.map Prod.fst).filter fun name => names.contains name := by
    rw [List.filter_map]
    rfl
  rw [hfound, List.nodup_iff_count_le_one]
  constructor
  · intro h name hname
    rw [← List.count_filter (List.contains_iff_mem.mpr hname)]
    exact h name
  · intro h name
    by_cases hname : name ∈ names
    · rw [List.count_filter (List.contains_iff_mem.mpr hname)]
      exact h name hname
    · -- a name that is not looked for is not found
      have hnone : name ∉ (f.map Prod.fst).filter fun name => names.contains name := by
        intro hmem
        exact hname (List.contains_iff_mem.mp (List.mem_filter.mp hmem).2)
      rw [List.count_eq_zero_of_not_mem hnone]
      exact Nat.zero_le 1

theorem bind_ofMembers?_eq_some_iff {β : Type} {ms : List (Octets × Tree)} {k : Fields → Option β}
    {b : β} : (ofMembers? ms).bind k = some b ↔
      (∀ m ∈ ms, (Quoted.text? m.1).isSome = true) ∧ k (spelled ms) = some b := by
  rw [Option.bind_eq_some_iff]
  constructor
  · rintro ⟨f, hf, hk⟩
    obtain ⟨hspelled, rfl⟩ := ofMembers?_eq_some_iff.mp hf
    exact ⟨hspelled, hk⟩
  · rintro ⟨hspelled, hk⟩
    exact ⟨_, ofMembers?_eq_some_iff.mpr ⟨hspelled, rfl⟩, hk⟩

theorem bind_known?_eq_some_iff {β : Type} {names : List String} {f : Fields}
    {k : Fields → Option β} {b : β} : (known? names f).bind k = some b ↔
      Once names f ∧ k (f.filter fun m => names.contains m.1) = some b := by
  rw [← nodup_found_iff, known?]
  split
  · rename_i h
    rw [Option.bind_some, and_iff_right h]
  · rename_i h
    rw [Option.bind_none]
    exact iff_of_false (Option.some_ne_none b).symm fun hk => h hk.1

theorem bind_ofTree?_object_eq_some_iff {β : Type} {names : List String}
    {ms : List (Octets × Tree)} {k : Fields → Option β} {b : β} :
    (Fields.ofTree? names (.object ms)).bind k = some b ↔
      Readable names ms ∧ k ((spelled ms).filter fun m => names.contains m.1) = some b := by
  rw [Fields.ofTree?, Option.bind_assoc, bind_ofMembers?_eq_some_iff, bind_known?_eq_some_iff,
    Readable, and_assoc]

/-- One name is looked for among all members, the others among what is left without it. -/
theorem once_cons_iff {name : String} {names : List String} (hname : name ∉ names) {f : Fields} :
    Once (name :: names) f ↔ Once [name] f ∧ Once names (f.filter fun m => m.1 != name) := by
  have hrest : (f.filter fun m => m.1 != name).map Prod.fst =
      (f.map Prod.fst).filter (· != name) := by
    rw [List.filter_map]
    rfl
  rw [Once, Once, Once, List.forall_mem_cons, List.forall_mem_singleton, hrest]
  refine and_congr_right fun _ => forall₂_congr fun n hn => ?_
  rw [List.count_filter]
  rw [bne_iff_ne]
  rintro rfl
  exact hname hn

/-! ## Lookup of fields -/

theorem lookup_eq_none {name : String} {f : Fields} (h : name ∉ f.map Prod.fst) :
    f.lookup name = none := by
  rw [List.lookup_eq_none_iff]
  intro m hm
  rw [bne_iff_ne]
  rintro rfl
  exact h (List.mem_map_of_mem hm)

theorem lookup_cons_of_ne {name n : String} (hn : name ≠ n) (t : Tree) (f : Fields) :
    List.lookup name ((n, t) :: f) = f.lookup name := by
  rw [List.lookup_cons, beq_false_of_ne hn]

/-- A name that is there once is looked up wherever it stands. -/
theorem lookup_eq_some_iff {name : String} {f : Fields}
    (honce : (f.map Prod.fst).count name ≤ 1) {t : Tree} :
    f.lookup name = some t ↔ (name, t) ∈ f := by
  induction f with
  | nil => simp
  | cons m f ih =>
    obtain ⟨n, u⟩ := m
    rw [List.map_cons, List.count_cons] at honce
    by_cases hn : name = n
    · subst hn
      -- the name does not come again
      have habsent : (name, t) ∉ f := by
        intro hmem
        have hpos : 0 < (f.map Prod.fst).count name :=
          List.count_pos_iff.mpr (List.mem_map_of_mem hmem)
        simp only [beq_self_eq_true, if_true] at honce
        omega
      rw [List.lookup_cons_self, Option.some.injEq, List.mem_cons, Prod.mk.injEq]
      simp [habsent, eq_comm]
    · rw [lookup_cons_of_ne hn, ih (by omega), List.mem_cons, Prod.mk.injEq]
      simp [hn]

/-- A name that is there once is looked up alike in any order. -/
theorem lookup_perm {f f' : Fields} (h : f.Perm f') {name : String}
    (honce : (f.map Prod.fst).count name ≤ 1) : f'.lookup name = f.lookup name := by
  have honce' : (f'.map Prod.fst).count name ≤ 1 := (h.map Prod.fst).count_eq name ▸ honce
  refine Option.ext fun t => ?_
  rw [lookup_eq_some_iff honce, lookup_eq_some_iff honce', h.mem_iff]

/-- To leave out other members changes nothing for a name. -/
theorem lookup_filter {p : String → Bool} {name : String} (hname : p name = true) (f : Fields) :
    (f.filter fun m => p m.1).lookup name = f.lookup name := by
  induction f with
  | nil => rfl
  | cons m f ih =>
    obtain ⟨n, t⟩ := m
    by_cases hn : name = n
    · subst hn
      simp [hname]
    · rw [lookup_cons_of_ne hn, ← ih, List.filter_cons]
      split
      · exact lookup_cons_of_ne hn t _
      · rfl

end Fields

open Fields (spelled spelled_cons spelled_append Once Readable)

/-! ## Fields that are looked up alike -/

/-- What is found under the name of a field before and after a change that is not noticed. -/
inductive LikeField : Bool → Shape → Nat → Option Tree → Option Tree → Prop
  | same {must : Bool} {s : Shape} {room : Nat} (t? : Option Tree) : LikeField must s room t? t?
  | nulled {s : Shape} {room : Nat} : LikeField false s room none (some .null)
  | altered {must : Bool} {s : Shape} {room : Nat} {u u' : Tree} (h : Alters s (room - 1) u u') :
      LikeField must s room (some u) (some u')

/-- What is found under the name of a field that is broken. -/
inductive BrokenField : Bool → Shape → Option Tree → Prop
  | missing {s : Shape} : BrokenField true s none
  | broken {must : Bool} {s : Shape} {u : Tree} (h : Broken s u) : BrokenField must s (some u)

/-- All fields are looked up alike. -/
def Like (fields : ShapeFields) (room : Nat) (f f' : Fields) : Prop :=
  ∀ field ∈ fields, LikeField field.2.1 field.2.2 room (f.lookup field.1) (f'.lookup field.1)

/-- Members that a reader of the record does not tell apart. -/
structure Alike (apart : Option String) (fields : ShapeFields) (room : Nat)
    (ms ms' : List (Octets × Tree)) : Prop where
  readable : Readable fields.names ms' ↔ Readable fields.names ms
  kept : Kept apart room (spelled ms') ↔ Kept apart room (spelled ms)
  like : Readable fields.names ms → Like fields room (spelled ms) (spelled ms')

section Alike

variable {apart : Option String} {fields : ShapeFields} {room : Nat} {ms ms' : List (Octets × Tree)}

theorem alike_of_perm (hperm : ms.Perm ms') : Alike apart fields room ms ms' := by
  have hspelled : (spelled ms).Perm (spelled ms') := hperm.filterMap _
  have hcount : ∀ name, ((spelled ms').map Prod.fst).count name =
      ((spelled ms).map Prod.fst).count name :=
    fun name => ((hspelled.map Prod.fst).count_eq name).symm
  refine ⟨?_, ?_, fun hread field hfield => ?_⟩
  · -- how often a name occurs does not depend on the order
    refine and_congr ?_ ?_
    · exact ⟨fun h m hm => h m (hperm.mem_iff.mp hm), fun h m hm => h m (hperm.mem_iff.mpr hm)⟩
    · simp only [Once, hcount]
  · simp only [Kept, hspelled.mem_iff]
  · have honce := hread.2 field.1 (List.mem_map_of_mem hfield)
    rw [Fields.lookup_perm hspelled honce]
    exact .same _

/-- A new member in front that is not looked up, or is null where nothing was. -/
theorem alike_of_cons {key : Octets} {name : String} {t : Tree}
    (hkey : Quoted.text? key = some name)
    (hkept : apart.isSome = true → (Value.ofTree? (room - 1) t).isSome = true)
    (honce : name ∈ fields.names → name ∉ (spelled ms).map Prod.fst)
    (hlike : ∀ field ∈ fields, field.1 = name → field.2.1 = false ∧ t = .null) :
    Alike apart fields room ms ((key, t) :: ms) := by
  refine ⟨?_, ?_, fun hread field hfield => ?_⟩
  · rw [Readable, Readable, spelled_cons hkey, List.forall_mem_cons, hkey, Option.isSome_some]
    refine and_congr (and_iff_right rfl) ?_
    refine forall₂_congr fun n hn => ?_
    rw [List.map_cons, List.count_cons]
    by_cases hne : name = n
    · subst hne
      rw [List.count_eq_zero_of_not_mem (honce hn)]
      simp
    · simp [hne]
  · rw [spelled_cons hkey]
    refine forall₂_congr fun n hn => ?_
    rw [List.forall_mem_cons]
    refine and_iff_right fun _ => hkept ?_
    rw [Option.mem_def] at hn
    rw [hn, Option.isSome_some]
  · rw [spelled_cons hkey]
    by_cases hne : field.1 = name
    · -- nothing was found under the name, and now it is null
      obtain ⟨hmust, rfl⟩ := hlike field hfield hne
      have hnone := Fields.lookup_eq_none (honce (hne ▸ List.mem_map_of_mem hfield))
      rw [hne, hnone, List.lookup_cons_self, hmust]
      exact .nulled
    · rw [Fields.lookup_cons_of_ne hne]
      exact .same _

/-- What is under one key is altered, and nothing is kept as a value. -/
theorem alike_of_field {pre post : List (Octets × Tree)} {key : Octets} {name : String}
    {must : Bool} {s : Shape} {u u' : Tree} (hnodup : fields.names.Nodup)
    (hkey : Quoted.text? key = some name) (hfield : (name, must, s) ∈ fields)
    (h : Alters s (room - 1) u u') :
    Alike none fields room (pre ++ (key, u) :: post) (pre ++ (key, u') :: post) := by
  have hsplit : ∀ v, spelled (pre ++ (key, v) :: post) =
      spelled pre ++ (name, v) :: spelled post := by
    intro v
    rw [spelled_append, spelled_cons hkey]
  have hnames : ∀ v, (spelled (pre ++ (key, v) :: post)).map Prod.fst =
      (spelled pre).map Prod.fst ++ name :: (spelled post).map Prod.fst := by
    intro v
    rw [hsplit, List.map_append, List.map_cons]
  refine ⟨?_, iff_of_true nofun nofun, fun hread field hmem => ?_⟩
  · rw [Readable, Readable, Once, Once, hnames, hnames]
    simp only [List.forall_mem_append, List.forall_mem_cons]
  · have hcount := hread.2 field.1 (List.mem_map_of_mem hmem)
    have hcount' : ((spelled (pre ++ (key, u') :: post)).map Prod.fst).count field.1 ≤ 1 := by
      rw [hnames] at hcount ⊢
      exact hcount
    by_cases hne : field.1 = name
    · -- the field is the one that was altered, since no two have one name
      have hsame : field = (name, must, s) := List.inj_on_of_nodup_map hnodup hmem hfield hne
      subst hsame
      have hu := (Fields.lookup_eq_some_iff hcount (t := u)).mpr
        (by rw [hsplit]; exact List.mem_append_right _ List.mem_cons_self)
      have hu' := (Fields.lookup_eq_some_iff hcount' (t := u')).mpr
        (by rw [hsplit]; exact List.mem_append_right _ List.mem_cons_self)
      rw [hu, hu']
      exact .altered h
    · have hlookup : ∀ v, (spelled (pre ++ (key, v) :: post)).lookup field.1 =
          (spelled pre ++ spelled post).lookup field.1 := by
        intro v
        rw [hsplit, List.lookup_append, List.lookup_append, Fields.lookup_cons_of_ne hne]
      rw [hlookup, hlookup]
      exact .same _

/-- **Members are looked up alike before and after a change that is not noticed.** If there is a
field that stands apart, no field has records in it. -/
theorem alike_of_alters (hnodup : fields.names.Nodup)
    (hplain : apart.isSome = true → ∀ field ∈ fields, field.2.2 = .plain) {t' : Tree}
    (h : Alters (.record apart fields) room (.object ms) t') :
    ∃ ms', t' = .object ms' ∧ Alike apart fields room ms ms' := by
  generalize hshape : Shape.record apart fields = shape, htree : Tree.object ms = t at h
  cases h with
  | permuted hperm =>
    cases hshape
    cases htree
    exact ⟨_, rfl, alike_of_perm hperm⟩
  | inserted hkey hnew hkept =>
    cases hshape
    cases htree
    refine ⟨_, rfl, alike_of_cons hkey hkept (fun hname => absurd hname hnew) ?_⟩
    rintro field hfield rfl
    exact absurd (List.mem_map_of_mem hfield) hnew
  | @nulled _ _ _ _ key name s hkey hfield habsent =>
    cases hshape
    cases htree
    refine ⟨_, rfl, alike_of_cons hkey (fun _ => ?_)
      (fun _ => Fields.not_mem_names_spelled habsent) fun field hmem hname => ?_⟩
    · simp [Value.ofTree?]
    · have hsame : field = (name, false, s) := List.inj_on_of_nodup_map hnodup hmem hfield hname
      rw [hsame]
      exact ⟨rfl, rfl⟩
  | @field _ _ _ _ _ _ _ _ s _ _ hkey hfield h =>
    cases hshape
    cases htree
    cases apart with
    | none => exact ⟨_, rfl, alike_of_field hnodup hkey hfield h⟩
    | some name =>
      have hs : s = .plain := hplain rfl _ hfield
      subst hs
      cases h
  | item => cases hshape

end Alike

end UserDirectory.Json
