import UserDirectory.Proofs.Json.Shape

/-!
# Types whose readers are tolerant

A type is `Tolerant` if its reader notices no change of a document that its shape allows for, and
takes no document that is broken; and that of every document, not only of those that are written for
a value. For a record this is shown once (`tolerant_record`). What a particular type has to say is
how it picks its fields, one after another (`Picks`): an induction along the fields then gives that
alike fields give the same record, and that one broken field spoils it.

`ForwardCompatible` carries this over to octets.
-/

namespace UserDirectory.Json

open Fields (spelled spelled_cons spelled_append Readable)

/-- The types whose readers notice no change of their shape and take nothing that is broken. -/
class Tolerant (α : Type) [OfTree α] [Shaped α] : Prop where
  unnoticed : ∀ {room : Nat} {t t' : Tree}, Alters (shape α) room t t' →
    (ofTree? room t' : Option α) = ofTree? room t
  refused : ∀ {room : Nat} {t : Tree}, Broken (shape α) t → (ofTree? room t : Option α) = none

/-! ## How a record is picked from its fields -/

/-- A reader of one field: alike fields are read alike, and a broken one is not read. -/
structure Reader {β : Type} (must : Bool) (s : Shape) (read : Nat → Option Tree → Option β) :
    Prop where
  unnoticed : ∀ {room : Nat} {t? t?' : Option Tree}, LikeField must s room t? t?' →
    read room t?' = read room t?
  refused : ∀ {room : Nat} {t? : Option Tree}, BrokenField must s t? → read room t? = none

/-- A record that is picked from its fields one after another, each by a reader of its own. -/
inductive Picks {α : Type} : ShapeFields → (Nat → Fields → Option α) → Prop
  | done (a : α) : Picks [] fun _ _ => some a
  | field {β : Type} {name : String} {must : Bool} {s : Shape} {fields : ShapeFields}
      {read : Nat → Option Tree → Option β} {next : β → Nat → Fields → Option α}
      (hread : Reader must s read) (hnext : ∀ b, Picks fields (next b)) :
      Picks ((name, must, s) :: fields) fun room f =>
        (read room (f.lookup name)).bind fun b => next b room f

namespace Picks

variable {α : Type} {fields : ShapeFields} {pick : Nat → Fields → Option α}

/-- Alike fields give the same record. -/
theorem unnoticed (h : Picks fields pick) {room : Nat} {f f' : Fields}
    (hlike : Like fields room f f') : pick room f' = pick room f := by
  induction h with
  | done a => rfl
  | @field β name _ _ _ read next hread _ ih =>
    obtain ⟨hfirst, hrest⟩ := List.forall_mem_cons.mp hlike
    have hnext : (fun b => next b room f') = fun b => next b room f := funext fun b => ih b hrest
    show (read room (f'.lookup name)).bind _ = (read room (f.lookup name)).bind _
    rw [hread.unnoticed hfirst, hnext]

/-- No record is picked if a field is broken. -/
theorem refused (h : Picks fields pick) {room : Nat} {f : Fields} {name : String} {must : Bool}
    {s : Shape} (hfield : (name, must, s) ∈ fields) (hbroken : BrokenField must s (f.lookup name)) :
    pick room f = none := by
  induction h with
  | done a => cases hfield
  | @field β name' _ _ _ read next hread _ ih =>
    show (read room (f.lookup name')).bind (fun b => next b room f) = none
    rcases List.mem_cons.mp hfield with heq | hrest
    · cases heq
      rw [hread.refused hbroken, Option.bind_none]
    · -- the fields before it may be read or not
      cases read room (f.lookup name') with
      | none => rfl
      | some b => exact ih b hrest

/-- What is made of a record that was picked is picked from the same fields. -/
theorem map {γ : Type} (g : α → γ) (h : Picks fields pick) :
    Picks fields fun room f => (pick room f).bind fun a => some (g a) := by
  induction h with
  | done a => exact .done (g a)
  | field hread _ ih =>
    simp only [Option.bind_assoc]
    exact .field hread ih

end Picks

/-- In a plain field nothing can be altered or broken, so any reader will do that takes a missing
field that must be there for none, and another for null. -/
theorem reader_plain {β : Type} {must : Bool} {read : Nat → Option Tree → Option β}
    (hmust : must = true → ∀ room, read room none = none)
    (hnull : must = false → ∀ room, read room (some .null) = read room none) :
    Reader must .plain read := by
  refine ⟨fun {room _ _} h => ?_, fun {room _} h => ?_⟩
  · cases h with
    | same => rfl
    | nulled => exact hnull rfl room
    | altered h => cases h
  · cases h with
    | missing => exact hmust rfl room
    | broken h => cases h

theorem reader_required {β : Type} [OfTree β] [Shaped β] [Tolerant β] :
    Reader true (shape β) fun room t? => t?.bind (ofTree? (room - 1) : Tree → Option β) := by
  refine ⟨fun h => ?_, fun h => ?_⟩
  · cases h with
    | same => rfl
    | altered h => exact Tolerant.unnoticed h
  · cases h with
    | missing => rfl
    | broken h => exact Tolerant.refused h

theorem Alters.ne_null {s : Shape} {room : Nat} {t t' : Tree} (h : Alters s room t t') :
    t ≠ .null ∧ t' ≠ .null := by
  cases h <;> exact ⟨nofun, nofun⟩

theorem Broken.ne_null {s : Shape} {t : Tree} (h : Broken s t) : t ≠ .null := by
  cases h <;> exact nofun

/-- What may be null has the shape that it has when it is not. -/
instance {β : Type} [Shaped β] : Shaped (Option β) := ⟨shape β⟩

/-- Null is neither altered nor broken. -/
instance {β : Type} [OfTree β] [Shaped β] [Tolerant β] : Tolerant (Option β) := by
  refine ⟨fun h => ?_, fun h => ?_⟩
  · have halters : Alters (shape β) _ _ _ := h
    obtain ⟨hnull, hnull'⟩ := halters.ne_null
    rw [ofTree?_option hnull, ofTree?_option hnull', Tolerant.unnoticed halters]
  · have hbroken : Broken (shape β) _ := h
    rw [ofTree?_option hbroken.ne_null, Tolerant.refused hbroken, Option.map_none]

theorem reader_optional {β : Type} [OfTree β] [Shaped β] [Tolerant β] :
    Reader false (shape β) fun room t? =>
      match t? with
      | none => some none
      | some t => (ofTree? (room - 1) t : Option (Option β)) := by
  refine ⟨fun h => ?_, fun h => ?_⟩
  · cases h with
    | same => rfl
    | nulled => rfl
    | altered h => exact Tolerant.unnoticed (α := Option β) h
  · cases h with
    | broken h => exact Tolerant.refused (α := Option β) h

namespace Picks

variable {α β : Type} {name : String} {fields : ShapeFields} {next : β → Nat → Fields → Option α}
  {next? : Option β → Nat → Fields → Option α} [OfTree β]

theorem required [Shaped β] [Tolerant β] (hnext : ∀ b, Picks fields (next b)) :
    Picks ((name, true, shape β) :: fields) fun room f =>
      (f.required (room - 1) name : Option β).bind fun b => next b room f :=
  .field reader_required hnext

theorem requiredPlain (hnext : ∀ b, Picks fields (next b)) :
    Picks ((name, true, .plain) :: fields) fun room f =>
      (f.required room name : Option β).bind fun b => next b room f := by
  have hread : Reader true .plain fun room t? => t?.bind (ofTree? room : Tree → Option β) :=
    reader_plain (fun _ _ => rfl) nofun
  exact .field hread hnext

theorem optional [Shaped β] [Tolerant β] (hnext : ∀ b?, Picks fields (next? b?)) :
    Picks ((name, false, shape β) :: fields) fun room f =>
      (f.optional (room - 1) name : Option (Option β)).bind fun b? => next? b? room f :=
  .field reader_optional hnext

theorem optionalPlain (hnext : ∀ b?, Picks fields (next? b?)) :
    Picks ((name, false, .plain) :: fields) fun room f =>
      (f.optional room name : Option (Option β)).bind fun b? => next? b? room f := by
  have hread : Reader false .plain fun room t? =>
      match t? with
      | none => some none
      | some t => (ofTree? room t : Option (Option β)) :=
    reader_plain nofun fun _ _ => rfl
  exact .field hread hnext

end Picks

/-! ## Tolerant types -/

/-- A type whose documents are objects that are read as a record: the members are looked at if their
keys are texts and no field is twice, and can be kept where they must be. -/
structure ReadsRecord (α : Type) [OfTree α] (apart : Option String) (fields : ShapeFields)
    (pick : Nat → Fields → Option α) : Prop where
  nodup : fields.names.Nodup
  plain : apart.isSome = true → ∀ field ∈ fields, field.2.2 = .plain
  picks : Picks fields pick
  reads : ∀ (room : Nat) (ms : List (Octets × Tree)) (a : α),
    ofTree? room (.object ms) = some a ↔
      Readable fields.names ms ∧ Kept apart room (spelled ms) ∧ pick room (spelled ms) = some a

/-- A record that is read by name from the members of an object. -/
theorem readsRecord {α : Type} [OfTree α] {fields : ShapeFields} {pick : Nat → Fields → Option α}
    (hreads : ∀ (room : Nat) (ms : List (Octets × Tree)), (ofTree? room (.object ms) : Option α) =
      (Fields.ofTree? fields.names (.object ms)).bind (pick room))
    (hnodup : fields.names.Nodup) (hpick : Picks fields pick) :
    ReadsRecord α none fields pick := by
  refine ⟨hnodup, nofun, hpick, fun room ms a => ?_⟩
  -- the fields that are found are looked up as they are among all members
  have hlike : Like fields room (spelled ms)
      ((spelled ms).filter fun m => fields.names.contains m.1) := by
    intro field hfield
    have hname : fields.names.contains field.1 = true :=
      List.contains_iff_mem.mpr (List.mem_map_of_mem hfield)
    rw [Fields.lookup_filter hname]
    exact .same _
  have hkept : Kept none room (spelled ms) := nofun
  rw [hreads, Fields.bind_ofTree?_object_eq_some_iff, hpick.unnoticed hlike, and_iff_right hkept]

/-- **A record notices no change of its shape and is not read if it is broken.** -/
theorem tolerant_record {α : Type} [OfTree α] [Shaped α] {apart : Option String}
    {fields : ShapeFields} {pick : Nat → Fields → Option α}
    (hshape : shape α = .record apart fields) (h : ReadsRecord α apart fields pick) :
    Tolerant α := by
  refine ⟨fun {room t t'} halters => ?_, fun {room t} hbroken => ?_⟩
  · rw [hshape] at halters
    obtain ⟨ms, rfl⟩ : ∃ ms, t = .object ms := by cases halters <;> exact ⟨_, rfl⟩
    obtain ⟨ms', rfl, halike⟩ := alike_of_alters h.nodup h.plain halters
    refine Option.ext fun a => ?_
    rw [h.reads, h.reads, halike.readable, halike.kept]
    refine and_congr_right fun hread => and_congr_right fun _ => ?_
    rw [h.picks.unnoticed (halike.like hread)]
  · rw [hshape] at hbroken
    rw [Option.eq_none_iff_forall_ne_some]
    intro a ha
    obtain ⟨ms, rfl⟩ : ∃ ms, t = .object ms := by cases hbroken <;> exact ⟨_, rfl⟩
    obtain ⟨⟨-, honce⟩, -, hpicked⟩ := (h.reads room ms a).mp ha
    -- what was read has every field once, and each of them could be read
    cases hbroken with
    | @repeated _ _ pre mid post key key' name u u' hfield hkey hkey' =>
      have hcount := honce name hfield
      rw [spelled_append, spelled_cons hkey, spelled_append, spelled_cons hkey'] at hcount
      simp only [List.map_append, List.map_cons, List.count_append, List.count_cons_self] at hcount
      omega
    | missing hfield habsent =>
      have hnone := Fields.lookup_eq_none (Fields.not_mem_names_spelled habsent)
      rw [h.picks.refused hfield (hnone ▸ .missing)] at hpicked
      cases hpicked
    | field hmem hkey hfield hinner =>
      have hsome := (Fields.lookup_eq_some_iff (honce _ (List.mem_map_of_mem hfield))).mpr
        (Fields.mem_spelled hkey hmem)
      rw [h.picks.refused hfield (hsome ▸ .broken hinner)] at hpicked
      cases hpicked

/-- A type without records in its documents. -/
theorem tolerant_plain {α : Type} [OfTree α] [Shaped α] (hshape : shape α = .plain) :
    Tolerant α := by
  refine ⟨fun h => ?_, fun h => ?_⟩
  · rw [hshape] at h
    cases h
  · rw [hshape] at h
    cases h

instance {α : Type} [Shaped α] : Shaped (List α) := ⟨.list (shape α)⟩

/-- A list is read item by item, and not at all if one cannot be read. -/
instance {α : Type} [OfTree α] [Shaped α] [Tolerant α] : Tolerant (List α) := by
  refine ⟨fun {room t t'} h => ?_, fun {room t} h => ?_⟩
  · have halters : Alters (.list (shape α)) room t t' := h
    cases halters with
    | @item _ _ pre post u u' hitem =>
      show (pre ++ u' :: post).mapM (ofTree? (room - 1) : Tree → Option α) =
        (pre ++ u :: post).mapM (ofTree? (room - 1))
      rw [List.mapM_append, List.mapM_append, List.mapM_cons, List.mapM_cons,
        Tolerant.unnoticed (α := α) hitem]
  · have hbroken : Broken (.list (shape α)) t := h
    cases hbroken with
    | @item _ items u hmem hitem =>
      obtain ⟨pre, post, rfl⟩ := List.append_of_mem hmem
      show (pre ++ u :: post).mapM (ofTree? (room - 1) : Tree → Option α) = none
      rw [List.mapM_append, List.mapM_cons, Tolerant.refused (α := α) hitem]
      simp

/-! ## Documents -/

/-- Documents may change under way as long as no field is twice and none is missing: the proper
values of a type are still read, and anything broken is not. -/
structure ForwardCompatible (α : Type) [ToTree α] [OfTree α] [Shaped α] (Proper : α → Prop) :
    Prop where
  /-- A value is written as its tree. -/
  written : ∀ a, Proper a → Tree.read? (encode a) = some (toTree a)
  /-- Whatever is read as a tree that came of it by changes that are not noticed gives it back. -/
  altered : ∀ a, Proper a → ∀ (s : Octets) (t : Tree), Tree.read? s = some t →
    Relation.ReflTransGen (Alters (shape α) maxDepth) (toTree a) t → decode s = some a
  /-- What is read as a broken tree gives no value. -/
  broken : ∀ (s : Octets) (t : Tree), Tree.read? s = some t → Broken (shape α) t →
    (decode s : Option α) = none

/-- Any number of changes that are not noticed is not noticed. -/
theorem ofTree?_of_altered {α : Type} [OfTree α] [Shaped α] [Tolerant α] {room : Nat} {t t' : Tree}
    (h : Relation.ReflTransGen (Alters (shape α) room) t t') :
    (ofTree? room t' : Option α) = ofTree? room t := by
  induction h with
  | refl => rfl
  | tail _ hlast ih => rw [Tolerant.unnoticed hlast, ih]

theorem forwardCompatible {α : Type} [ToTree α] [OfTree α] [Shaped α] [Tolerant α]
    {Proper : α → Prop} (hfaithful : ∀ a, Proper a → Faithful a) : ForwardCompatible α Proper where
  written a ha := Tree.read?_text (hfaithful a ha).wellFormed
  altered a ha s t hread h := by
    rw [decode, hread, Option.bind_some, ofTree?_of_altered h, (hfaithful a ha).ofTree?_toTree]
  broken s t hread h := by
    rw [decode, hread, Option.bind_some, Tolerant.refused h]

end UserDirectory.Json
