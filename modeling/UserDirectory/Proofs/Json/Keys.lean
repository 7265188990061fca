import UserDirectory.Proofs.Json.Codec

/-!
# Where the keys of a document are

A place in a document is a path of turns from its root: to a member by its key, as a text and not
as it was escaped, or to an item by its number. What an encoder leaves out and what it writes is
then a list of paths, each with whether something is there (`Shows`).

Every type of documents lists the paths of its optional fields (`Optionals`), and a type that holds
values of another one puts their paths under its own (`under`). The documents of a type are right if
they show what its values list (`Shown`), and that is proved type by type along the same nesting.
-/

namespace UserDirectory.Json

/-- One turn on the way down into a document. -/
inductive Turn
  | key (name : String)
  | item (index : Nat)
  deriving DecidableEq

abbrev Path := List Turn

namespace Tree

/-- What a turn leads to. -/
def child? : Tree → Turn → Option Tree
  | .object members, .key name => (Fields.ofMembers? members).bind (·.lookup name)
  | .array items, .item index => items[index]?
  | _, _ => none

/-- What a path leads to. -/
def at? : Tree → Path → Option Tree
  | t, [] => some t
  | t, turn :: path => (t.child? turn).bind (·.at? path)

theorem at?_cons {t u : Tree} {turn : Turn} (h : t.child? turn = some u) (path : Path) :
    t.at? (turn :: path) = u.at? path := by
  rw [at?, h, Option.bind_some]

/-- The field of a record is under its name. -/
theorem child?_members {r : Record} (h : r.names.Nodup) {name : String} {t? : Option Tree}
    (hmem : (name, t?) ∈ r) : (object r.members).child? (.key name) = t? := by
  rw [child?, Record.ofMembers?_members, Option.bind_some, Record.lookup_fields h hmem]

end Tree

/-! ## Optional fields -/

/-- The optional fields of the values of a type, by their paths, and whether each is there. -/
class Optionals (α : Type) where
  optionals : α → List (Path × Bool)

export Optionals (optionals)

/-- The same fields one turn further down. -/
def under (turn : Turn) (fields : List (Path × Bool)) : List (Path × Bool) :=
  fields.map fun f => (turn :: f.1, f.2)

/-- The document has a key at exactly those of the paths whose field is there. -/
def Shows (t : Tree) (fields : List (Path × Bool)) : Prop :=
  ∀ f ∈ fields, (t.at? f.1).isSome = f.2

/-- The types whose documents show their optional fields. -/
class Shown (α : Type) [ToTree α] [Optionals α] : Prop where
  shows : ∀ a : α, Shows (toTree a) (optionals a)

theorem shows_nil (t : Tree) : Shows t [] := nofun

theorem Shows.append {t : Tree} {fields fields' : List (Path × Bool)} (h : Shows t fields)
    (h' : Shows t fields') : Shows t (fields ++ fields') := by
  intro f hf
  rcases List.mem_append.mp hf with hf | hf
  · exact h f hf
  · exact h' f hf

theorem Shows.under {t u : Tree} {turn : Turn} {fields : List (Path × Bool)} (h : Shows u fields)
    (hturn : t.child? turn = some u) : Shows t (under turn fields) := by
  intro f hf
  obtain ⟨f, hmem, rfl⟩ := List.mem_map.mp hf
  rw [Tree.at?_cons hturn]
  exact h f hmem

/-- A record shows each field whose name and tree it lists. -/
theorem shows_record {r : Record} (h : r.names.Nodup) {fields : List (String × Bool)}
    (hfields : ∀ f ∈ fields, ∃ t?, (f.1, t?) ∈ r ∧ t?.isSome = f.2) :
    Shows (.object r.members) (fields.map fun f => ([.key f.1], f.2)) := by
  intro f hf
  obtain ⟨⟨name, there⟩, hmem, rfl⟩ := List.mem_map.mp hf
  obtain ⟨t?, ht, hthere⟩ := hfields _ hmem
  rw [Tree.at?, Tree.child?_members h ht]
  cases t? <;> exact hthere

/-- The items of a list, each under its number. -/
instance {α : Type} [Optionals α] : Optionals (List α) :=
  ⟨fun as => as.zipIdx.flatMap fun (a, index) => under (.item index) (optionals a)⟩

instance {α : Type} [ToTree α] [Optionals α] [Shown α] : Shown (List α) := by
  refine ⟨fun as f hf => ?_⟩
  obtain ⟨⟨a, index⟩, hitem, hf⟩ := List.mem_flatMap.mp hf
  have hindex : as[index]? = some a := List.mem_zipIdx_iff_getElem?.mp hitem
  have hchild : (toTree as).child? (.item index) = some (toTree a) := by
    show (as.map toTree)[index]? = some (toTree a)
    rw [List.getElem?_map, hindex, Option.map_some]
  exact (Shown.shows a).under hchild f hf

/-- What may be null is shown where it stands. -/
instance {α : Type} [Optionals α] : Optionals (Option α) :=
  ⟨fun
    | none => []
    | some a => optionals a⟩

instance {α : Type} [ToTree α] [Optionals α] [Shown α] : Shown (Option α) := by
  refine ⟨fun a => ?_⟩
  cases a with
  | none => exact shows_nil _
  | some a => exact Shown.shows a

/-! ## Wire forms -/

/-- The document that is written for what was read from another. -/
def normalForm? (α : Type) [ToTree α] [OfTree α] (s : Octets) : Option Octets :=
  (decode s : Option α).map encode

/-- The documents of a type stand for its proper values and for nothing else. -/
structure WireForm (α : Type) [ToTree α] [OfTree α] [Optionals α] (Proper : α → Prop) : Prop where
  /-- A proper value is given back by its document. -/
  decode_encode : ∀ a, Proper a → decode (encode a) = some a
  /-- The key of an optional field is in the document of a value if and only if the field is
  there. -/
  keys : ∀ a, Proper a → ∃ t, Tree.read? (encode a) = some t ∧ Shows t (optionals a)
  /-- Whatever octets were read, the value is proper. -/
  proper : ∀ (s : Octets) (a : α), decode s = some a → Proper a
  /-- Octets have the same normal form as others that are read as the same value, and as no
  others. -/
  normal : ∀ (s s' : Octets) (a a' : α), decode s = some a → decode s' = some a' →
    (normalForm? α s = normalForm? α s' ↔ a = a')
  /-- A normal form is its own, and is read as what it is the normal form of. -/
  fixed : ∀ s n : Octets, normalForm? α s = some n →
    normalForm? α n = some n ∧ (decode n : Option α) = decode s

/-- A type has a wire form if its proper values are faithful, and only those are read. -/
theorem wireForm {α : Type} [ToTree α] [OfTree α] [Optionals α] [Shown α] {Proper : α → Prop}
    (hfaithful : ∀ a, Proper a → Faithful a)
    (hproper : ∀ (room : Nat) (t : Tree) (a : α), ofTree? room t = some a → Proper a) :
    WireForm α Proper := by
  have hdecode : ∀ a : α, Proper a → decode (encode a) = some a :=
    fun a ha => (hfaithful a ha).decode_encode
  have hread : ∀ (s : Octets) (a : α), decode s = some a → Proper a := by
    intro s a h
    obtain ⟨t, -, ht⟩ := Option.bind_eq_some_iff.mp h
    exact hproper maxDepth t a ht
  refine ⟨hdecode, fun a ha => ?_, hread, fun s s' a a' hs hs' => ?_, fun s n hn => ?_⟩
  · exact ⟨toTree a, Tree.read?_text (hfaithful a ha).wellFormed, Shown.shows a⟩
  · rw [normalForm?, normalForm?, hs, hs', Option.map_some, Option.map_some, Option.some.injEq]
    refine ⟨fun heq => ?_, congrArg encode⟩
    -- two proper values with one document are both what the document is read as
    have ha := hdecode a (hread s a hs)
    rw [heq, hdecode a' (hread s' a' hs')] at ha
    exact (Option.some.inj ha).symm
  · obtain ⟨a, hs, rfl⟩ := Option.map_eq_some_iff.mp hn
    have ha := hdecode a (hread s a hs)
    exact ⟨by rw [normalForm?, ha, Option.map_some], by rw [ha, hs]⟩

end UserDirectory.Json
