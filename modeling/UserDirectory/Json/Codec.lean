import UserDirectory.Json.Value

/-!
# Typed values in documents

`ToTree` writes a value of a type as a tree and `OfTree` reads one. Reading is all or nothing: a
tree either yields a complete value or none.

A record is written as an object with its fields in declared order. It is read from an object with
members in any order, from which unknown members are left out and in which no field may occur
twice, or from an array that holds its fields in declared order.
-/

namespace UserDirectory.Json

/-- The types whose values are written as documents. -/
class ToTree (α : Type) where
  /-- The tree of a value. -/
  toTree : α → Tree

/-- The types whose values are read from documents. -/
class OfTree (α : Type) where
  /-- The value of a tree that may open `room` levels of containers. -/
  ofTree? : (room : Nat) → Tree → Option α

export ToTree (toTree)
export OfTree (ofTree?)

/-- The document of a value. -/
def encode {α : Type} [ToTree α] (a : α) : Octets := (toTree a).text

/-- The value that a document holds. -/
def decode {α : Type} [OfTree α] (s : Octets) : Option α :=
  (Tree.read? s).bind (ofTree? maxDepth)

/-! ## Plain types -/

instance : ToTree String := ⟨fun s => .string (Quoted.escape s)⟩

instance : OfTree String :=
  ⟨fun _ t =>
    match t with
    | .string raw => Quoted.text? raw
    | _ => none⟩

instance : ToTree Bool := ⟨.bool⟩

instance : OfTree Bool :=
  ⟨fun _ t =>
    match t with
    | .bool b => some b
    | _ => none⟩

instance : ToTree Int := ⟨fun n => .number (Numeral.ofInt n)⟩

instance : ToTree Nat := ⟨fun n => .number (Numeral.ofInt n)⟩

instance : ToTree Unit := ⟨fun _ => .null⟩

instance : OfTree Unit :=
  ⟨fun _ t =>
    match t with
    | .null => some ()
    | _ => none⟩

instance : ToTree Tree := ⟨id⟩

instance : ToTree Value := ⟨Value.toTree⟩

instance : OfTree Value := ⟨Value.ofTree?⟩

instance {α : Type} [ToTree α] : ToTree (Option α) :=
  ⟨fun
    | none => .null
    | some a => toTree a⟩

instance {α : Type} [OfTree α] : OfTree (Option α) :=
  ⟨fun room t =>
    match t with
    | .null => some none
    | t => (ofTree? room t).map some⟩

instance {α : Type} [ToTree α] : ToTree (List α) := ⟨fun as => .array (as.map toTree)⟩

instance {α : Type} [OfTree α] : OfTree (List α) :=
  ⟨fun room t =>
    match t with
    | .array items => items.mapM (ofTree? (room - 1))
    | _ => none⟩

/-! ## Records -/

/-- The fields that were found of a record, each at most once. -/
abbrev Fields := List (String × Tree)

namespace Fields

/-- The members of an object with their keys read. -/
def ofMembers? (members : List (Octets × Tree)) : Option Fields :=
  members.mapM fun (key, t) => (Quoted.text? key).map (·, t)

/-- The known fields among the members of an object; none of them may occur twice. -/
def known? (names : List String) (members : Fields) : Option Fields :=
  let found := members.filter fun m => names.contains m.1
  if (found.map Prod.fst).Nodup then some found else none

/-- The fields of a record, read by name from an object or by position from an array. -/
def ofTree? (names : List String) : Tree → Option Fields
  | .object members => (ofMembers? members).bind (known? names)
  | .array items => if items.length ≤ names.length then some (names.zip items) else none
  | _ => none

/-- A field that must be there. -/
def required {α : Type} [OfTree α] (fields : Fields) (room : Nat) (name : String) : Option α :=
  (fields.lookup name).bind (Json.ofTree? room)

/-- A field that may be missing, and then has a default. -/
def withDefault {α : Type} [OfTree α] (fields : Fields) (room : Nat) (name : String)
    (default : α) : Option α :=
  match fields.lookup name with
  | none => some default
  | some t => Json.ofTree? room t

/-- A field that may be missing or null. -/
def optional {α : Type} [OfTree α] (fields : Fields) (room : Nat) (name : String) :
    Option (Option α) :=
  withDefault fields room name none

end Fields

/-- One member of a record that is being written. -/
def member {α : Type} [ToTree α] (name : String) (a : α) : List (Octets × Tree) :=
  [(Quoted.escape name, toTree a)]

/-- A member that is left out when there is nothing to write. -/
def optionalMember {α : Type} [ToTree α] (name : String) : Option α → List (Octets × Tree)
  | none => []
  | some a => member name a

end UserDirectory.Json
