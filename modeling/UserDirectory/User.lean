import UserDirectory.Json.Codec
import UserDirectory.Time.Timestamp
import UserDirectory.Uuid

/-!
# Users

A user as it is stored and returned, what a caller gives to create one, and the changes that an
update makes. The last two tell an absent field from an empty one: an absent field of an update
leaves the stored value alone, an empty phone clears it.

Beside the types stand their documents.
-/

namespace UserDirectory

open Json (ToTree OfTree Fields Tree)

/-! ## Types -/

/-- Whether an account is in use. -/
inductive UserStatus
  | active
  | inactive
  deriving DecidableEq, Repr

/-- A status word that is none. -/
structure UnknownStatus where
  word : String
  deriving DecidableEq, Repr

def UnknownStatus.message (e : UnknownStatus) : String := "unknown user status: " ++ e.word

namespace UserStatus

def word : UserStatus → String
  | active => "Active"
  | inactive => "Inactive"

def ofWord (word : String) : Except UnknownStatus UserStatus :=
  if word = "Active" then .ok active
  else if word = "Inactive" then .ok inactive
  else .error ⟨word⟩

/-- The status of a user who was created without one. -/
def default : UserStatus := active

@[simp] theorem ofWord_word (s : UserStatus) : ofWord s.word = .ok s := by
  cases s <;> rfl

end UserStatus

structure UserId where
  uuid : Uuid
  deriving DecidableEq

namespace UserId

/-- The one spelling in which identifiers are written. -/
def text (id : UserId) : String := id.uuid.text

/-- The identifier that a spelling gives. -/
def parse? (s : String) : Option UserId := (Uuid.parse? s).map UserId.mk

end UserId

/-- An age in years, as a number of 32 bits. -/
abbrev Age := Int32

/-- A user as stored and returned. -/
structure User where
  id : UserId
  firstName : String
  lastName : String
  email : String
  phone : Option String
  age : Option Age
  status : UserStatus
  createdAt : Time.Instant
  updatedAt : Time.Instant
  deriving DecidableEq

/-- What a caller gives to create a user. -/
structure NewUser where
  firstName : String
  lastName : String
  email : String
  phone : Option String := none
  age : Option Age := none
  status : Option UserStatus := none
  deriving DecidableEq

/-- The changes of an update; an absent field leaves the stored value alone. -/
structure UserChanges where
  firstName : Option String := none
  lastName : Option String := none
  email : Option String := none
  phone : Option String := none
  age : Option Age := none
  status : Option UserStatus := none
  deriving DecidableEq

def UserChanges.isEmpty (c : UserChanges) : Bool :=
  c.firstName.isNone && c.lastName.isNone && c.email.isNone && c.phone.isNone && c.age.isNone &&
    c.status.isNone

/-! ## Documents -/

/-- The integers that are ages. -/
def Age.ofInt? (n : Int) : Option Age :=
  if -2147483648 ≤ n ∧ n < 2147483648 then some (Int32.ofInt n) else none

instance : ToTree Age := ⟨fun age => Json.toTree age.toInt⟩

instance : OfTree Age :=
  ⟨fun _ t =>
    match t with
    | .number x => x.int?.bind Age.ofInt?
    | _ => none⟩

instance : ToTree UserStatus := ⟨fun s => Json.toTree s.word⟩

/-- The status of a word in a document. -/
def UserStatus.ofRaw? (raw : Octets) : Option UserStatus :=
  (Json.Quoted.text? raw).bind fun word => (ofWord word).toOption

/-- A status is its word, or an object with the word as its only key and null below it. -/
instance : OfTree UserStatus :=
  ⟨fun _ t =>
    match t with
    | .string raw => UserStatus.ofRaw? raw
    | .object [(key, .null)] => UserStatus.ofRaw? key
    | _ => none⟩

/-- The status in a kept member: below the word there may also be an empty object. -/
def UserStatus.ofKept? : Tree → Option UserStatus
  | .object [(key, .object [])] => ofRaw? key
  | t => Json.ofTree? 0 t

instance : ToTree UserId := ⟨fun id => Json.toTree id.text⟩

instance : OfTree UserId := ⟨fun room t => (Json.ofTree? room t).bind UserId.parse?⟩

instance : ToTree Time.Instant := ⟨fun t => Json.toTree (Time.exact t)⟩

instance : OfTree Time.Instant := ⟨fun room t => (Json.ofTree? room t).bind Time.ofExact?⟩

namespace User

/-- The fields of a user in declared order. -/
def fieldNames : List String :=
  ["userId", "firstName", "lastName", "email", "phone", "age", "status", "createdAt", "updatedAt"]

instance : ToTree User :=
  ⟨fun u => .object
    (Json.member "userId" u.id ++ Json.member "firstName" u.firstName ++
      Json.member "lastName" u.lastName ++ Json.member "email" u.email ++
      Json.optionalMember "phone" u.phone ++ Json.optionalMember "age" u.age ++
      Json.member "status" u.status ++ Json.member "createdAt" u.createdAt ++
      Json.member "updatedAt" u.updatedAt)⟩

instance : OfTree User :=
  ⟨fun room t => do
    let fields ← Fields.ofTree? fieldNames t
    return {
      id := ← fields.required room "userId"
      firstName := ← fields.required room "firstName"
      lastName := ← fields.required room "lastName"
      email := ← fields.required room "email"
      phone := ← fields.optional room "phone"
      age := ← fields.optional room "age"
      status := ← fields.required room "status"
      createdAt := ← fields.required room "createdAt"
      updatedAt := ← fields.required room "updatedAt" }⟩

end User

namespace NewUser

def fieldNames : List String := ["firstName", "lastName", "email", "phone", "age", "status"]

instance : ToTree NewUser :=
  ⟨fun u => .object
    (Json.member "firstName" u.firstName ++ Json.member "lastName" u.lastName ++
      Json.member "email" u.email ++ Json.optionalMember "phone" u.phone ++
      Json.optionalMember "age" u.age ++ Json.optionalMember "status" u.status)⟩

instance : OfTree NewUser :=
  ⟨fun room t => do
    let fields ← Fields.ofTree? fieldNames t
    return {
      firstName := ← fields.required room "firstName"
      lastName := ← fields.required room "lastName"
      email := ← fields.required room "email"
      phone := ← fields.optional room "phone"
      age := ← fields.optional room "age"
      status := ← fields.optional room "status" }⟩

end NewUser

namespace UserChanges

def fieldNames : List String := NewUser.fieldNames

/-- The members that changes are written as. -/
def members (c : UserChanges) : List (Octets × Tree) :=
  Json.optionalMember "firstName" c.firstName ++ Json.optionalMember "lastName" c.lastName ++
    Json.optionalMember "email" c.email ++ Json.optionalMember "phone" c.phone ++
    Json.optionalMember "age" c.age ++ Json.optionalMember "status" c.status

/-- The changes that the fields give, with a reader for the status. -/
def ofFields? (status? : Tree → Option (Option UserStatus)) (fields : Fields) (room : Nat) :
    Option UserChanges := do
  return {
    firstName := ← fields.optional room "firstName"
    lastName := ← fields.optional room "lastName"
    email := ← fields.optional room "email"
    phone := ← fields.optional room "phone"
    age := ← fields.optional room "age"
    status := ←
      match fields.lookup "status" with
      | none => some none
      | some t => status? t }

instance : ToTree UserChanges := ⟨fun c => .object c.members⟩

instance : OfTree UserChanges :=
  ⟨fun room t => (Fields.ofTree? fieldNames t).bind fun fields =>
    ofFields? (Json.ofTree? room) fields room⟩

end UserChanges

end UserDirectory
