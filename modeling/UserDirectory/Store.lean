import UserDirectory.Call
import UserDirectory.Text.Ascii

/-!
# The user store

Users in the order of their creation. No two have one identifier, and no two have e-mail
addresses that differ only in the case of the letters A to Z.

Identifiers and clock readings are given to the operations, so what an operation does depends on
nothing but its arguments. A failed operation gives no new store: the old one stays.
-/

namespace UserDirectory

/-- The users in the order of their creation. -/
structure Store where
  users : List User := []
  deriving DecidableEq

namespace Store

inductive Failure
  | notFound
  /-- another user has the e-mail address -/
  | conflict (message : String)
  /-- anything else; the detail is for the operator only -/
  | other (detail : String)
  deriving DecidableEq, Repr

/-- The failure of an operation that would give two users one e-mail address. -/
def emailTaken : Failure := .conflict "email already exists"

def empty : Store := {}

/-- Whether a user other than `except` has the e-mail address. -/
def hasEmail (s : Store) (email : String) (except : Option UserId) : Bool :=
  s.users.any fun u => some u.id != except && Text.sameIgnoringCase u.email email

/-- The user with a given identifier. -/
def find? (s : Store) (id : UserId) : Option User := s.users.find? (·.id == id)

/-- A phone number as it is stored: an empty one is none. -/
def storedPhone (phone : Option String) : Option String := phone.filter (!·.isEmpty)

/-- The user that an input describes. -/
def newUser (input : NewUser) (id : UserId) (now : Time.Instant) : User where
  id
  firstName := input.firstName
  lastName := input.lastName
  email := input.email
  phone := storedPhone input.phone
  age := input.age
  status := input.status.getD .default
  createdAt := now
  updatedAt := now

/-- A user with the fields that the changes set. -/
def changed (u : User) (changes : UserChanges) (now : Time.Instant) : User :=
  { u with
    firstName := changes.firstName.getD u.firstName
    lastName := changes.lastName.getD u.lastName
    email := changes.email.getD u.email
    phone := if changes.phone.isSome then storedPhone changes.phone else u.phone
    age := changes.age.or u.age
    status := changes.status.getD u.status
    updatedAt := now }

def create (s : Store) (input : NewUser) (id : UserId) (now : Time.Instant) :
    Except Failure (User × Store) :=
  if s.hasEmail input.email none then .error emailTaken
  else
    let u := newUser input id now
    .ok (u, { users := s.users ++ [u] })

def get (s : Store) (id : UserId) : Except Failure User :=
  match s.find? id with
  | some u => .ok u
  | none => .error .notFound

def update (s : Store) (id : UserId) (changes : UserChanges) (now : Time.Instant) :
    Except Failure (User × Store) :=
  match s.find? id with
  | none => .error .notFound
  | some u =>
    if changes.email.any fun email => s.hasEmail email (some id) then .error emailTaken
    else
      let u := changed u changes now
      .ok (u, { users := s.users.map fun v => if v.id = id then u else v })

def delete (s : Store) (id : UserId) : Except Failure Store :=
  if (s.find? id).isSome then .ok { users := s.users.filter (·.id != id) }
  else .error .notFound

/-! ## Operations as values -/

/-- What a successful operation did. -/
inductive Outcome
  | created (u : User)
  | listed (us : List User)
  | found (u : User)
  | updated (u : User)
  | deleted (id : UserId)
  deriving DecidableEq

/-- Carries out an operation; the identifier and the clock reading are used only if it needs
them. -/
def perform (s : Store) (call : Call) (freshId : UserId) (now : Time.Instant) :
    Except Failure Outcome × Store :=
  match call with
  | .create input =>
    match s.create input freshId now with
    | .ok (u, s) => (.ok (.created u), s)
    | .error e => (.error e, s)
  | .list => (.ok (.listed s.users), s)
  | .get id => ((s.get id).map .found, s)
  | .update id changes =>
    match s.update id changes now with
    | .ok (u, s) => (.ok (.updated u), s)
    | .error e => (.error e, s)
  | .delete id =>
    match s.delete id with
    | .ok s => (.ok (.deleted id), s)
    | .error e => (.error e, s)

end Store

end UserDirectory
