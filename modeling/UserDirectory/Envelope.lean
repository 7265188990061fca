import UserDirectory.Channel
import UserDirectory.User

/-!
# Envelopes

What travels over the bus: requests that carry the data of a command, responses with the data or
an error, and events. Each is generic in its data.

Beside the envelopes stand the payloads that are no users: the request for one user, the request
to list them, an update with the identifier among its changes, and what a deletion answers.
-/

namespace UserDirectory

open Json (ToTree OfTree Fields Tree)

/-! ## Requests -/

/-- The data of a command under the identifier of the request. -/
structure CommandRequest (α : Type) where
  requestId : String
  data : α
  deriving DecidableEq

instance {α : Type} [ToTree α] : ToTree (CommandRequest α) :=
  ⟨fun r => .object (Json.member "requestId" r.requestId ++ Json.member "data" r.data)⟩

/-- Data that may be null may also be missing from an object, but not from an array. -/
class Omissible (α : Type) where
  /-- The data that a missing member stands for, if any. -/
  missing? : Option α

instance (priority := low) {α : Type} : Omissible α := ⟨none⟩

instance {α : Type} : Omissible (Option α) := ⟨some none⟩

/-- The member `data` of an envelope. -/
def Envelope.data? {α : Type} [OfTree α] [Omissible α] (fields : Fields) (room : Nat) (t : Tree) :
    Option α :=
  match fields.lookup "data", t with
  | some d, _ => Json.ofTree? (room - 1) d
  | none, .object _ => Omissible.missing?
  | none, _ => none

instance {α : Type} [OfTree α] [Omissible α] : OfTree (CommandRequest α) :=
  ⟨fun room t => do
    let fields ← Fields.ofTree? ["requestId", "data"] t
    return {
      requestId := ← fields.required room "requestId"
      data := ← Envelope.data? fields room t }⟩

/-- The request to list all users; it says nothing more. -/
structure ListRequest where
  deriving DecidableEq

instance : ToTree ListRequest := ⟨fun _ => .object []⟩

instance : OfTree ListRequest := ⟨fun _ t => (Fields.ofTree? [] t).map fun _ => {}⟩

/-- The request for one user; the identifier is not read yet. -/
structure IdRequest where
  id : String
  deriving DecidableEq

instance : ToTree IdRequest := ⟨fun r => .object (Json.member "id" r.id)⟩

instance : OfTree IdRequest :=
  ⟨fun room t => do
    let fields ← Fields.ofTree? ["id"] t
    return { id := ← fields.required room "id" }⟩

/-- An update of one user: the changes with the identifier beside them. -/
structure UpdateRequest where
  id : String
  changes : UserChanges
  deriving DecidableEq

instance : ToTree UpdateRequest :=
  ⟨fun r => .object (Json.member "id" r.id ++ r.changes.members)⟩

/-- An update is read from an object only. Its members other than the identifier are all kept
before the changes are picked from them, so each must be a value that can be kept. -/
instance : OfTree UpdateRequest :=
  ⟨fun room t =>
    match t with
    | .object raw => do
      let members ← Fields.ofMembers? raw
      let ids ← Fields.known? ["id"] members
      let kept := members.filter fun m => m.1 != "id"
      if kept.all fun m => (Json.Value.ofTree? (room - 1) m.2).isSome then
        let fields ← Fields.known? UserChanges.fieldNames kept
        let status? : Tree → Option (Option UserStatus) := fun
          | .null => some none
          | t => (UserStatus.ofKept? t).map some
        return {
          id := ← ids.required room "id"
          changes := ← UserChanges.ofFields? status? fields room }
      else none
    | _ => none⟩

/-! ## Responses -/

inductive ErrorCode
  | badRequest
  | notFound
  | internal
  /-- a code without a meaning of its own, kept as it came -/
  | other (code : String)
  deriving DecidableEq, Repr

namespace ErrorCode

def text : ErrorCode → String
  | badRequest => "BAD_REQUEST"
  | notFound => "NOT_FOUND"
  | internal => "INTERNAL"
  | other code => code

def ofText (code : String) : ErrorCode :=
  if code = "BAD_REQUEST" then badRequest
  else if code = "NOT_FOUND" then notFound
  else if code = "INTERNAL" then internal
  else other code

@[simp] theorem text_ofText (code : String) : (ofText code).text = code := by
  unfold ofText
  split
  · simp_all [text]
  · split
    · simp_all [text]
    · split <;> simp_all [text]

end ErrorCode

instance : ToTree ErrorCode := ⟨fun c => Json.toTree c.text⟩

instance : OfTree ErrorCode := ⟨fun room t => (Json.ofTree? room t).map ErrorCode.ofText⟩

structure CommandError where
  code : ErrorCode
  message : String
  deriving DecidableEq, Repr

instance : ToTree CommandError :=
  ⟨fun e => .object (Json.member "code" e.code ++ Json.member "message" e.message)⟩

instance : OfTree CommandError :=
  ⟨fun room t => do
    let fields ← Fields.ofTree? ["code", "message"] t
    return { code := ← fields.required room "code", message := ← fields.required room "message" }⟩

structure CommandResponse (α : Type) where
  ok : Bool
  data : Option α := none
  error : Option CommandError := none
  deriving DecidableEq

namespace CommandResponse

def success {α : Type} (data : α) : CommandResponse α := { ok := true, data := some data }

def failure {α : Type} (error : CommandError) : CommandResponse α :=
  { ok := false, error := some error }

end CommandResponse

instance {α : Type} [ToTree α] : ToTree (CommandResponse α) :=
  ⟨fun r => .object (Json.member "ok" r.ok ++ Json.optionalMember "data" r.data ++
    Json.optionalMember "error" r.error)⟩

/-- In an array all three fields must be there; in an object data and error may be missing. -/
instance {α : Type} [OfTree α] : OfTree (CommandResponse α) :=
  ⟨fun room t => do
    let names := ["ok", "data", "error"]
    let fields ← Fields.ofTree? names t
    match t with
    | .array _ => if fields.length < names.length then none else pure ()
    | _ => pure ()
    return {
      ok := ← fields.required room "ok"
      data := ← fields.optional (room - 1) "data"
      error := ← fields.optional (room - 1) "error" }⟩

/-- What a deletion answers. -/
structure Deletion where
  message : String
  deriving DecidableEq, Repr

/-- The answer of a deletion that was made. -/
def Deletion.done : Deletion := ⟨"user deleted"⟩

instance : ToTree Deletion := ⟨fun d => .object (Json.member "message" d.message)⟩

instance : OfTree Deletion :=
  ⟨fun room t => do
    let fields ← Fields.ofTree? ["message"] t
    return { message := ← fields.required room "message" }⟩

/-! ## Events -/

/-- An event under its own identifier, with its type and the second at which it occurred. -/
structure Event (α : Type) where
  eventId : String
  type : String
  occurredAt : Time.Instant
  data : α
  deriving DecidableEq

namespace Event

/-- The event of a kind; the time at which it occurred is cut to the second. -/
def of {α : Type} (eventId : Uuid) (kind : EventKind) (now : Time.Instant) (data : α) : Event α :=
  ⟨eventId.text, kind.typeName, now.wholeSecond, data⟩

end Event

instance {α : Type} [ToTree α] : ToTree (Event α) :=
  ⟨fun e => .object (Json.member "eventId" e.eventId ++ Json.member "type" e.type ++
    Json.member "occurredAt" (Time.secondStamp e.occurredAt) ++ Json.member "data" e.data)⟩

instance {α : Type} [OfTree α] : OfTree (Event α) :=
  ⟨fun room t => do
    let fields ← Fields.ofTree? ["eventId", "type", "occurredAt", "data"] t
    return {
      eventId := ← fields.required room "eventId"
      type := ← fields.required room "type"
      occurredAt := ← (fields.required room "occurredAt").bind Time.ofSecondStamp?
      data := ← fields.required (room - 1) "data" }⟩

/-- What the event of a deletion carries. -/
structure DeletedUser where
  id : UserId
  deriving DecidableEq

instance : ToTree DeletedUser := ⟨fun d => .object (Json.member "userId" d.id)⟩

instance : OfTree DeletedUser :=
  ⟨fun room t => do
    let fields ← Fields.ofTree? ["userId"] t
    return { id := ← fields.required room "userId" }⟩

end UserDirectory
