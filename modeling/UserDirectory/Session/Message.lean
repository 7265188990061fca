import UserDirectory.Client.Error

/-!
# Messages of a socket connection

A client sends a request message that names an action and may carry a payload of any shape; the
gateway answers with a reply that carries either data or an error. A mutation that succeeds gets
no reply of its own: the client learns of it by the event that every connection receives.
-/

namespace UserDirectory.Session

open Json (ToTree OfTree Fields Tree Value)

/-! ## Actions -/

structure UnknownAction where
  word : String
  deriving DecidableEq, Repr

def UnknownAction.message (e : UnknownAction) : String := "unknown action: " ++ e.word

/-- The word for the action that sends a command. -/
def actionWord (c : Command) : String := "user." ++ c.name

/-- The command that an action word sends. -/
def commandOfAction (word : String) : Except UnknownAction Command :=
  match Command.all.find? (actionWord · == word) with
  | some c => .ok c
  | none => .error ⟨word⟩

/-- Whether a command changes the store when it succeeds. -/
def isMutation : Command → Bool
  | .create | .update | .delete => true
  | .list | .get => false

/-! ## Requests -/

/-- What a client asks for. -/
structure Request where
  requestId : String
  action : String
  payload : Value

instance : OfTree Request :=
  ⟨fun room t => do
    let fields ← Fields.ofTree? ["requestId", "action", "payload"] t
    return {
      requestId := ← fields.withDefault room "requestId" ""
      action := ← fields.required room "action"
      payload := ← fields.withDefault (room - 1) "payload" .null }⟩

/-! ## Replies -/

structure ReplyError where
  code : String
  message : String
  deriving DecidableEq, Repr

instance : ToTree ReplyError :=
  ⟨fun e => .object (Json.member "code" e.code ++ Json.member "message" e.message)⟩

instance : OfTree ReplyError :=
  ⟨fun room t => do
    let fields ← Fields.ofTree? ["code", "message"] t
    return { code := ← fields.required room "code", message := ← fields.required room "message" }⟩

/-- What a client is answered. -/
structure Reply where
  requestId : String := ""
  ok : Bool
  data : Option Value := none
  error : Option ReplyError := none

/-- An empty request identifier is left out. -/
instance : ToTree Reply :=
  ⟨fun r => .object
    ((if r.requestId.isEmpty then [] else Json.member "requestId" r.requestId) ++
      Json.member "ok" r.ok ++ Json.optionalMember "data" r.data ++
      Json.optionalMember "error" r.error)⟩

instance : OfTree Reply :=
  ⟨fun room t => do
    let fields ← Fields.ofTree? ["requestId", "ok", "data", "error"] t
    return {
      requestId := ← fields.withDefault room "requestId" ""
      ok := ← fields.required room "ok"
      data := ← fields.optional (room - 1) "data"
      error := ← fields.optional (room - 1) "error" }⟩

namespace Reply

def success (requestId : String) (data : Value) : Reply :=
  { requestId, ok := true, data := some data }

def failure (requestId code message : String) : Reply :=
  { requestId, ok := false, error := some ⟨code, message⟩ }

def badRequest : String := "bad_request"

def notFound : String := "not_found"

/-- The code for every other failure. -/
def internalError : String := "internal_error"

/-- The text of every failure that is not the caller's doing. -/
def internalMessage : String := "internal server error"

/-- The reply to a request whose command failed; only refusals and absent users are explained. -/
def ofFailure (requestId : String) : Client.Failure → Reply
  | .badRequest message => failure requestId badRequest message
  | .notFound message => failure requestId notFound message
  | _ => failure requestId internalError internalMessage

/-- The reply to a frame that is no request. -/
def invalidMessage : Reply := failure "" badRequest "invalid message"

/-- Whether the reply goes out: always if it failed, and otherwise if its action changes nothing. -/
def isDirect (action : Option Command) (r : Reply) : Bool := !r.ok || !action.any isMutation

end Reply

end UserDirectory.Session
