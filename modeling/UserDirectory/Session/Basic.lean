import UserDirectory.Client.Basic
import UserDirectory.Session.Message
import UserDirectory.Validation

/-!
# What a connection does with a frame

A frame is read as a request message. What cannot be read, names no action, or carries an input
that breaks a rule is answered at once and sends no command; everything else is an operation,
whose outcome is answered when it is known.
-/

namespace UserDirectory.Session

/-- What comes in on a connection. -/
inductive Inbound
  /-- a text frame or a binary frame, which are treated alike -/
  | data (payload : Octets)
  /-- a ping or a pong -/
  | control
  /-- the peer closes -/
  | close
  /-- the connection is lost -/
  | lost
  deriving DecidableEq, Repr

/-- The text for a payload that does not fit its action. -/
def invalidPayload : String := "invalid payload"

/-- The value that a payload holds, or the text of the refusal. A payload is read like the
document that it would be written as. -/
def ofPayload? (α : Type) [Json.OfTree α] (payload : Json.Value) : Except String α :=
  match Json.ofTree? Json.maxDepth payload.toTree with
  | some a => .ok a
  | none => .error invalidPayload

/-- A rule that holds, or its text as the refusal. -/
def ensure {α : Type} : Except Validation.Rule α → Except String α := Except.mapError (·.message)

/-- The operation that a request asks for, or the text of the refusal. -/
def accept (command : Command) (payload : Json.Value) : Except String Call :=
  match command with
  | .create => do
    let input ← ofPayload? NewUser payload
    ensure (Validation.checkNew input)
    return .create input
  | .list => return .list
  | .get => do
    let request ← ofPayload? IdRequest payload
    return .get (← ensure (Validation.checkId request.id))
  | .update => do
    let request ← ofPayload? UpdateRequest payload
    ensure (Validation.checkChanges request.changes)
    return .update (← ensure (Validation.checkId request.id)) request.changes
  | .delete => do
    let request ← ofPayload? IdRequest payload
    return .delete (← ensure (Validation.checkId request.id))

/-- What a frame leads to. -/
inductive Reaction
  /-- a reply at once -/
  | reply (r : Reply)
  /-- an operation for the request with the given identifier -/
  | call (requestId : String) (call : Call)

/-- What a frame leads to. -/
def react (frame : Octets) : Reaction :=
  match Json.decode (α := Request) frame with
  | none => .reply .invalidMessage
  | some r =>
    match commandOfAction r.action with
    | .error _ => .reply (.failure r.requestId Reply.badRequest "unknown action")
    | .ok command =>
      match accept command r.payload with
      | .error message => .reply (.failure r.requestId Reply.badRequest message)
      | .ok call => .call r.requestId call

/-- The reply to a request whose operation has ended. -/
def answer (requestId : String) : Except Client.Failure CallAnswer → Reply
  | .ok a => .success requestId a.value
  | .error e => .ofFailure requestId e

/-- The reply that goes out for an operation that has ended, if one does. -/
def directReply? (requestId : String) (call : Call)
    (result : Except Client.Failure CallAnswer) : Option Reply :=
  let r := answer requestId result
  if r.isDirect (some call.command) then some r else none

end UserDirectory.Session
