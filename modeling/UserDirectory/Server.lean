import UserDirectory.Store
import UserDirectory.Validation

/-!
# The command server

What becomes of one delivery on a command channel. The payload is read and checked (`accept`), the
operation is carried out by the store, its outcome is answered (`reply`), and a change is
announced (`announce`). The four steps are apart because deliveries are handled at the same time
and their steps interleave; `dispatch` takes the first three together.
-/

namespace UserDirectory.Server

/-- A refusal of a request, with the text that the caller is shown. -/
def refusal (message : String) : CommandError := ⟨.badRequest, message⟩

/-- The text for a payload that cannot be read. -/
def unreadable : CommandError := refusal "invalid request"

/-- The data of a request. -/
def data? (α : Type) [Json.OfTree α] [Omissible α] (payload : Octets) : Except CommandError α :=
  match Json.decode (α := CommandRequest α) payload with
  | some r => .ok r.data
  | none => .error unreadable

/-- A rule that holds, or the refusal of the request that breaks it. -/
def ensure {α : Type} : Except Validation.Rule α → Except CommandError α :=
  Except.mapError fun rule => refusal rule.message

/-- Reads and checks the payload of a command. -/
def accept (command : Command) (payload : Octets) : Except CommandError Call :=
  match command with
  | .create => do
    let input ← data? NewUser payload
    ensure (Validation.checkNew input)
    return .create input
  | .list => do
    let _ ← data? (Option ListRequest) payload
    return .list
  | .get => do
    let request ← data? IdRequest payload
    return .get (← ensure (Validation.checkId request.id))
  | .update => do
    let request ← data? UpdateRequest payload
    let id ← ensure (Validation.checkId request.id)
    ensure (Validation.checkChanges request.changes)
    return .update id request.changes
  | .delete => do
    let request ← data? IdRequest payload
    return .delete (← ensure (Validation.checkId request.id))

/-- The text for a command that the store failed to carry out; the detail is not told. -/
def failedMessage : Command → String
  | .list => "failed to list users"
  | c => "failed to " ++ c.name ++ " user"

/-- The error of a command that failed in the store. -/
def storeFailure (command : Command) : Store.Failure → CommandError
  | .notFound => ⟨.notFound, "user not found"⟩
  | .conflict message => refusal message
  | .other _ => ⟨.internal, failedMessage command⟩

def successReply : Store.Outcome → Octets
  | .created u | .found u | .updated u => Json.encode (CommandResponse.success u)
  | .listed us => Json.encode (CommandResponse.success us)
  | .deleted _ => Json.encode (CommandResponse.success Deletion.done)

def failureReply (e : CommandError) : Octets :=
  Json.encode (CommandResponse.failure e : CommandResponse Unit)

def reply : Except CommandError Store.Outcome → Octets
  | .ok outcome => successReply outcome
  | .error e => failureReply e

/-- The event that announces a change: its kind and its document. -/
def announce (eventId : Uuid) (now : Time.Instant) : Store.Outcome → Option (EventKind × Octets)
  | .created u => some (.created, Json.encode (Event.of eventId .created now u))
  | .updated u => some (.updated, Json.encode (Event.of eventId .updated now u))
  | .deleted id =>
    some (.deleted, Json.encode (Event.of eventId .deleted now (⟨id⟩ : DeletedUser)))
  | .listed _ | .found _ => none

/-- The identifiers and clock readings that one delivery may use up. -/
structure Fresh where
  userId : UserId
  storedAt : Time.Instant
  eventId : Uuid
  announcedAt : Time.Instant
  deriving DecidableEq

/-- The outcome of an accepted operation in the store, as it is answered. -/
def carryOut (store : Store) (call : Call) (fresh : Fresh) :
    Except CommandError Store.Outcome × Store :=
  let (result, store) := store.perform call fresh.userId fresh.storedAt
  (result.mapError (storeFailure call.command), store)

/-- What is answered and announced after an operation. -/
def conclude (result : Except CommandError Store.Outcome) (fresh : Fresh) :
    Octets × Option (EventKind × Octets) :=
  (reply result, result.toOption.bind (announce fresh.eventId fresh.announcedAt))

/-- A delivery from its payload to its answer, its event and the new store. -/
def dispatch (command : Command) (payload : Octets) (fresh : Fresh) (store : Store) :
    (Octets × Option (EventKind × Octets)) × Store :=
  match accept command payload with
  | .error e => (conclude (.error e) fresh, store)
  | .ok call =>
    let (result, store) := carryOut store call fresh
    (conclude result fresh, store)

end UserDirectory.Server
