import UserDirectory.Client.Basic
import UserDirectory.Proofs.Server

/-!
# An operation seen by its caller and by the store

An operation can be applied to a store directly: its rules are checked, then the store carries it
out (`Call.apply`). Over the bus it is written as a request, read by the server, dispatched,
answered, and the answer is read by the caller. `read_dispatch` says that the two come to the same,
whatever the operation and the store.
-/

namespace UserDirectory

open Json (OfTree ToTree Lawful NeverNull)
open Server (accept data? dispatch failureReply successReply refusal storeFailure)
open Store (Outcome Made)

/-- What a failure of the store means to a caller. -/
def Store.Failure.seen (command : Command) : Store.Failure → Client.Failure
  | .notFound => .notFound "user not found"
  | .conflict message => .badRequest message
  | .other _ => .service .internal (Server.failedMessage command)

/-- The answer of an operation that was made. -/
def Store.Outcome.answer : Outcome → CallAnswer
  | .created u | .found u | .updated u => .user u
  | .listed us => .users us
  | .deleted _ => .deletion .done

namespace Call

/-- An operation applied to a store directly: its rules are checked, then it is carried out. -/
def apply (c : Call) (freshId : UserId) (now : Time.Instant) (s : Store) :
    Except Client.Failure CallAnswer × Store :=
  match c.validate with
  | .error rule => (.error (.badRequest rule.message), s)
  | .ok _ =>
    match s.perform c freshId now with
    | (.ok outcome, s') => (.ok outcome.answer, s')
    | (.error e, s') => (.error (e.seen c.command), s')

/-! ## The request -/

theorem data?_request {α : Type} [ToTree α] [OfTree α] [Omissible α] [Lawful α] (requestId : Uuid)
    (a : α) : data? α (Client.request requestId a) = .ok a := by
  rw [data?, Client.request, (Json.faithful (⟨requestId.text, a⟩ : CommandRequest α)).decode_encode]

/-- A list request is written as one that is there among those that may be missing. -/
theorem data?_listRequest (requestId : Uuid) :
    data? (Option ListRequest) (Client.request requestId (⟨⟩ : ListRequest)) = .ok (some ⟨⟩) :=
  data?_request requestId (some (⟨⟩ : ListRequest))

theorem checkId_text (id : UserId) : Validation.checkId id.text = .ok id := by
  rw [Validation.checkId, UserId.parse?_text]

/-- **The server accepts a request as the operation that sent it, if it keeps the rules.** -/
theorem accept_request (c : Call) (requestId : Uuid) :
    accept c.command (c.request requestId) =
      match c.validate with
      | .error rule => .error (refusal rule.message)
      | .ok _ => .ok c := by
  cases c with
  | create input =>
    -- what is left after reading is the check itself
    simp only [command, request, accept, data?_request, Server.ok_bind, validate]
    cases Validation.checkNew input <;> rfl
  | list =>
    simp only [command, request, accept, data?_listRequest, Server.ok_bind, validate]
    rfl
  | get id | delete id =>
    simp only [command, request, accept, data?_request, Server.ok_bind, checkId_text, validate]
    rfl
  | update id changes =>
    simp only [command, request, accept, data?_request, Server.ok_bind, checkId_text, validate]
    cases Validation.checkChanges changes <;> rfl

/-! ## The answer -/

/-- **The caller reads the error that the server gave.** -/
theorem read_failureReply (c : Call) {e : CommandError} (he : e.code.Proper) :
    c.read (.ok (failureReply e)) = .error (.ofCommandError e) := by
  cases c with
  | create | get | update =>
    simp only [read, Client.read, Client.readOptional, Server.decode_failureReply he]
    rfl
  | list | delete =>
    simp only [read, Client.readOptional, Server.decode_failureReply he]
    rfl

/-- **The caller reads what the store gave.** -/
theorem read_successReply {c : Call} {s s' : Store} {freshId : UserId} {now : Time.Instant}
    {outcome : Outcome} (hmade : Made s freshId now c outcome s') :
    c.read (.ok (successReply outcome)) = .ok outcome.answer := by
  cases hmade with
  | created | found | updated =>
    simp only [read, Client.read, Client.readOptional, successReply, Server.decode_success]
    rfl
  | listed | deleted =>
    simp only [read, Client.readOptional, successReply, Server.decode_success]
    rfl

/-! ## There and back -/

/-- **Over the bus an operation comes to what it comes to when it is applied directly.** -/
theorem read_dispatch (c : Call) (requestId : Uuid) (fresh : Server.Fresh) (s : Store) :
    let ((answer, _), after) := dispatch c.command (c.request requestId) fresh s
    (c.read (.ok answer), after) = c.apply fresh.userId fresh.storedAt s := by
  have haccept := c.accept_request requestId
  cases hrules : c.validate with
  | error rule =>
    rw [hrules] at haccept
    simp only [dispatch, haccept, apply, hrules]
    exact Prod.ext (c.read_failureReply rfl) rfl
  | ok _ =>
    rw [hrules] at haccept
    obtain ⟨outcome, s', hperform, hmade⟩ | ⟨e, hperform, he⟩ :=
      s.perform_cases c fresh.userId fresh.storedAt
    · simp only [dispatch, haccept, apply, hrules, Server.carryOut, hperform]
      exact Prod.ext (read_successReply hmade) rfl
    · simp only [dispatch, haccept, apply, hrules, Server.carryOut, hperform]
      rcases he with rfl | rfl
      · exact Prod.ext (c.read_failureReply rfl) rfl
      · exact Prod.ext (c.read_failureReply rfl) rfl

end Call

end UserDirectory
