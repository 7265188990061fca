import UserDirectory.Call
import UserDirectory.Client.Error

/-!
# Commands as their caller sees them

A command is one request on the bus and one answer. Here are the request that a call sends and
the meaning of the answer; the bus itself stands between them.

For the operations on users, `Call.request` is the request that is sent and `Call.read` what its
answer means.
-/

namespace UserDirectory

open Json (ToTree OfTree)
open Time (Duration)

namespace Client

/-- The time that a command may take unless another is given. -/
def defaultTimeout : Duration := .ofSeconds 5

/-- The request that carries data under a fresh identifier. -/
def request {α : Type} [ToTree α] (requestId : Uuid) (data : α) : Octets :=
  Json.encode (⟨requestId.text, data⟩ : CommandRequest α)

/-- What an answer that could be read means: its data, if it succeeded, or its error. -/
def interpret {α : Type} (r : CommandResponse α) : Except Failure (Option α) :=
  if r.ok then .ok r.data
  else
    match r.error with
    | some e => .error (.ofCommandError e)
    | none => .error .unexplained

/-- What the end of a request means to a caller who can do without data. -/
def readOptional (α : Type) [OfTree α] (reply : Except Broker.Failure Octets) :
    Except Failure (Option α) :=
  match reply with
  | .error e => .error (.ofBroker e)
  | .ok octets =>
    match Json.decode (α := CommandResponse α) octets with
    | none => .error .undecodable
    | some r => interpret r

/-- What the end of a request means to a caller who needs data. -/
def read (α : Type) [OfTree α] (channel : String) (reply : Except Broker.Failure Octets) :
    Except Failure α :=
  match readOptional α reply with
  | .error e => .error e
  | .ok (some a) => .ok a
  | .ok none => .error (.emptyResponse channel)

end Client

/-- A caller of commands. -/
structure Client where
  timeout : Duration
  timeout_pos : 0 < timeout.nanos
  deriving DecidableEq

namespace Client

/-- A caller who waits for the given time; no time at all means the default. -/
def init (timeout : Duration) : Client :=
  ⟨timeout.orDefault defaultTimeout, Duration.orDefault_pos (by decide)⟩

/-- The time that one call may take; no time at all means the caller's own. -/
def timeoutFor (c : Client) (given : Duration) : Duration := given.orDefault c.timeout

theorem timeoutFor_pos (c : Client) (given : Duration) : 0 < (c.timeoutFor given).nanos :=
  Duration.orDefault_pos c.timeout_pos

end Client

/-! ## Operations on users -/

/-- The answer of an operation on users. -/
inductive CallAnswer
  | user (u : User)
  | users (us : List User)
  | deletion (d : Deletion)
  deriving DecidableEq

instance : ToTree CallAnswer :=
  ⟨fun
    | .user u => Json.toTree u
    | .users us => Json.toTree us
    | .deletion d => Json.toTree d⟩

/-- The document of an answer as a value of unknown shape. -/
def CallAnswer.value (a : CallAnswer) : Json.Value := (Json.toTree a).value?.getD .null

namespace Call

/-- The request that an operation sends. -/
def request (requestId : Uuid) : Call → Octets
  | create input => Client.request requestId input
  | list => Client.request requestId (⟨⟩ : ListRequest)
  | get id => Client.request requestId (⟨id.text⟩ : IdRequest)
  | update id changes => Client.request requestId (⟨id.text, changes⟩ : UpdateRequest)
  | delete id => Client.request requestId (⟨id.text⟩ : IdRequest)

/-- What the end of its request means to an operation. A list without data is empty, and a
deletion without data was made. -/
def read (c : Call) (reply : Except Broker.Failure Octets) : Except Client.Failure CallAnswer :=
  match c with
  | create _ | get _ | update _ _ => (Client.read User c.channel reply).map .user
  | list => (Client.readOptional (List User) reply).map fun us => .users (us.getD [])
  | delete _ => (Client.readOptional Deletion reply).map fun d => .deletion (d.getD .done)

end Call

end UserDirectory
