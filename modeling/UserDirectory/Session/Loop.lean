import UserDirectory.Broker.Basic
import UserDirectory.Hub.System
import UserDirectory.Session.Basic

/-!
# The life of a connection

A session serves one connection, one frame after the other. It reacts to a frame, waits for the
outcome of the operation if there is one, sends the reply if one goes out, and turns to the next
frame. A close, a lost connection or a reply that could not be sent ends it. Whatever ended it,
the connection is taken out of the hub, which closes it.
-/

namespace UserDirectory.Session

/-- What a session is doing. -/
inductive Phase
  /-- it waits for the next frame -/
  | listening
  /-- it waits for the outcome of an operation -/
  | calling (requestId : String) (call : Call) (exchange : Broker.ExchangeId)
  /-- it waits for a reply to be sent -/
  | replying (task : Hub.TaskId)
  /-- it waits for the connection to be taken out of the hub -/
  | leaving (task : Hub.TaskId)
  | ended
  deriving DecidableEq

end Session

/-- A connection that is served. -/
structure Session where
  hub : Hub.HubId
  connection : Hub.ConnectionId
  /-- what came in and was not looked at yet -/
  inbox : List Session.Inbound := []
  phase : Session.Phase := .listening
  deriving DecidableEq

namespace Session

/-- What a session works with. -/
structure Shared where
  broker : Broker
  hub : Hub.System
  client : Client

/-- The reply is handed to the hub. -/
def send (s : Session) (r : Reply) (w : Shared) : Session × Shared :=
  ({ s with phase := .replying w.hub.tasks.length },
    { w with hub := w.hub.launch (.sendTo s.hub s.connection (Json.encode r)) })

/-- The session ends: the connection is to be taken out of the hub. -/
def leave (s : Session) (w : Shared) : Session × Shared :=
  ({ s with phase := .leaving w.hub.tasks.length },
    { w with hub := w.hub.launch (.unregister s.hub s.connection) })

/-- The outcome of an operation is known. -/
def settle (s : Session) (requestId : String) (call : Call)
    (reply : Except Broker.Failure Octets) (w : Shared) : Session × Shared :=
  match directReply? requestId call (call.read reply) with
  | some r => s.send r w
  | none => ({ s with phase := .listening }, w)

/-- Reacts to a data frame. An operation is sent under a fresh identifier. -/
def handle (s : Session) (frame : Octets) (fresh : Uuid) (w : Shared) : Session × Shared :=
  match react frame with
  | .reply r => s.send r w
  | .call requestId call =>
    match w.broker.request call.channel (call.request fresh) w.client.timeout with
    | (.error e, broker) => s.settle requestId call (.error e) { w with broker }
    | (.ok x, broker) => ({ s with phase := .calling requestId call x }, { w with broker })

/-- Looks at what came in. -/
def receive (s : Session) (i : Inbound) (fresh : Uuid) (w : Shared) : Session × Shared :=
  match i with
  | .data frame => s.handle frame fresh w
  | .control => (s, w)
  | .close | .lost => s.leave w

/-- A session goes on, if it can. -/
def proceed? (s : Session) (fresh : Uuid) (w : Shared) : Option (Session × Shared) :=
  match s.phase with
  | .listening =>
    match s.inbox with
    | [] => none
    | i :: inbox => some ({ s with inbox }.receive i fresh w)
  | .calling requestId call x =>
    match w.broker.standing? x with
    | some (.answered payload) => some (s.settle requestId call (.ok payload) w)
    | some (.failed e) => some (s.settle requestId call (.error e) w)
    | _ => none
  | .replying t =>
    match w.hub.outcome? t with
    | none => none
    | some (.sent (.failed _)) => some (s.leave w)
    | some _ => some ({ s with phase := .listening }, w)
  | .leaving t =>
    if (w.hub.outcome? t).isSome then some ({ s with phase := .ended }, w) else none
  | .ended => none

end Session

end UserDirectory
