import UserDirectory.Broker.Basic
import UserDirectory.Server

/-!
# Deliveries

A delivery is a message that the command server has taken and works on. Deliveries are handled at
the same time: each goes through its stages on its own, and between two stages any other may go
on. What they share is the bus and the store.

The order of the stages is the order of effects: the store is touched first, then the caller is
answered, and only then the change is announced.
-/

namespace UserDirectory.Server

/-- How far a delivery has come. -/
inductive Stage
  | arrived
  /-- the payload was read and checked; the store is next -/
  | accepted (call : Call)
  /-- the answer is known; the caller is next -/
  | concluded (answer : Octets) (event : Option (EventKind × Octets))
  /-- the caller was answered; the event is next -/
  | answered (event : Option (EventKind × Octets))
  | done
  deriving DecidableEq

/-- A message on a command channel that is being worked on. -/
structure Delivery where
  command : Command
  message : Broker.Message
  stage : Stage := .arrived
  deriving DecidableEq

/-- What deliveries share. -/
structure Shared where
  broker : Broker
  store : Store
  /-- whether the bus refuses what is published, though it is open -/
  muted : Bool := false

namespace Shared

/-- Publishes a message; a failure is not reported to anybody. -/
def publish (s : Shared) (channel : String) (payload : Octets) : Shared :=
  if s.muted then s else { s with broker := (s.broker.publish channel payload).2 }

end Shared

namespace Delivery

/-- The stage after reading and checking the payload. -/
def accept (d : Delivery) : Stage :=
  match Server.accept d.command d.message.payload with
  | .ok call => .accepted call
  | .error e => .concluded (failureReply e) none

/-- The stage after the store has done its part, or has failed for a reason of its own before it
looked at the operation. -/
def settle (call : Call) (fresh : Fresh) (trouble : Option Store.Failure) (store : Store) :
    Stage × Store :=
  match trouble with
  | some e => (.concluded (failureReply (storeFailure call.command e)) none, store)
  | none =>
    let (result, store) := carryOut store call fresh
    let (answer, event) := conclude result fresh
    (.concluded answer event, store)

/-- Answers the caller, if there is one. -/
def respond (d : Delivery) (answer : Octets) (s : Shared) : Shared :=
  if d.message.expectsReply then { s with broker := (s.broker.respond d.message answer).2 } else s

/-- Publishes the event, if there is one, and lets the message go. -/
def finish (d : Delivery) (event : Option (EventKind × Octets)) (s : Shared) : Shared :=
  let s :=
    match event with
    | some (kind, payload) => s.publish kind.channel payload
    | none => s
  { s with broker := s.broker.release d.message }

/-- The next stage of a delivery and what it does to the bus and the store. -/
def proceed (d : Delivery) (fresh : Fresh) (trouble : Option Store.Failure) (s : Shared) :
    Delivery × Shared :=
  match d.stage with
  | .arrived => ({ d with stage := d.accept }, s)
  | .accepted call =>
    let (stage, store) := settle call fresh trouble s.store
    ({ d with stage }, { s with store })
  | .concluded answer event => ({ d with stage := .answered event }, d.respond answer s)
  | .answered event => ({ d with stage := .done }, d.finish event s)
  | .done => (d, s)

end Delivery

/-- Takes the next message out of the mailbox of a command, if there is one. -/
def take? (command : Command) (sub : Broker.SubscriptionId) (s : Shared) :
    Option (Delivery × Shared) :=
  match s.broker.next sub with
  | (.message message, broker) => some ({ command, message }, { s with broker })
  | _ => none

end UserDirectory.Server
