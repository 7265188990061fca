import UserDirectory.Broker.Basic
import UserDirectory.Hub.System

/-!
# Forwarding events

A forwarder takes one message after the other out of the mailbox of an event channel and
broadcasts its payload, unchanged, to the connections of a hub. It holds the message until the
broadcast has ended and takes the next one only then, so the events of a channel keep their order.
-/

namespace UserDirectory

/-- A broadcast under way, with the message whose payload it carries. -/
structure Forwarder.Broadcast where
  message : Broker.Message
  task : Hub.TaskId
  deriving DecidableEq, Repr

/-- A task that forwards the events of one channel. -/
structure Forwarder where
  subscription : Broker.SubscriptionId
  broadcast : Option Forwarder.Broadcast := none
  deriving DecidableEq, Repr

namespace Forwarder

/-- The broadcast of a message to the connections of a hub is started. -/
def start (f : Forwarder) (hub : Hub.HubId) (message : Broker.Message) (h : Hub.System) :
    Forwarder × Hub.System :=
  ({ f with broadcast := some { message, task := h.tasks.length } },
    h.launch (.broadcast hub message.payload none))

/-- A forwarder goes on, if it can: it lets a message go whose broadcast has ended, or starts the
next broadcast. -/
def proceed? (f : Forwarder) (hub : Hub.HubId) (b : Broker) (h : Hub.System) :
    Option (Forwarder × Broker × Hub.System) :=
  match f.broadcast with
  | some { message, task } =>
    if (h.outcome? task).isSome then some ({ f with broadcast := none }, b.release message, h)
    else none
  | none =>
    match b.next f.subscription with
    | (.message m, b) =>
      let (f, h) := f.start hub m h
      some (f, b, h)
    | _ => none

end Forwarder

end UserDirectory
