import UserDirectory.Broker.Basic
import UserDirectory.Client.Basic

/-!
# Rehearsals of a client

One request over a fresh broker whose channel is watched by responders that follow a script.
-/

namespace UserDirectory.Client

open Time (Duration)

/-- What the responders do. -/
inductive Manner
  /-- they take the request and answer it after a delay -/
  | answer (delay : Duration)
  /-- they never look -/
  | silent
  /-- they take the request and drop it -/
  | drop
  /-- they have unsubscribed before the request -/
  | unsubscribed
  /-- there are none -/
  | absent
  /-- the broker was closed before the request -/
  | closed
  deriving DecidableEq, Repr

/-- The broker with a number of subscriptions to a channel, and the subscriptions. -/
def subscribers (b : Broker) (channel : String) (count : Nat) : List Broker.SubscriptionId × Broker :=
  match b.subscribeAll (List.replicate count channel) with
  | (.ok subs, b) => (subs, b)
  | (.error _, b) => ([], b)

/-- Takes the next message out of each mailbox. -/
def takeAll (b : Broker) (subs : List Broker.SubscriptionId) : List Broker.Message × Broker :=
  subs.foldl
    (fun (taken, b) sub =>
      match b.next sub with
      | (.message m, b) => (taken ++ [m], b)
      | (_, b) => (taken, b))
    ([], b)

/-- Answers the messages in order, each with its own reply. -/
def answerAll (b : Broker) (messages : List Broker.Message) (replies : List Octets) : Broker :=
  (messages.zip replies).foldl (fun b (m, reply) => (b.respond m reply).2) b

/-- The requests that the responders took, and how the request ended. -/
def rehearse (manner : Manner) (channel : String) (request : Octets) (timeout : Duration)
    (replies : List Octets) : List Octets × Except Broker.Failure Octets :=
  let count := if manner = .absent then 0 else replies.length
  let (subs, b) := subscribers (.init Broker.defaultCapacity) channel count
  let b :=
    match manner with
    | .unsubscribed => subs.foldl Broker.drop b
    | .closed => b.close
    | _ => b
  match b.request channel request timeout with
  | (.error e, _) => ([], .error e)
  | (.ok x, b) =>
    let (taken, b) := if manner = .silent then ([], b) else takeAll b subs
    let b :=
      match manner with
      | .answer delay => if delay.nanos < timeout.nanos then answerAll b taken replies else b
      | .drop => taken.foldl Broker.release b
      | _ => b
    let result :=
      match (b.expire x).standing? x with
      | some (.answered payload) => .ok payload
      | some (.failed why) => .error why
      | _ => .error .closed
    (taken.map (·.payload), result)

end UserDirectory.Client
