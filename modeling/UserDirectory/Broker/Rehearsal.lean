import UserDirectory.Broker.Basic

/-!
# Rehearsals of the broker

Subscriptions, messages and requests with names, a clock, and steps that are taken one after
another. Requests wait in the background; each step tells which of them ended during it.
-/

namespace UserDirectory.Broker

open Time (Duration)

/-- A step of a rehearsal, in which everything goes by name. -/
inductive Step
  | subscribe (name channel : String)
  | dropSubscription (name : String)
  | publish (channel : String) (payload : Octets)
  | request (name channel : String) (payload : Octets) (timeout : Duration)
  /-- take the next message, and keep it under a name if one is given -/
  | next (name : String) (keepAs : Option String)
  | respond (message : String) (payload : Octets)
  | dropMessage (message : String)
  | advance (time : Duration)
  | count (channel : String)
  | close

inductive Answer
  | ok
  | subscribed (channel : String)
  | sent
  | existed (b : Bool)
  | next (found : Next)
  | counted (n : Nat)
  | failed (why : Failure)
  | noSuchMessage
  | noSuchSubscription

structure Pending where
  name : String
  exchange : ExchangeId
  deadline : Nat

structure Rehearsal where
  broker : Broker
  now : Nat := 0
  subscriptions : List (String × SubscriptionId) := []
  messages : List (String × Message) := []
  pending : List Pending := []

/-- A list of named things with one of them replaced or added, and the one replaced. -/
def putNamed {α : Type} (name : String) (a : α) (named : List (String × α)) :
    Option α × List (String × α) :=
  (named.lookup name, (name, a) :: named.filter (·.1 != name))

namespace Rehearsal

/-- Takes one step; the end of a request that ends at once is told with its name. -/
def act (r : Rehearsal) : Step → Answer × List (String × Standing) × Rehearsal
  | .subscribe name channel =>
    match r.broker.subscribe channel with
    | (.error e, broker) => (.failed e, [], { r with broker })
    | (.ok sub, broker) =>
      let (old, subscriptions) := putNamed name sub r.subscriptions
      let broker := match old with
        | none => broker
        | some old => broker.drop old
      (.subscribed channel, [], { r with broker, subscriptions })
  | .dropSubscription name =>
    match r.subscriptions.lookup name with
    | none => (.existed false, [], r)
    | some sub =>
      (.existed true, [], { r with
        broker := r.broker.drop sub
        subscriptions := r.subscriptions.filter (·.1 != name) })
  | .publish channel payload =>
    match r.broker.publish channel payload with
    | (.error e, broker) => (.failed e, [], { r with broker })
    | (.ok _, broker) => (.ok, [], { r with broker })
  | .request name channel payload timeout =>
    match r.broker.request channel payload timeout with
    | (.error e, broker) => (.sent, [(name, .failed e)], { r with broker })
    | (.ok exchange, broker) =>
      let pending := r.pending ++ [{ name, exchange, deadline := r.now + timeout.nanos }]
      (.sent, [], { r with broker, pending })
  | .next name keepAs =>
    match r.subscriptions.lookup name with
    | none => (.noSuchSubscription, [], r)
    | some sub =>
      match r.broker.next sub, keepAs with
      | (.message m, broker), none => (.next (.message m), [], { r with broker := broker.release m })
      | (.message m, broker), some keepAs =>
        let (old, messages) := putNamed keepAs m r.messages
        let broker := match old with
          | none => broker
          | some old => broker.release old
        (.next (.message m), [], { r with broker, messages })
      | (found, broker), _ => (.next found, [], { r with broker })
  | .respond message payload =>
    match r.messages.lookup message with
    | none => (.noSuchMessage, [], r)
    | some m =>
      match r.broker.respond m payload with
      | (.error e, broker) => (.failed e, [], { r with broker })
      | (.ok _, broker) => (.ok, [], { r with broker })
  | .dropMessage message =>
    match r.messages.lookup message with
    | none => (.existed false, [], r)
    | some m =>
      (.existed true, [], { r with
        broker := r.broker.release m
        messages := r.messages.filter (·.1 != message) })
  | .advance time => (.ok, [], { r with now := r.now + time.nanos })
  | .count channel => (.counted (r.broker.subscriberCount channel), [], r)
  | .close => (.ok, [], { r with broker := r.broker.close })

def expireDue (r : Rehearsal) : Rehearsal :=
  { r with broker := (r.pending.filter (·.deadline ≤ r.now)).foldl (·.expire ·.exchange) r.broker }

/-- Takes the requests that have ended out of the background. -/
def collect (r : Rehearsal) : List (String × Standing) × Rehearsal :=
  let standing (p : Pending) : Standing := (r.broker.standing? p.exchange).getD .abandoned
  let (waiting, ended) := r.pending.partition fun p => standing p == .waiting
  (ended.map fun p => (p.name, standing p), { r with pending := waiting })

/-- Takes one step and tells which requests ended during it. -/
def perform (r : Rehearsal) (step : Step) : Answer × List (String × Standing) × Rehearsal :=
  let (answer, atOnce, r) := r.act step
  let (ended, r) := r.expireDue.collect
  (answer, atOnce ++ ended, r)

end Rehearsal

end UserDirectory.Broker
