import UserDirectory.Broker.Error
import UserDirectory.Octets

/-!
# The broker

An in-memory publish/subscribe bus with requests. Every subscription has a mailbox of bounded
size; a message goes to each live mailbox of its channel that has room and is lost to the others.

A request is a message whose copies all lead back to one *exchange*. The exchange ends once: with
the first answer to any copy, when the last copy is gone unanswered, when its time is over, or
when nobody waits for it any more. Answers that come later are refused.

`subscribe`, `publish` and `request` look first whether the broker is open and then touch the
mailboxes; `enroll` and `deliver` are the second halves. `close` is likewise `shut` and then
`dismiss`. Each half is one step for other users of the broker.
-/

namespace UserDirectory

open Time (Duration)

namespace Broker

/-- The size of a mailbox unless another is given. -/
def defaultCapacity : Nat := 1024

/-- The number of a subscription, in the order in which subscriptions were made. -/
abbrev SubscriptionId := Nat

/-- The number of an exchange, in the order in which requests were delivered. -/
abbrev ExchangeId := Nat

/-- What travels over a channel. -/
structure Message where
  channel : String
  payload : Octets
  /-- the exchange that an answer ends, if the message is a request -/
  exchange : Option ExchangeId
  deriving DecidableEq, Repr

namespace Message

/-- Whether somebody waits for an answer. -/
def expectsReply (m : Message) : Bool := m.exchange.isSome

end Message

/-- The mailbox of a subscription. -/
structure Mailbox where
  channel : String
  queue : List Message := []
  /-- whether the subscriber still holds it -/
  live : Bool := true
  /-- whether the broker still delivers to it -/
  enrolled : Bool := true
  deriving DecidableEq, Repr

inductive Standing
  | waiting
  | answered (payload : Octets)
  | failed (why : Failure)
  /-- nobody waits for its end any more -/
  | abandoned
  deriving DecidableEq, Repr

/-- A request that was delivered. -/
structure Exchange where
  channel : String
  timeout : Duration
  /-- the copies of the request that are in mailboxes or in the hands of subscribers -/
  copies : Nat
  standing : Standing := .waiting
  deriving DecidableEq, Repr

end Broker

/-- The broker: its mailboxes and exchanges. -/
structure Broker where
  capacity : Nat
  capacity_pos : 0 < capacity
  closed : Bool := false
  mailboxes : List Broker.Mailbox := []
  exchanges : List Broker.Exchange := []
  deriving DecidableEq

namespace Broker

/-- A broker with mailboxes of the given size, but at least one. -/
def init (capacity : Nat) : Broker := { capacity := max capacity 1, capacity_pos := by omega }

/-- Whether the broker is open. -/
def check (b : Broker) : Except Failure Unit := if b.closed then .error .closed else .ok ()

/-- The live subscriptions of a channel that the broker delivers to. -/
def subscriberCount (b : Broker) (channel : String) : Nat :=
  b.mailboxes.countP fun box => box.channel == channel && box.enrolled && box.live

/-! ## Exchanges -/

/-- Ends an exchange that is still waiting. -/
def Exchange.finish (x : Exchange) (standing : Standing) : Exchange :=
  match x.standing with
  | .waiting => { x with standing }
  | _ => x

/-- The exchange after some copies are gone; without copies it can only end unanswered. -/
def Exchange.dropCopies (x : Exchange) (n : Nat) : Exchange :=
  let x := { x with copies := x.copies - n }
  if x.copies = 0 then x.finish (.failed (.noReply x.channel)) else x

def modifyExchange (b : Broker) (x : ExchangeId) (f : Exchange → Exchange) : Broker :=
  { b with exchanges := b.exchanges.modify x f }

/-- A copy of a message is gone. -/
def release (b : Broker) (m : Message) : Broker :=
  match m.exchange with
  | none => b
  | some x => b.modifyExchange x (·.dropCopies 1)

def standing? (b : Broker) (x : ExchangeId) : Option Standing := b.exchanges[x]?.map (·.standing)

/-- The time of an exchange is over. -/
def expire (b : Broker) (x : ExchangeId) : Broker :=
  b.modifyExchange x fun x => x.finish (.failed (.timeout x.channel x.timeout))

/-- Nobody waits for an exchange any more. -/
def abandon (b : Broker) (x : ExchangeId) : Broker :=
  b.modifyExchange x (·.finish .abandoned)

/-- Answers a message. Only the first answer to any copy of a request counts. -/
def respond (b : Broker) (m : Message) (payload : Octets) : Except Failure Unit × Broker :=
  match m.exchange with
  | none => (.error .noReplyExpected, b)
  | some x =>
    match b.standing? x with
    | some .waiting => (.ok (), b.modifyExchange x (·.finish (.answered payload)))
    | _ => (.error .replyDropped, b)

/-! ## Mailboxes -/

/-- A new mailbox of a channel. -/
def enroll (b : Broker) (channel : String) : SubscriptionId × Broker :=
  (b.mailboxes.length, { b with mailboxes := b.mailboxes ++ [{ channel }] })

/-- Whether a mailbox takes a message. -/
def Mailbox.accepts (box : Mailbox) (capacity : Nat) (m : Message) : Bool :=
  box.channel == m.channel && box.enrolled && box.live && box.queue.length < capacity

/-- A mailbox after a message went over its channel: it holds the message if it had room, and is
struck off if its subscriber is gone. -/
def Mailbox.receive (box : Mailbox) (capacity : Nat) (m : Message) : Mailbox :=
  if box.accepts capacity m then { box with queue := box.queue ++ [m] }
  else if box.channel == m.channel && !box.live then { box with enrolled := false }
  else box

/-- Delivers a message and counts the mailboxes that took it. -/
def deliver (b : Broker) (m : Message) : Nat × Broker :=
  (b.mailboxes.countP (·.accepts b.capacity m),
    { b with mailboxes := b.mailboxes.map (·.receive b.capacity m) })

/-- Delivers a request and opens its exchange, if some mailbox took it. -/
def deliverRequest (b : Broker) (channel : String) (payload : Octets) (timeout : Duration) :
    Except Failure ExchangeId × Broker :=
  let x := b.exchanges.length
  let (copies, b) := b.deliver ⟨channel, payload, some x⟩
  if copies = 0 then (.error (.noResponders channel), b)
  else (.ok x, { b with exchanges := b.exchanges ++ [{ channel, timeout, copies }] })

/-- What a subscriber finds in the mailbox. -/
inductive Next
  | message (m : Message)
  /-- nothing yet -/
  | empty
  /-- nothing, and nothing will come -/
  | ended
  deriving DecidableEq, Repr

/-- Takes the oldest message out of a mailbox. -/
def next (b : Broker) (sub : SubscriptionId) : Next × Broker :=
  match b.mailboxes[sub]? with
  | none => (.ended, b)
  | some box =>
    match box.queue with
    | m :: rest =>
      (.message m, { b with mailboxes := b.mailboxes.set sub { box with queue := rest } })
    | [] => (if box.enrolled && box.live then .empty else .ended, b)

/-- Ends a subscription; the messages in its mailbox are gone. -/
def drop (b : Broker) (sub : SubscriptionId) : Broker :=
  match b.mailboxes[sub]? with
  | none => b
  | some box =>
    let b := { b with mailboxes := b.mailboxes.set sub { box with queue := [], live := false } }
    box.queue.foldl release b

def shut (b : Broker) : Broker := { b with closed := true }

/-- Strikes off all mailboxes; what is in them can still be taken out. -/
def dismiss (b : Broker) : Broker :=
  { b with mailboxes := b.mailboxes.map fun box => { box with enrolled := false } }

/-! ## Operations -/

def subscribe (b : Broker) (channel : String) : Except Failure SubscriptionId × Broker :=
  match b.check with
  | .error e => (.error e, b)
  | .ok _ => let (sub, b) := b.enroll channel; (.ok sub, b)

/-- Subscribes to channels in order; when one fails, those before it are dropped. -/
def subscribeAll (b : Broker) : List String → Except Failure (List SubscriptionId) × Broker
  | [] => (.ok [], b)
  | channel :: channels =>
    match b.subscribe channel with
    | (.error e, b) => (.error e, b)
    | (.ok sub, b) =>
      match b.subscribeAll channels with
      | (.error e, b) => (.error e, b.drop sub)
      | (.ok subs, b) => (.ok (sub :: subs), b)

def publish (b : Broker) (channel : String) (payload : Octets) : Except Failure Unit × Broker :=
  match b.check with
  | .error e => (.error e, b)
  | .ok _ => (.ok (), (b.deliver ⟨channel, payload, none⟩).2)

/-- Sends a request. Its end is told by the standing of the exchange. -/
def request (b : Broker) (channel : String) (payload : Octets) (timeout : Duration) :
    Except Failure ExchangeId × Broker :=
  match b.check with
  | .error e => (.error e, b)
  | .ok _ => b.deliverRequest channel payload timeout

def close (b : Broker) : Broker := if b.closed then b else b.shut.dismiss

end Broker

end UserDirectory
