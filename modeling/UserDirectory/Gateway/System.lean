import UserDirectory.Forwarder
import UserDirectory.Server.Delivery
import UserDirectory.Session.Loop

/-!
# The gateway as a whole

Bus, store, command loops, deliveries, forwarders, hub and sessions, put together. Each of them
goes on in small steps, and `step` says which steps may be taken: a command loop takes a message,
a delivery, a session or a forwarder goes on, an operation of the hub goes on, a request runs out
of time, or time passes. Any order of such steps is a run.

Identifiers are numbered and clock readings are counted, so no two identifiers are equal and no
two readings are.
-/

namespace UserDirectory

open Time (Duration)

namespace Gateway

/-- What the store does before it looks at an operation. -/
structure Trouble where
  /-- it waits -/
  delay : Duration := .zero
  /-- it fails -/
  failure : Option Store.Failure := none
  deriving DecidableEq

/-- A task that takes the messages of one command. -/
structure CommandLoop where
  command : Command
  subscription : Broker.SubscriptionId
  deriving DecidableEq

/-- A delivery with the moment from which the store is ready for it. -/
structure Job where
  delivery : Server.Delivery
  ready : Nat := 0
  deriving DecidableEq

/-- The number of the one hub. -/
def theHub : Hub.HubId := 0

end Gateway

/-- The parts of a gateway, with the time in nanoseconds. -/
structure Gateway where
  now : Nat := 0
  /-- the number of identifiers that were made -/
  identifiers : Nat := 0
  /-- the number of times that the clock was read -/
  readings : Nat := 0
  client : Client
  shared : Server.Shared
  troubles : Command → Gateway.Trouble
  hub : Hub.System
  loops : List Gateway.CommandLoop := []
  jobs : List Gateway.Job := []
  forwarders : List Forwarder := []
  sessions : List Session := []
  /-- when each exchange runs out of time -/
  deadlines : List Nat := []

namespace Gateway

/-- A gateway in which nothing runs yet. -/
def init (capacity : Nat) (commandTimeout : Duration) (troubles : Command → Trouble) : Gateway where
  client := .init commandTimeout
  shared := { broker := .init capacity, store := .empty }
  troubles
  hub := .init [Hub.defaultWriteTimeout]

def broker (g : Gateway) : Broker := g.shared.broker

def withBroker (g : Gateway) (broker : Broker) : Gateway :=
  { g with shared := { g.shared with broker } }

/-- The identifier of a given number. -/
def identifier (n : Nat) : Uuid := .ofSerial n

/-- What the clock shows when it is read for the `n`-th time. -/
def reading (n : Nat) : Time.Instant := .onDay ⟨2024, 1, 1, by decide⟩ n

/-- The identifiers and readings that the next delivery may use up. -/
def fresh (g : Gateway) : Server.Fresh where
  userId := ⟨identifier g.identifiers⟩
  eventId := identifier (g.identifiers + 1)
  storedAt := reading g.readings
  announcedAt := reading (g.readings + 1)

/-- The identifiers and readings that a delivery may have used are used up. -/
def useFresh (g : Gateway) : Gateway :=
  { g with identifiers := g.identifiers + 2, readings := g.readings + 2 }

/-- Notes when the exchanges that were opened at this moment run out of time. -/
def noteDeadlines (g : Gateway) : Gateway :=
  { g with deadlines := g.deadlines ++
      (g.broker.exchanges.drop g.deadlines.length).map fun x => g.now + x.timeout.nanos }

/-! ## Steps -/

/-- A command loop takes its next message. -/
def take? (g : Gateway) (loop : CommandLoop) : Option Gateway :=
  (Server.take? loop.command loop.subscription g.shared).map fun (delivery, shared) =>
    { g with shared, jobs := g.jobs ++ [{ delivery }] }

/-- A delivery goes on; once it is accepted, it waits until the store is ready. -/
def work? (g : Gateway) (i : Nat) (job : Job) : Option Gateway :=
  if g.now < job.ready || job.delivery.stage == .done then none
  else
    let trouble := g.troubles job.delivery.command
    let (delivery, shared) := job.delivery.proceed g.fresh trouble.failure g.shared
    let ready :=
      match delivery.stage with
      | .accepted _ => g.now + trouble.delay.nanos
      | _ => job.ready
    some { g.useFresh with shared, jobs := g.jobs.set i { delivery, ready } }

/-- A session goes on. -/
def talk? (g : Gateway) (i : Nat) (session : Session) : Option Gateway :=
  (session.proceed? (identifier g.identifiers) ⟨g.broker, g.hub, g.client⟩).map
    fun (session, w) =>
      { g.withBroker w.broker with
        hub := w.hub
        identifiers := g.identifiers + 1
        sessions := g.sessions.set i session }.noteDeadlines

/-- A forwarder goes on. -/
def forward? (g : Gateway) (i : Nat) (f : Forwarder) : Option Gateway :=
  (f.proceed? theHub g.broker g.hub).map fun (f, broker, hub) =>
    { g.withBroker broker with hub, forwarders := g.forwarders.set i f }

/-- A request runs out of time. -/
def expire? (g : Gateway) (x : Broker.ExchangeId) (deadline : Nat) : Option Gateway :=
  if deadline ≤ g.now && g.broker.standing? x == some .waiting then
    some (g.withBroker (g.broker.expire x))
  else none

inductive Event
  | take (loop : Nat)
  | work (job : Nat)
  | talk (session : Nat)
  | forward (forwarder : Nat)
  | expire (x : Broker.ExchangeId)
  | hub (e : Hub.Event)
  | pass (nanos : Nat)

/-- What becomes of a gateway by an event, if the event may happen. -/
def step (g : Gateway) : Event → Option Gateway
  | .take i => g.loops[i]?.bind g.take?
  | .work i => g.jobs[i]?.bind (g.work? i)
  | .talk i => g.sessions[i]?.bind (g.talk? i)
  | .forward i => g.forwarders[i]?.bind (g.forward? i)
  | .expire x => g.deadlines[x]?.bind (g.expire? x)
  | .hub e => (g.hub.step e).map fun hub => { g with hub }
  | .pass nanos => some { g with now := g.now + nanos }

/-- What becomes of a gateway by a sequence of events, if each of them may happen. -/
def run (g : Gateway) : List Event → Option Gateway
  | [] => some g
  | e :: es => (g.step e).bind (run · es)

/-! ## What is asked of a gateway from outside -/

def request (g : Gateway) (channel : String) (payload : Octets) (timeout : Duration) :
    Except Broker.Failure Broker.ExchangeId × Gateway :=
  let (result, broker) := g.broker.request channel payload timeout
  (result, (g.withBroker broker).noteDeadlines)

/-- Sends the request of an operation, as the client of the gateway. -/
def call (g : Gateway) (c : Call) : Except Broker.Failure Broker.ExchangeId × Gateway :=
  let g' := { g with identifiers := g.identifiers + 1 }
  g'.request c.channel (c.request (identifier g.identifiers)) g.client.timeout

def publish (g : Gateway) (channel : String) (payload : Octets) :
    Except Broker.Failure Unit × Gateway :=
  if g.shared.muted then (.error .closed, g)
  else
    let (result, broker) := g.broker.publish channel payload
    (result, g.withBroker broker)

/-- Subscribes a command server to all its channels. -/
def startServer (g : Gateway) : Except Broker.Failure (List Broker.SubscriptionId) × Gateway :=
  match g.broker.subscribeAll (Command.all.map (·.channel)) with
  | (.error e, broker) => (.error e, g.withBroker broker)
  | (.ok subs, broker) =>
    let loops := Command.all.zipWith CommandLoop.mk subs
    (.ok subs, { g.withBroker broker with loops := g.loops ++ loops })

/-- Subscribes forwarders to all event channels. -/
def startForwarders (g : Gateway) : Except Broker.Failure (List Broker.SubscriptionId) × Gateway :=
  match g.broker.subscribeAll (EventKind.all.map (·.channel)) with
  | (.error e, broker) => (.error e, g.withBroker broker)
  | (.ok subs, broker) =>
    (.ok subs, { g.withBroker broker with
      forwarders := g.forwarders ++ subs.map fun subscription => { subscription } })

/-- Ends subscriptions; whoever took messages from them takes no more. -/
def unsubscribe (g : Gateway) (subs : List Broker.SubscriptionId) : Gateway :=
  g.withBroker (subs.foldl Broker.drop g.broker)

/-- A new connection enters the hub, with a session that serves it. -/
def connect (g : Gateway) : Gateway :=
  let session : Session := { hub := theHub, connection := g.hub.connections.length }
  let register : Hub.Operation := .register theHub
  let hub := (g.hub.launch register).startOperation g.hub.tasks.length register
  { g with hub, sessions := g.sessions ++ [session] }

/-- Something comes in for a session. -/
def deliver (g : Gateway) (session : Nat) (i : Session.Inbound) : Gateway :=
  { g with sessions := g.sessions.modify session fun s => { s with inbox := s.inbox ++ [i] } }

end Gateway

end UserDirectory
