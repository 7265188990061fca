import UserDirectory.Gateway.Schedule
import UserDirectory.Rest.Basic

/-!
# Rehearsals of the gateway

A whole gateway with its surroundings: callers on the bus and over the web, peers with names at
the other end of the socket connections, and observers of the event channels. Steps are taken one
after another, and after each a little time passes in which everything comes to rest.
-/

namespace UserDirectory.Gateway

open Time (Duration)

/-! ## Peers -/

/-- The other end of a socket connection. -/
structure Peer where
  name : String
  session : Nat
  connection : Hub.ConnectionId
  /-- the number of frames that it has seen -/
  seen : Nat := 0
  leaving : Bool := false
  /-- whether it has seen the close of the gateway -/
  closed : Bool := false

/-- What a peer sees. -/
inductive Sight
  | frame (payload : Octets)
  | closed
  deriving DecidableEq, Repr

/-! ## Steps -/

inductive Step
  /-- a request on the bus, and waiting for its end -/
  | request (channel : String) (payload : Octets) (timeout : Duration)
  | publish (channel : String) (payload : Octets)
  /-- a request over the web -/
  | rest (q : Rest.Request)
  /-- an operation by the client of the gateway -/
  | call (c : Call)
  | connect (name : String)
  | send (name : String) (i : Session.Inbound)
  /-- a connection is lost, and its peer forgotten -/
  | lose (name : String)
  | advance (time : Duration)
  /-- the bus refuses what is published, or takes it again -/
  | mute (on : Bool)
  | startServer
  | stopServer
  | startForwarders
  | stopForwarders
  | closeHub
  | closeBroker

inductive Answer
  | ok
  | sendFailed
  | noSuchPeer
  | wasRunning (b : Bool)
  | ended (result : Except Broker.Failure Octets)
  | failed (why : Broker.Failure)
  | response (r : Rest.Response)
  | called (result : Except Client.Failure CallAnswer)

/-- What can be seen after a step. -/
structure View where
  answer : Answer
  /-- what was published on the event channels -/
  events : List (String × Octets)
  /-- what the peers have seen -/
  sights : List (String × List Sight)
  connections : Nat
  users : Nat

structure Rehearsal where
  stage : Stage
  /-- how long a request over the web may take -/
  patience : Duration
  peers : List Peer := []
  /-- the subscriptions of those who watch the event channels -/
  observers : List Broker.SubscriptionId := []
  /-- the subscriptions of the server that was started last, unless it was stopped -/
  server : Option (List Broker.SubscriptionId) := none
  /-- the subscriptions of the forwarders that were started last, unless they were stopped -/
  forwarders : Option (List Broker.SubscriptionId) := none

namespace Rehearsal

def gateway (r : Rehearsal) : Gateway := r.stage.gateway

def withGateway (r : Rehearsal) (gateway : Gateway) : Rehearsal :=
  { r with stage := { r.stage with gateway } }

/-! ## Requests in the foreground -/

/-- How an exchange ended, once it has. -/
def outcome? (s : Stage) (x : Broker.ExchangeId) : Option (Except Broker.Failure Octets) :=
  match s.gateway.broker.standing? x with
  | some (.answered payload) => some (.ok payload)
  | some (.failed e) => some (.error e)
  | _ => none

/-- Waits for the end of an exchange, but only to the moment `limit`; an exchange that has not
ended by then is given up. -/
def await (r : Rehearsal) (x : Broker.ExchangeId) (limit : Nat) :
    Option (Except Broker.Failure Octets) × Rehearsal :=
  let stage := r.stage.runUntil (fun s => (outcome? s x).isSome) limit
  let r := { r with stage }
  match outcome? stage x with
  | some result => (some result, r)
  | none => (none, r.withGateway (r.gateway.withBroker (r.gateway.broker.abandon x)))

/-- Waits for the end of a request that was just sent, as long as the request itself may take and
as `patience` lasts. What comes only when patience is at its end comes too late. -/
def finish (r : Rehearsal) (timeout : Duration) (patience : Option Duration)
    (sent : Except Broker.Failure Broker.ExchangeId) :
    Option (Except Broker.Failure Octets) × Rehearsal :=
  match sent with
  | .error e => (some (.error e), r)
  | .ok x =>
    let limit := r.gateway.now + (patience.getD timeout).nanos
    let (result, r) := r.await x limit
    (result.filter fun _ => patience.isNone || r.gateway.now < limit, r)

/-- Performs an operation as the client of the gateway; nothing comes back if `patience` runs
out. -/
def call (r : Rehearsal) (c : Call) (patience : Option Duration) :
    Option (Except Client.Failure CallAnswer) × Rehearsal :=
  let (sent, gateway) := r.gateway.call c
  let (result, r) := (r.withGateway gateway).finish gateway.client.timeout patience sent
  (result.map c.read, r)

/-- Works out the response to a request over the web. Without any patience nothing is looked at
but a request for the methods of a path, which is answered before time counts. -/
def rest (r : Rehearsal) (q : Rest.Request) : Rest.Response × Rehearsal :=
  if r.patience = .zero ∧ q.method ≠ .options then (Rest.tookTooLong q, r)
  else match Rest.react q with
  | .respond response => (response, r)
  | .report =>
    let g := r.gateway
    let health : Rest.Health :=
      { timestamp := reading g.readings, connections := (g.hub.members theHub).length }
    (.json 200 health, r.withGateway { g with readings := g.readings + 1 })
  | .call c =>
    match r.call c (some r.patience) with
    | (some result, r) => (Rest.answer c result, r)
    | (none, r) => (Rest.tookTooLong q, r)

/-! ## Peers -/

def peer? (r : Rehearsal) (name : String) : Option Peer := r.peers.find? (·.name == name)

/-- Something comes in from a peer. -/
def deliver (r : Rehearsal) (p : Peer) (i : Session.Inbound) : Rehearsal :=
  r.withGateway (r.gateway.deliver p.session i)

/-- A connection is lost: writing to it fails from now on. -/
def lose (r : Rehearsal) (p : Peer) : Rehearsal :=
  let r := r.deliver p .lost
  { r with
    peers := r.peers.filter (·.name != p.name)
    stage := { r.stage with scripts := r.stage.scripts.set p.connection ({ manner := .broken } : Hub.Script) } }

/-- A new peer connects; one of the same name is lost. -/
def connect (r : Rehearsal) (name : String) : Rehearsal :=
  let r :=
    match r.peer? name with
    | some old => r.lose old
    | none => r
  let g := r.gateway
  let peer : Peer := { name, session := g.sessions.length, connection := g.hub.connections.length }
  { r with
    stage := { gateway := g.connect, scripts := r.stage.scripts ++ [({} : Hub.Script)] }
    peers := r.peers ++ [peer] }

/-- A peer sends something, unless it has seen or sent a close. -/
def send (r : Rehearsal) (name : String) (i : Session.Inbound) : Answer × Rehearsal :=
  match r.peer? name with
  | none => (.noSuchPeer, r)
  | some p =>
    if p.leaving || p.closed then (.sendFailed, r)
    else
      let peers := r.peers.map fun q =>
        if q.name = name then { q with leaving := i == .close } else q
      (.ok, { r.deliver p i with peers })

/-! ## Steps -/

/-- Stops a server or forwarders: their subscriptions end. -/
def stop (r : Rehearsal) (running : Option (List Broker.SubscriptionId)) : Answer × Rehearsal :=
  match running with
  | some subs => (.wasRunning true, r.withGateway (r.gateway.unsubscribe subs))
  | none => (.wasRunning false, r)

/-- Closes all connections of the hub; the peers answer the close. -/
def closeHub (r : Rehearsal) : Rehearsal :=
  let open' := r.peers.filter fun p => (r.gateway.hub.members theHub).contains p.connection
  let g := r.gateway
  let stage := { r.stage with gateway := { g with hub := g.hub.launch (.closeAll theHub) } }
  open'.foldl (fun r p => r.deliver p .close) { r with stage := stage.settleHub }

def act (r : Rehearsal) : Step → Answer × Rehearsal
  | .request channel payload timeout =>
    let (sent, gateway) := r.gateway.request channel payload timeout
    match (r.withGateway gateway).finish timeout none sent with
    | (some result, r) => (.ended result, r)
    | (none, r) => (.failed .closed, r)
  | .publish channel payload =>
    match r.gateway.publish channel payload with
    | (.ok _, gateway) => (.ok, r.withGateway gateway)
    | (.error e, gateway) => (.failed e, r.withGateway gateway)
  | .rest q =>
    let (response, r) := r.rest q
    (.response (response.sentFor q.method), r)
  | .call c =>
    match r.call c none with
    | (some result, r) => (.called result, r)
    | (none, r) => (.failed .closed, r)
  | .connect name => (.ok, r.connect name)
  | .send name i => r.send name i
  | .lose name =>
    match r.peer? name with
    | some p => (.ok, r.lose p)
    | none => (.noSuchPeer, r)
  | .advance time => (.ok, { r with stage := r.stage.runThrough time })
  | .mute on =>
    let g := r.gateway
    (.ok, r.withGateway { g with shared := { g.shared with muted := on } })
  | .startServer =>
    match r.gateway.startServer with
    | (.ok subs, gateway) => (.ok, { r.withGateway gateway with server := some subs })
    | (.error e, gateway) => (.failed e, r.withGateway gateway)
  | .stopServer =>
    let (answer, r) := r.stop r.server
    (answer, { r with server := none })
  | .startForwarders =>
    match r.gateway.startForwarders with
    | (.ok subs, gateway) => (.ok, { r.withGateway gateway with forwarders := some subs })
    | (.error e, gateway) => (.failed e, r.withGateway gateway)
  | .stopForwarders =>
    let (answer, r) := r.stop r.forwarders
    (answer, { r with forwarders := none })
  | .closeHub => (.ok, r.closeHub)
  | .closeBroker => (.ok, r.withGateway (r.gateway.withBroker r.gateway.broker.close))

/-! ## Looking -/

/-- Takes everything out of a mailbox, at most `fuel` messages. -/
def drain (sub : Broker.SubscriptionId) : (fuel : Nat) → Broker → List Broker.Message × Broker
  | 0, b => ([], b)
  | fuel + 1, b =>
    match b.next sub with
    | (.message m, b) =>
      let (rest, b) := drain sub fuel (b.release m)
      (m :: rest, b)
    | (_, b) => ([], b)

/-- What the observers have got, channel by channel. -/
def observe (r : Rehearsal) : List (String × Octets) × Rehearsal :=
  let (messages, broker) := r.observers.foldl
    (fun (messages, b) sub =>
      let (more, b) := drain sub b.capacity b
      (messages ++ more, b))
    ([], r.gateway.broker)
  (messages.map fun m => (m.channel, m.payload), r.withGateway (r.gateway.withBroker broker))

/-- What a peer has seen since the last look. -/
def look (g : Gateway) (p : Peer) : List Sight × Peer :=
  let frames := g.hub.accepted p.connection
  let closed := p.closed || 0 < g.hub.closes p.connection
  ((frames.drop p.seen).map .frame ++ (if closed && !p.closed then [.closed] else []),
    { p with seen := frames.length, closed })

/-- What the peers have seen since the last look; those who have seen nothing are left out. -/
def lookAll (r : Rehearsal) : List (String × List Sight) × Rehearsal :=
  let looks := r.peers.map fun p => look r.gateway p
  ((looks.map fun (sights, p) => (p.name, sights)).filter (!·.2.isEmpty),
    { r with peers := looks.map (·.2) })

/-- The time that passes after each step. -/
def pause : Duration := .ofMillis 1

/-- Takes one step, lets everything come to rest, and looks. -/
def perform (r : Rehearsal) (step : Step) : View × Rehearsal :=
  let (answer, r) := r.act step
  let r := { r with stage := r.stage.runThrough pause }
  let (events, r) := r.observe
  let (sights, r) := r.lookAll
  ({ answer, events, sights
     connections := (r.gateway.hub.members theHub).length
     users := r.gateway.shared.store.users.length }, r)

/-- A gateway whose event channels are observed, with a server and forwarders running. -/
def init (capacity : Nat) (commandTimeout patience : Duration) (troubles : Command → Trouble) :
    Rehearsal :=
  let g := Gateway.init capacity commandTimeout troubles
  let (observers, broker) := g.broker.subscribeAll (EventKind.all.map (·.channel))
  let r : Rehearsal :=
    { stage := { gateway := g.withBroker broker }, patience
      observers := observers.toOption.getD [] }
  (r.act .startServer).2.act .startForwarders |>.2

end Rehearsal

end UserDirectory.Gateway
