import UserDirectory.Octets
import UserDirectory.Time.Duration

/-!
# The connection hub

A hub is a registry of live connections. Each connection has a sink that takes frames and a lock
that is granted in the order of asking; whoever holds it may write or close. Registries are
changed in single steps, but a write or a close may take long and is cut off at a deadline, so
operations overlap.

`System` holds the registries, the connections and the operations in flight, and `step` says what
may happen next: an operation starts, it takes its next step on a registry, the holder of a lock
is let in, a sink call returns or is cut off, the members of a registry come in another order, or
time passes. Any order of such events that `step` admits is a run. An operation touches a registry
in one step and asks for a lock in another, so others may come between.

How an operation goes:

* *register* enters a new connection; *contains* and *count* look.
* *unregister* removes the connection, then asks for its lock to close it.
* *broadcast* takes the members, asks for all their locks at once to write, waits for every write
  to end, and then, one after the other, removes and closes each connection whose write failed.
* *send to* asks for one lock to write, and removes and closes the connection if that failed.
* *close all* takes out all members and asks for all their locks at once to close.

A closed connection is never written to; its lock is passed on at once.
-/

namespace UserDirectory.Hub

open Time (Duration)

/-- The number of a registry. -/
abbrev HubId := Nat

/-- The number of a connection, in the order in which connections were registered. -/
abbrev ConnectionId := Nat

/-- The number of an operation, in the order in which operations were started. -/
abbrev TaskId := Nat

/-- The time that a write or a close may take unless another is given. -/
def defaultWriteTimeout : Duration := .ofSeconds 5

/-- Why a frame was not written. -/
inductive Failure
  /-- the connection is closed -/
  | closed
  /-- the sink failed or did not answer in time -/
  | write (reason : String)
  deriving DecidableEq, Repr

def Failure.message : Failure → String
  | closed => "connection is closed"
  | write reason => "write failed: " ++ reason

inductive Sent
  | ok
  | failed (why : Failure)
  deriving DecidableEq, Repr

/-- The failure of a write that was cut off. -/
def cutOff (after : Duration) : Failure := .write ("write timed out after " ++ after.text)

/-! ## State -/

/-- What a task does with a connection while it holds the lock. -/
inductive Errand
  | send (payload : Octets)
  | close
  deriving DecidableEq, Repr

/-- A place in the line for a lock. -/
structure Turn where
  task : TaskId
  errand : Errand
  deriving DecidableEq, Repr

/-- A connection that was registered once. -/
structure Connection where
  /-- the registry that issued it -/
  hub : HubId
  /-- the time that a call of the sink may take -/
  timeout : Duration
  /-- whether closing has begun -/
  closed : Bool := false
  /-- the line for the lock; the first in it holds the lock -/
  line : List Turn := []
  /-- the deadline of the sink call under way, which the first in line made -/
  deadline : Option Nat := none
  deriving DecidableEq, Repr

/-- A registry of live connections. -/
structure Registry where
  timeout : Duration
  members : List ConnectionId := []
  deriving DecidableEq, Repr

/-- An operation on a registry. -/
inductive Operation
  | register (hub : HubId)
  | unregister (hub : HubId) (c : ConnectionId)
  | broadcast (hub : HubId) (payload : Octets) (except : Option ConnectionId)
  | sendTo (hub : HubId) (c : ConnectionId) (payload : Octets)
  | closeAll (hub : HubId)
  | contains (hub : HubId) (c : ConnectionId)
  | count (hub : HubId)
  deriving DecidableEq, Repr

/-- The answer of an operation. -/
inductive Outcome
  | registered (c : ConnectionId)
  | unregistered (removed : Bool)
  | broadcast (delivered : Nat)
  | sent (result : Sent)
  | closedAll
  | found (member : Bool)
  | counted (members : Nat)
  deriving DecidableEq, Repr

/-- How far an operation has come. -/
inductive Progress
  /-- it has not touched a registry yet -/
  | starting
  /-- a broadcast waits for its writes; those that ended are listed with their results -/
  | writing (hub : HubId) (asked : List ConnectionId) (ended : List (ConnectionId × Sent))
  /-- a broadcast goes through the results of its writes -/
  | reviewing (hub : HubId) (results : List (ConnectionId × Sent)) (delivered : Nat)
  /-- a broadcast waits for the close of a connection whose write failed -/
  | pruning (hub : HubId) (results : List (ConnectionId × Sent)) (delivered : Nat)
  /-- a send waits for its write -/
  | sending (hub : HubId) (c : ConnectionId)
  /-- a send has failed and has not removed the connection yet -/
  | failed (hub : HubId) (c : ConnectionId) (why : Failure)
  /-- a send waits for the close of the connection to which it failed -/
  | dismissing (why : Failure)
  /-- an unregistration waits for its close -/
  | leaving (removed : Bool)
  /-- all members are being closed; so many closes have not ended yet -/
  | closingAll (left : Nat)
  | finished (outcome : Outcome)
  deriving DecidableEq, Repr

namespace Progress

/-- The progress of a task whose write on a connection has ended. -/
def afterSend (c : ConnectionId) (result : Sent) : Progress → Progress
  | writing hub asked ended =>
    let ended := ended ++ [(c, result)]
    if ended.length < asked.length then writing hub asked ended
    else reviewing hub (asked.filterMap fun a => ended.find? (·.1 == a)) 0
  | sending hub c =>
    match result with
    | .failed (.write reason) => failed hub c (.write reason)
    | result => finished (.sent result)
  | p => p

/-- The progress of a task whose close of a connection has ended. -/
def afterClose : Progress → Progress
  | pruning hub results delivered => reviewing hub results delivered
  | dismissing why => finished (.sent (.failed why))
  | leaving removed => finished (.unregistered removed)
  | closingAll left => if left ≤ 1 then finished .closedAll else closingAll (left - 1)
  | p => p

/-- The progress of a task after an errand. -/
def after (c : ConnectionId) (errand : Errand) (result : Sent) : Progress → Progress :=
  match errand with
  | .send _ => afterSend c result
  | .close => afterClose

end Progress

/-- An operation that was started: its progress, and the locks it has not asked for yet. -/
structure Task where
  op : Operation
  progress : Progress := .starting
  asks : List (ConnectionId × Errand) := []
  deriving DecidableEq, Repr

/-- What comes of an errand at a connection. -/
inductive Occurrence
  /-- the sink is called -/
  | called (errand : Errand)
  /-- the sink answers the call, or is cut off; the result counts for writes only -/
  | answered (errand : Errand) (result : Sent)
  /-- the connection is closed, and the sink is not called -/
  | passedOver (errand : Errand)
  deriving DecidableEq, Repr

/-- A line of the log: at which connection, by which task, and what. -/
structure Entry where
  connection : ConnectionId
  task : TaskId
  occurrence : Occurrence
  deriving DecidableEq, Repr

/-- Registries, connections, operations, and what happened at the connections so far. -/
structure System where
  now : Nat := 0
  hubs : List Registry
  connections : List Connection := []
  tasks : List Task := []
  log : List Entry := []
  deriving DecidableEq, Repr

/-- What may happen. -/
inductive Event
  /-- an operation is started -/
  | start (op : Operation)
  /-- a task takes its own next step -/
  | act (t : TaskId)
  /-- the first in line for a lock is let in -/
  | enter (c : ConnectionId)
  /-- the sink call under way returns; the result counts for writes only -/
  | finish (c : ConnectionId) (result : Sent)
  /-- the sink call under way is cut off at its deadline -/
  | expire (c : ConnectionId)
  /-- time passes -/
  | pass (nanos : Nat)
  /-- the members of a registry, which keeps no order of its own, come in another order -/
  | rearrange (hub : HubId) (members : List ConnectionId)
  deriving DecidableEq, Repr

namespace System

/-- A system with one registry for each given write timeout; no time at all means the default. -/
def init (timeouts : List Duration) : System :=
  { hubs := timeouts.map fun t => { timeout := t.orDefault defaultWriteTimeout } }

def members (s : System) (hub : HubId) : List ConnectionId :=
  match s.hubs[hub]? with
  | some h => h.members
  | none => []

/-- The time that a call of a sink registered here may take. -/
def timeout (s : System) (hub : HubId) : Duration :=
  match s.hubs[hub]? with
  | some h => h.timeout
  | none => defaultWriteTimeout

/-! ## Single changes -/

def setMembers (s : System) (hub : HubId) (f : List ConnectionId → List ConnectionId) : System :=
  { s with hubs := s.hubs.modify hub fun h => { h with members := f h.members } }

/-- Takes a connection out of a registry. -/
def remove (s : System) (hub : HubId) (c : ConnectionId) : System :=
  s.setMembers hub fun members => members.filter (· != c)

def modifyConnection (s : System) (c : ConnectionId) (f : Connection → Connection) : System :=
  { s with connections := s.connections.modify c f }

/-- Sets how far a task has come and which locks it asks for next. -/
def setTask (s : System) (t : TaskId) (progress : Progress)
    (asks : List (ConnectionId × Errand)) : System :=
  { s with tasks := s.tasks.modify t fun task => { task with progress, asks } }

def finishTask (s : System) (t : TaskId) (outcome : Outcome) : System :=
  s.setTask t (.finished outcome) []

/-- Notes what comes of an errand. -/
def note (s : System) (c : ConnectionId) (t : TaskId) (o : Occurrence) : System :=
  { s with log := s.log ++ [⟨c, t, o⟩] }

/-- A new connection enters a registry. -/
def enroll (s : System) (hub : HubId) : System :=
  let conn : Connection := { hub, timeout := s.timeout hub }
  { s with connections := s.connections ++ [conn] }.setMembers hub (· ++ [s.connections.length])

/-! ## A task goes on -/

/-- The first step of an operation. -/
def startOperation (s : System) (t : TaskId) : Operation → System
  | .register hub => (s.enroll hub).finishTask t (.registered s.connections.length)
  | .unregister hub c =>
    (s.remove hub c).setTask t (.leaving ((s.members hub).contains c)) [(c, .close)]
  | .broadcast hub payload except =>
    let asked := (s.members hub).filter fun c => some c != except
    if asked.isEmpty then s.finishTask t (.broadcast 0)
    else s.setTask t (.writing hub asked []) (asked.map (·, .send payload))
  | .sendTo hub c payload => s.setTask t (.sending hub c) [(c, .send payload)]
  | .closeAll hub =>
    let drained := s.members hub
    if drained.isEmpty then s.finishTask t .closedAll
    else (s.setMembers hub fun _ => []).setTask t (.closingAll drained.length)
      (drained.map (·, .close))
  | .contains hub c => s.finishTask t (.found ((s.members hub).contains c))
  | .count hub => s.finishTask t (.counted (s.members hub).length)

/-- The next step of a broadcast whose writes have all ended. -/
def review (s : System) (t : TaskId) (hub : HubId) (results : List (ConnectionId × Sent))
    (delivered : Nat) : System :=
  match results with
  | [] => s.finishTask t (.broadcast delivered)
  | (_, .ok) :: rest => s.setTask t (.reviewing hub rest (delivered + 1)) []
  | (_, .failed .closed) :: rest => s.setTask t (.reviewing hub rest delivered) []
  | (c, .failed (.write _)) :: rest =>
    (s.remove hub c).setTask t (.pruning hub rest delivered) [(c, .close)]

/-- Puts a task at the end of the line for a lock. -/
def ask (s : System) (t : TaskId) (c : ConnectionId) (errand : Errand) : System :=
  s.modifyConnection c fun conn => { conn with line := conn.line ++ [⟨t, errand⟩] }

/-- The next step of a task of its own, if it has one: to ask for a lock, which some connection
must have, or to go on. -/
def act? (s : System) (t : TaskId) (task : Task) : Option System :=
  match task.asks with
  | (c, errand) :: asks =>
    if c < s.connections.length then some ((s.ask t c errand).setTask t task.progress asks)
    else none
  | [] =>
    match task.progress with
    | .starting => some (s.startOperation t task.op)
    | .reviewing hub results delivered => some (s.review t hub results delivered)
    | .failed hub c why => some ((s.remove hub c).setTask t (.dismissing why) [(c, .close)])
    | _ => none

/-! ## A sink is called -/

/-- Ends the errand of the first in line and passes the lock on. -/
def conclude (s : System) (c : ConnectionId) (turn : Turn) (result : Sent) : System :=
  { s.modifyConnection c fun conn => { conn with line := conn.line.drop 1, deadline := none } with
    tasks := s.tasks.modify turn.task fun task =>
      { task with progress := task.progress.after c turn.errand result } }

/-- Lets the first in line for a lock in: a closed connection is passed over, otherwise the sink is
called. Closing begins with the call. -/
def letIn (s : System) (c : ConnectionId) (conn : Connection) (turn : Turn) : System :=
  if conn.closed then
    (s.note c turn.task (.passedOver turn.errand)).conclude c turn (.failed .closed)
  else
    (s.modifyConnection c fun conn =>
      { conn with
        closed := turn.errand == .close
        deadline := some (s.now + conn.timeout.nanos) }).note c turn.task (.called turn.errand)

/-- Ends the sink call that the first in line made. -/
def endCall (s : System) (c : ConnectionId) (turn : Turn) (result : Sent) : System :=
  (s.note c turn.task (.answered turn.errand result)).conclude c turn result

/-! ## Runs -/

/-- A new task is started; its number is the number of tasks before it. -/
def launch (s : System) (op : Operation) : System :=
  { s with tasks := s.tasks ++ [{ op }] }

/-- What becomes of the system by an event, if the event may happen. -/
def step (s : System) : Event → Option System
  | .start op => some (s.launch op)
  | .act t => s.tasks[t]?.bind (s.act? t)
  | .enter c =>
    match s.connections[c]? with
    | some conn =>
      match conn.line, conn.deadline with
      | turn :: _, none => some (s.letIn c conn turn)
      | _, _ => none
    | none => none
  | .finish c result =>
    match s.connections[c]? with
    | some conn =>
      match conn.line, conn.deadline with
      | turn :: _, some _ => some (s.endCall c turn result)
      | _, _ => none
    | none => none
  | .expire c =>
    match s.connections[c]? with
    | some conn =>
      match conn.line, conn.deadline with
      | turn :: _, some deadline =>
        if deadline ≤ s.now then some (s.endCall c turn (.failed (cutOff conn.timeout))) else none
      | _, _ => none
    | none => none
  | .pass nanos => some { s with now := s.now + nanos }
  | .rearrange hub members =>
    if members.Perm (s.members hub) then some (s.setMembers hub fun _ => members) else none

/-- What becomes of the system by a sequence of events, if each of them may happen. -/
def run (s : System) : List Event → Option System
  | [] => some s
  | e :: es => (s.step e).bind (run · es)

/-- The systems that some run leads to. -/
def Reachable (timeouts : List Duration) (s : System) : Prop :=
  ∃ es, run (init timeouts) es = some s

/-! ## Views -/

/-- The answer of a task, once it has one. -/
def outcome? (s : System) (t : TaskId) : Option Outcome :=
  match s.tasks[t]? with
  | some { progress := .finished outcome, .. } => some outcome
  | _ => none

/-- The frames that a sink accepted, in order. -/
def accepted (s : System) (c : ConnectionId) : List Octets :=
  s.log.filterMap fun e =>
    match e.occurrence with
    | .answered (.send payload) .ok => if e.connection = c then some payload else none
    | _ => none

/-- How often a sink was told to close. -/
def closes (s : System) (c : ConnectionId) : Nat :=
  s.log.countP fun e => e.connection = c ∧ e.occurrence = .called .close

end System

end UserDirectory.Hub
