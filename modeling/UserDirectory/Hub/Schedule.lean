import UserDirectory.Hub.System

/-!
# One schedule of the hub

Which event comes next when sinks follow a script and everything runs on one thread: tasks take
turns in the order in which they were started, each goes on until it must wait, and the clock
moves only when no task can go on. `settle` runs a system to its end under this schedule.
-/

namespace UserDirectory.Hub

/-- How the writes of a scripted sink go. -/
inductive Manner
  /-- they are answered at once -/
  | prompt
  /-- they are answered after a delay in nanoseconds -/
  | slow (delay : Nat)
  /-- they are never answered -/
  | stalled
  /-- they fail -/
  | broken
  /-- they are answered with the news that the peer has closed -/
  | gone
  deriving DecidableEq, Repr

/-- A sink that follows a script. -/
structure Script where
  manner : Manner := .prompt
  /-- the text of failures -/
  reason : String := ""
  /-- the number of writes after which every further one fails -/
  failAfter : Option Nat := none
  /-- whether a close is never answered -/
  stallClose : Bool := false
  deriving DecidableEq, Repr

namespace Script

/-- The answer to the `n`-th write, once there is one. -/
def answer (sc : Script) (n : Nat) : Sent :=
  if sc.manner = .broken || sc.failAfter.any (· < n) then .failed (.write sc.reason)
  else if sc.manner = .gone then .failed .closed
  else .ok

/-- How long a call takes, if it is answered at all. -/
def duration? (sc : Script) : Errand → Option Nat
  | .send _ =>
    match sc.manner with
    | .stalled => none
    | .slow delay => some delay
    | _ => some 0
  | .close => if sc.stallClose then none else some 0

end Script

namespace System

/-- The number of frames that were handed to a sink. -/
def writes (s : System) (c : ConnectionId) : Nat :=
  s.log.countP fun e =>
    match e.occurrence with
    | .called (.send _) => e.connection = c
    | _ => false

/-- The moment at which the sink call under way is answered, if it is answered at all. -/
def answerTime? (sc : Script) (conn : Connection) (turn : Turn) (deadline : Nat) : Option Nat :=
  (sc.duration? turn.errand).map (deadline - conn.timeout.nanos + ·)

/-- The event by which a task goes on with a connection whose lock it holds, if it can go on. -/
def connectionEvent? (scripts : List Script) (s : System) (t : TaskId) (c : ConnectionId)
    (conn : Connection) : Option Event :=
  match conn.line with
  | [] => none
  | turn :: _ =>
    if turn.task ≠ t then none
    else
      match conn.deadline with
      | none => some (.enter c)
      | some deadline =>
        let script := scripts[c]?.getD {}
        if (answerTime? script conn turn deadline).any (· ≤ s.now) then
          some (.finish c (script.answer (s.writes c)))
        else if deadline ≤ s.now then some (.expire c)
        else none

/-- The event by which a task goes on, if it can go on. -/
def taskEvent? (scripts : List Script) (s : System) (t : TaskId) : Option Event :=
  match s.tasks[t]? with
  | none => none
  | some task =>
    if (s.act? t task).isSome then some (.act t)
    else s.connections.zipIdx.findSome? fun (conn, c) => connectionEvent? scripts s t c conn

/-- A task goes on until it must wait, for at most `fuel` events. -/
def runTask (scripts : List Script) (t : TaskId) : (fuel : Nat) → System → System
  | 0, s => s
  | fuel + 1, s =>
    match (taskEvent? scripts s t).bind s.step with
    | none => s
    | some s => runTask scripts t fuel s

/-- The moment at which the next sink call is answered or cut off. -/
def nextTime? (scripts : List Script) (s : System) : Option Nat :=
  (s.connections.zipIdx.filterMap fun (conn, c) =>
    match conn.line, conn.deadline with
    | turn :: _, some deadline =>
      some (match answerTime? (scripts[c]?.getD {}) conn turn deadline with
        | some answered => min answered deadline
        | none => deadline)
    | _, _ => none).min?

/-- All tasks go on, in turns, until each of them must wait; then the clock moves on. At most
`fuel` rounds are made, each with at most `fuel` events of each task. -/
def settleFor (scripts : List Script) (fuel : Nat) : (rounds : Nat) → System → System
  | 0, s => s
  | rounds + 1, s =>
    let tasks := List.range s.tasks.length
    if tasks.any fun t => (taskEvent? scripts s t).isSome then
      settleFor scripts fuel rounds (tasks.foldl (fun s t => runTask scripts t fuel s) s)
    else
      match nextTime? scripts s with
      | none => s
      | some time => settleFor scripts fuel rounds { s with now := max s.now time }

/-- A bound on the events that all operations in flight take together: each asks at most twice for
each lock, and an errand is asked for, let in and ended. -/
def eventBound (s : System) : Nat :=
  (s.tasks.length + 1) * (8 * (s.connections.length + s.tasks.length) + 8)

/-- The system once every operation in flight has ended. -/
def settle (scripts : List Script) (s : System) : System :=
  settleFor scripts s.eventBound (2 * s.eventBound) s

end System

end UserDirectory.Hub
