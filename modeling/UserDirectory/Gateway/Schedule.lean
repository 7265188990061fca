import UserDirectory.Gateway.System
import UserDirectory.Hub.Schedule

/-!
# One schedule of the gateway

Which step of a gateway comes next when everything runs on one thread: command loops, deliveries,
sessions and forwarders take turns in this order, each goes on until it must wait, and the clock
moves only when nothing can go on. `runUntil` runs a gateway under this schedule.
-/

namespace UserDirectory.Gateway

/-- A gateway whose connections have sinks that follow scripts. -/
structure Stage where
  gateway : Gateway
  scripts : List Hub.Script := []

namespace Stage

/-- The operations of the hub go on until each has ended. -/
def settleHub (s : Stage) : Stage :=
  let hub := { s.gateway.hub with now := s.gateway.now }.settle s.scripts
  { s with gateway := { s.gateway with hub } }

/-- An event happens, and again, as long as it may, but at most `fuel` times. The hub goes on
after each time. -/
def exhaust (e : Event) : (fuel : Nat) → Stage → Stage
  | 0, s => s
  | fuel + 1, s =>
    match s.gateway.step e with
    | none => s
    | some gateway => exhaust e fuel { s with gateway }.settleHub

/-- The events by which the parts of one kind go on, in turn. -/
def exhaustAll (event : Nat → Event) (count : Gateway → Nat) (fuel : Nat) (s : Stage) : Stage :=
  (List.range (count s.gateway)).foldl (fun s i => exhaust (event i) fuel s) s

/-- Every part of the gateway goes on until it must wait. -/
def round (fuel : Nat) (s : Stage) : Stage :=
  s |> exhaustAll .expire (·.deadlines.length) fuel
    |> exhaustAll .take (·.loops.length) fuel
    |> exhaustAll .work (·.jobs.length) fuel
    |> exhaustAll .talk (·.sessions.length) fuel
    |> exhaustAll .forward (·.forwarders.length) fuel

/-- Whether some part of the gateway can go on. -/
def isBusy (s : Stage) : Bool :=
  let g := s.gateway
  let any (event : Nat → Event) (count : Nat) : Bool :=
    (List.range count).any fun i => (g.step (event i)).isSome
  any .expire g.deadlines.length || any .take g.loops.length || any .work g.jobs.length ||
    any .talk g.sessions.length || any .forward g.forwarders.length

/-- A bound on the steps that can be taken before time must pass: what came in and what lies in
mailboxes leads to so many deliveries and broadcasts, each of which has a few stages. -/
def bound (s : Stage) : Nat :=
  let g := s.gateway
  let incoming := (g.sessions.map (·.inbox.length)).foldl (· + ·) 0
  let queued := (g.broker.mailboxes.map (·.queue.length)).foldl (· + ·) 0
  8 * (incoming + queued + g.jobs.length + g.sessions.length + g.forwarders.length + 1) *
    (g.loops.length + g.forwarders.length + 1)

/-- Rounds are made until no part of the gateway can go on, but at most `rounds`. -/
def settleFor (fuel : Nat) : (rounds : Nat) → Stage → Stage
  | 0, s => s
  | rounds + 1, s => if s.isBusy then settleFor fuel rounds (s.round fuel) else s

/-- The gateway once no part of it can go on. -/
def settle (s : Stage) : Stage := settleFor s.bound s.bound s

/-- The next moment at which some part of the gateway can go on by itself. -/
def nextTime? (s : Stage) : Option Nat :=
  let g := s.gateway
  let stores := g.jobs.filterMap fun job =>
    if job.delivery.stage == .done then none else some job.ready
  let requests := g.deadlines.zipIdx.filterMap fun (deadline, x) =>
    if g.broker.standing? x == some .waiting then some deadline else none
  ((stores ++ requests).filter (g.now < ·)).min?

/-- The clock moves to a later moment. -/
def moveTo (s : Stage) (time : Nat) : Stage :=
  { s with gateway := { s.gateway with now := max s.gateway.now time } }

/-- The gateway runs until `stop` holds or the moment `limit` has come, but at most over `fuel`
moments. -/
def runFor (stop : Stage → Bool) (limit : Nat) : (fuel : Nat) → Stage → Stage
  | 0, s => s
  | fuel + 1, s =>
    let s := s.settle
    if stop s then s
    else
      match s.nextTime? with
      | some time => if time < limit then runFor stop limit fuel (s.moveTo time) else s.moveTo limit
      | none => s.moveTo limit

/-- The gateway runs until `stop` holds or the moment `limit` has come. -/
def runUntil (stop : Stage → Bool) (limit : Nat) (s : Stage) : Stage :=
  let moments := s.bound + s.gateway.deadlines.length
  (runFor stop limit moments s).settle

def runThrough (time : Time.Duration) (s : Stage) : Stage :=
  s.runUntil (fun _ => false) (s.gateway.now + time.nanos)

end Stage

end UserDirectory.Gateway
