import UserDirectory.Hub.System

/-!
# Registries behind their locks

In `System` an operation touches a registry in one step. The registry stands behind a lock of its
own, though, and before that step the operation gets in line for it: one that changes the registry
has to be alone with it, and those that only look at it may be there together. The lock is given
back with the step, before the operation waits for anything else.

`Guarded` is a system with the line for these locks. What happens to the system is what could
happen without them, at fewer moments. Its clock stands still for as long as anything can go on
without a sink, and it does not jump over the deadline of a call.
-/

namespace UserDirectory.Hub

open Time (Duration)

/-- What an operation does with a registry. -/
inductive Access
  /-- it looks at the registry, maybe while others look too -/
  | look
  /-- it changes the registry, alone -/
  | change
  deriving DecidableEq, Repr

/-- The registry that the first step of an operation touches; that of a send touches none. -/
def Operation.access? : Operation → Option (HubId × Access)
  | register hub | unregister hub _ | closeAll hub => some (hub, .change)
  | broadcast hub _ _ | contains hub _ | count hub => some (hub, .look)
  | sendTo _ _ _ => none

/-- The registry that the next step of an operation touches, if any. -/
def Progress.access? (op : Operation) : Progress → Option (HubId × Access)
  | starting => op.access?
  | reviewing hub ((_, .failed (.write _)) :: _) _ => some (hub, .change)
  | failed hub _ _ => some (hub, .change)
  | _ => none

/-- The registry that the next step of a task touches, if any. -/
def System.access? (s : System) (t : TaskId) : Option (HubId × Access) :=
  s.tasks[t]?.bind fun task => task.progress.access? task.op

/-- A place in the line for the lock of a registry. -/
structure Visit where
  task : TaskId
  hub : HubId
  access : Access
  deriving DecidableEq, Repr

/-- Whether one who came before keeps another waiting. -/
def Visit.blocks (w v : Visit) : Bool :=
  w.hub == v.hub && !(w.access == .look && v.access == .look)

/-- A system whose registries stand behind locks. -/
structure Guarded where
  system : System
  /-- those who wait for the lock of a registry or have it, in the order of asking -/
  visits : List Visit := []
  deriving DecidableEq, Repr

namespace Guarded

/-- What may happen. -/
inductive Event
  /-- a task gets in line for the lock that it needs for its next step -/
  | ask (t : TaskId)
  /-- something happens to the system -/
  | own (e : Hub.Event)
  deriving DecidableEq, Repr

def init (timeouts : List Duration) : Guarded := { system := .init timeouts }

/-- Whether a task that stands in the line has the lock: nobody who came before keeps it waiting. -/
def holds (g : Guarded) (v : Visit) : Bool :=
  g.visits.contains v && !(g.visits.takeWhile (·.task != v.task)).any (·.blocks v)

/-- Whether the lock that an event needs, if it needs one, is had. -/
def admits (g : Guarded) : Hub.Event → Bool
  | .act t => (g.system.access? t).all fun x => g.holds ⟨t, x.1, x.2⟩
  | _ => true

/-- Those who are in line after an event: a task that has taken its step gives its lock back. -/
def leave (g : Guarded) : Hub.Event → List Visit
  | .act t => g.visits.filter (·.task != t)
  | _ => g.visits

/-- What becomes of a guarded system by an event, whatever its clock says. -/
def proceed? (g : Guarded) : Event → Option Guarded
  | .ask t =>
    match g.system.access? t with
    | some (hub, access) =>
      if g.visits.any (·.task == t) then none
      else some { g with visits := g.visits ++ [⟨t, hub, access⟩] }
    | none => none
  | .own e => if g.admits e then (g.system.step e).map (⟨·, g.leave e⟩) else none

/-- The events for which no sink is needed and no time has to pass. -/
def prompt (g : Guarded) : List Event :=
  (List.range g.system.tasks.length).flatMap (fun t => [.ask t, .own (.act t)]) ++
    (List.range g.system.connections.length).flatMap fun c => [.own (.enter c), .own (.expire c)]

/-- Whether nothing can happen but that a sink answers or time passes. -/
def rests (g : Guarded) : Bool := g.prompt.all fun e => (g.proceed? e).isNone

/-- The deadlines of the calls under way. -/
def deadlines (g : Guarded) : List Nat := g.system.connections.filterMap (·.deadline)

/-- Whether so much time may pass. -/
def mayPass (g : Guarded) (nanos : Nat) : Bool :=
  decide (0 < nanos) && g.rests && g.deadlines.all (g.system.now + nanos ≤ ·)

/-- What becomes of a guarded system by an event, if the event may happen. -/
def step (g : Guarded) : Event → Option Guarded
  | .own (.pass nanos) => if g.mayPass nanos then g.proceed? (.own (.pass nanos)) else none
  | e => g.proceed? e

/-- What becomes of it by a sequence of events, if each of them may happen. -/
def run (g : Guarded) : List Event → Option Guarded
  | [] => some g
  | e :: es => (g.step e).bind (run · es)

end Guarded

end UserDirectory.Hub
