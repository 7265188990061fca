import UserDirectory.Hub.Schedule

/-!
# Rehearsals of the hub

Two hubs, connections with names and scripted sinks, and steps that are taken one after another
or several at once. A name that is used again stands for the new connection from then on; the old
one stays registered.
-/

namespace UserDirectory.Hub

/-- An operation in which connections go by name. -/
inductive NamedOperation
  | register (hub : HubId) (name : String) (script : Script)
  | unregister (hub : HubId) (name : String)
  | broadcast (hub : HubId) (payload : Octets)
  | broadcastExcept (hub : HubId) (name : String) (payload : Octets)
  | sendTo (hub : HubId) (name : String) (payload : Octets)
  | closeAll (hub : HubId)
  | contains (hub : HubId) (name : String)

structure Rehearsal where
  system : System
  /-- the scripts of the connections, in the order of registration -/
  scripts : List Script := []
  /-- what the names stand for, the latest first -/
  names : List (String × ConnectionId) := []

namespace Rehearsal

/-- Two hubs with one write timeout. -/
def init (timeout : Time.Duration) : Rehearsal := { system := .init [timeout, timeout] }

/-- The operation that a named one stands for, unless a name in it is unknown. -/
def resolve? (r : Rehearsal) : NamedOperation → Option Operation
  | .register hub _ _ => some (.register hub)
  | .unregister hub name => (r.names.lookup name).map (.unregister hub)
  | .broadcast hub payload => some (.broadcast hub payload none)
  | .broadcastExcept hub name payload =>
    (r.names.lookup name).map fun c => .broadcast hub payload (some c)
  | .sendTo hub name payload => (r.names.lookup name).map fun c => .sendTo hub c payload
  | .closeAll hub => some (.closeAll hub)
  | .contains hub name => (r.names.lookup name).map (.contains hub)

/-- Starts an operation and gives its task; a new connection gets its script and its name. -/
def begin? (r : Rehearsal) (op : NamedOperation) : Option TaskId × Rehearsal :=
  match (r.resolve? op).bind fun op => r.system.step (.start op) with
  | none => (none, r)
  | some system =>
    let t := r.system.tasks.length
    let r := { r with system }
    match op with
    | .register _ name script =>
      (some t, { r with
        scripts := r.scripts ++ [script]
        names := (name, r.scripts.length) :: r.names })
    | _ => (some t, r)

/-- Starts operations in order. -/
def beginAll (r : Rehearsal) : List NamedOperation → List (Option TaskId) × Rehearsal
  | [] => ([], r)
  | op :: ops =>
    let (t, r) := r.begin? op
    let (ts, r) := r.beginAll ops
    (t :: ts, r)

/-- Runs operations at once until all have ended. An operation with an unknown name has no
outcome. -/
def perform (r : Rehearsal) (ops : List NamedOperation) : List (Option Outcome) × Rehearsal :=
  let (tasks, r) := r.beginAll ops
  let system := r.system.settle r.scripts
  (tasks.map fun t => t.bind system.outcome?, { r with system })

/-- The frames that a connection's sink accepted since an earlier state of the rehearsal. -/
def acceptedSince (r earlier : Rehearsal) (c : ConnectionId) : List Octets :=
  (r.system.accepted c).drop (earlier.system.accepted c).length

end Rehearsal

end UserDirectory.Hub
