import UserDirectory.Client.Basic
import UserDirectory.Rest.Description
import UserDirectory.Rest.Error
import UserDirectory.Rest.MediaType
import UserDirectory.Rest.Percent
import UserDirectory.Rest.Route
import UserDirectory.Validation

/-!
# What the gateway does with a request over the web

A request is answered at once, or it is an operation on users, whose outcome is answered when it
is known, or it asks for the health report. What cannot be read and what breaks a rule is answered
at once and sends no command.
-/

namespace UserDirectory.Rest

/-! ## Reading a request -/

/-- The number of octets that a body may have. -/
def bodyLimit : Nat := 2097152

/-- The failure of a body that cannot be read, for whatever reason. -/
def unreadable : Failure := .invalidRequest "invalid request body"

/-- The value that the body of a request holds. -/
def input? (α : Type) [Json.OfTree α] (q : Request) : Except Failure α :=
  if q.contentType.any MediaType.isJson && q.body.length ≤ bodyLimit then
    match Json.decode q.body with
    | some a => .ok a
    | none => .error unreadable
  else .error unreadable

/-- A rule that holds, or the failure of the input that breaks it. -/
def ensure {α : Type} : Except Validation.Rule α → Except Failure α := Except.mapError .ofRule

/-- The operation that a request makes on all users. -/
def callOnUsers (q : Request) : Except Failure Call :=
  match q.method with
  | .post => do
    let input ← input? NewUser q
    ensure (Validation.checkNew input)
    return .create input
  | _ => .ok .list

/-- The operation that a request makes on the user with a given identifier. -/
def callOnUser (q : Request) (id : String) : Except Failure Call :=
  match q.method with
  | .patch => do
    let changes ← input? UserChanges q
    ensure (Validation.checkChanges changes)
    return .update (← ensure (Validation.checkId id)) changes
  | .delete => do return .delete (← ensure (Validation.checkId id))
  | _ => do return .get (← ensure (Validation.checkId id))

/-! ## Responses -/

/-- The response to a path that leads nowhere. -/
def notFound : Response := { status := 404 }

/-- The response to a method that a route does not know. -/
def methodNotAllowed (r : Route) : Response := { status := 405, allow := some r.allow }

/-- The response to a request for the methods of a path; it is the same where nothing is. -/
def methods (r : Option Route) : Response := { status := 200, allow := r.map (·.allow) }

/-- The response to an identifier that spells no text. -/
def notText : Response := .text 400 "Invalid URL: Invalid UTF-8 in `id`"

/-- The response to a request for the socket that does not ask for an upgrade. -/
def noUpgrade (m : Method) : Response :=
  if m = .get then .text 400 "Connection header did not include 'upgrade'"
  else .text 405 "Request method must be `GET`"

/-- The response to a request that took too long. It tells the methods of the route if the route
does not know the method of the request. -/
def tookTooLong (q : Request) : Response :=
  { status := 408
    allow := (Route.ofTarget? q.target).bind fun r =>
      if q.method ∈ r.methods then none else some r.allow }

/-- The response to a failure. -/
def failed (f : Failure) : Response := .json f.status f

/-- The response to an operation that has ended. -/
def answer (call : Call) : Except Client.Failure CallAnswer → Response
  | .error e => failed (.ofClient e)
  | .ok a => .json (if call.command = .create then 201 else 200) a

/-- What the health report says. -/
structure Health where
  timestamp : Time.Instant
  connections : Nat

instance : Json.ToTree Health :=
  ⟨fun h => .object
    (Json.member "status" "healthy" ++
      Json.member "timestamp" (Time.exactWith "+00:00" h.timestamp) ++
      Json.member "version" Description.version ++ Json.member "connections" h.connections)⟩

/-! ## What a request leads to -/

/-- What a request leads to. -/
inductive Reaction
  /-- a response at once -/
  | respond (r : Response)
  /-- an operation, whose outcome is answered -/
  | call (c : Call)
  /-- a health report -/
  | report

/-- An operation, or the response to its failure. -/
def Reaction.ofCall : Except Failure Call → Reaction
  | .ok c => call c
  | .error f => respond (failed f)

/-- What a request leads to on a route that knows its method. -/
def reactOn (q : Request) : Route → Reaction
  | .users => .ofCall (callOnUsers q)
  | .user segment =>
    match Percent.text? segment with
    | some id => .ofCall (callOnUser q id)
    | none => .respond notText
  | .health => .report
  | .socket => .respond (noUpgrade q.method)
  | .description => .respond (.json 200 Description.document)

/-- What a request leads to. -/
def react (q : Request) : Reaction :=
  let route := Route.ofTarget? q.target
  if q.method = .options then .respond (methods route)
  else
    match route with
    | none => .respond notFound
    | some r =>
      if q.method ∈ r.methods then reactOn q r else .respond (methodNotAllowed r)

end UserDirectory.Rest
