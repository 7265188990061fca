import UserDirectory.Client.Error
import UserDirectory.Validation

/-!
# Failures of a request over the web

Each failure has a number of its own, a status, and a text. Failures that are not the caller's
doing all have one text.
-/

namespace UserDirectory.Rest

inductive Failure
  | invalidRequest (message : String)
  | userNotFound (message : String)
  /-- the command server did not answer in time -/
  | serverTimeout
  /-- the bus failed -/
  | serverUnavailable
  /-- anything else; the detail is not shown -/
  | internal (detail : String)
  deriving DecidableEq, Repr

namespace Failure

def code : Failure → Nat
  | invalidRequest _ => 1001
  | userNotFound _ => 2001
  | internal _ => 3000
  | serverTimeout => 3001
  | serverUnavailable => 3002

def status : Failure → Nat
  | invalidRequest _ => 400
  | userNotFound _ => 404
  | serverTimeout | serverUnavailable | internal _ => 500

def message : Failure → String
  | invalidRequest message => message
  | userNotFound message => message
  | serverTimeout | serverUnavailable | internal _ => "internal server error"

/-- The failure of a command. -/
def ofClient : Client.Failure → Failure
  | .badRequest message => invalidRequest message
  | .notFound message => userNotFound message
  | .timeout _ _ => serverTimeout
  | .transport _ => serverUnavailable
  | other => internal other.message

/-- The failure of an input that breaks a rule. -/
def ofRule (rule : Validation.Rule) : Failure := invalidRequest rule.message

/-- The document that a failure is answered with. -/
def document (f : Failure) : Json.Tree :=
  .object (Json.member "error" (Json.Tree.object
    (Json.member "code" f.code ++ Json.member "message" f.message)))

end Failure

instance : Json.ToTree Failure := ⟨Failure.document⟩

end UserDirectory.Rest
