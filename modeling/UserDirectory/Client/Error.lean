import UserDirectory.Broker.Error
import UserDirectory.Envelope

/-!
# Failures of a command as its caller sees them
-/

namespace UserDirectory.Client

/-- Why a command failed. -/
inductive Failure
  /-- no answer came in time -/
  | timeout (channel : String) (after : Time.Duration)
  /-- the bus failed in another way -/
  | transport (cause : Broker.Failure)
  /-- the server refused the request -/
  | badRequest (message : String)
  /-- the server knows no such user -/
  | notFound (message : String)
  /-- the server failed in another way -/
  | service (code : ErrorCode) (message : String)
  /-- the answer succeeded but carried no data -/
  | emptyResponse (channel : String)
  /-- the answer could not be read -/
  | undecodable
  deriving DecidableEq, Repr

namespace Failure

/-- The text of a failure; for an answer that could not be read there is none but its kind. -/
def message : Failure → String
  | timeout channel after => "request on " ++ channel ++ " timed out after " ++ after.text
  | transport cause => "transport failure: " ++ cause.message
  | badRequest message => message
  | notFound message => message
  | service _ message => message
  | emptyResponse channel => "empty response on " ++ channel
  | undecodable => "decode failed"

/-- A failure of the bus as the caller of a command sees it. -/
def ofBroker : Broker.Failure → Failure
  | .timeout channel after => timeout channel after
  | cause => transport cause

/-- A failure that the server reported. -/
def ofCommandError (e : CommandError) : Failure :=
  match e.code with
  | .badRequest => badRequest e.message
  | .notFound => notFound e.message
  | code => service code e.message

/-- A failure that the server reported without saying why. -/
def unexplained : Failure := service .internal "request failed"

end Failure

end UserDirectory.Client
