import UserDirectory.Time.Duration

/-!
# Failures of the bus
-/

namespace UserDirectory.Broker

/-- Why an operation of the bus failed. -/
inductive Failure
  | closed
  /-- no live subscriber of the channel had room for the request -/
  | noResponders (channel : String)
  /-- the request was not answered in time -/
  | timeout (channel : String) (after : Time.Duration)
  /-- every copy of the request was dropped unanswered -/
  | noReply (channel : String)
  /-- the request was answered before, or nobody waits for the answer any more -/
  | replyDropped
  | noReplyExpected
  deriving DecidableEq, Repr

def Failure.message : Failure → String
  | closed => "broker is closed"
  | noResponders channel => "no responders on channel " ++ channel
  | timeout channel after => "request on channel " ++ channel ++ " timed out after " ++ after.text
  | noReply channel => "request on channel " ++ channel ++ " was dropped without a reply"
  | replyDropped => "reply target is gone"
  | noReplyExpected => "message does not expect a reply"

end UserDirectory.Broker
