import UserDirectory.Envelope

/-!
# Operations on users

The five operations with their arguments, as values. Every way into the gateway ends in one of
them, and the store carries them out.
-/

namespace UserDirectory

/-- An operation on users with its arguments. -/
inductive Call
  | create (input : NewUser)
  | list
  | get (id : UserId)
  | update (id : UserId) (changes : UserChanges)
  | delete (id : UserId)
  deriving DecidableEq

namespace Call

def command : Call → Command
  | create _ => .create
  | list => .list
  | get _ => .get
  | update _ _ => .update
  | delete _ => .delete

def channel (c : Call) : String := c.command.channel

end Call

end UserDirectory
