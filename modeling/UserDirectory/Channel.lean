/-!
# Channels

The names under which commands and events travel over the bus. They are the contract with every
other producer and consumer and are written here only.
-/

namespace UserDirectory

/-- The commands that the command server answers. -/
inductive Command
  | create
  | list
  | get
  | update
  | delete
  deriving DecidableEq, Repr

namespace Command

/-- All commands, in the order in which a server subscribes to them. -/
def all : List Command := [create, list, get, update, delete]

def name : Command → String
  | create => "create"
  | list => "list"
  | get => "get"
  | update => "update"
  | delete => "delete"

/-- The channel that carries a command. -/
def channel (c : Command) : String := "user.command." ++ c.name

/-- The command with a given name. -/
def ofName? (name : String) : Option Command := all.find? (·.name == name)

@[simp] theorem ofName?_name (c : Command) : ofName? c.name = some c := by
  cases c <;> rfl

end Command

/-- What an event tells of. -/
inductive EventKind
  | created
  | updated
  | deleted
  deriving DecidableEq, Repr

namespace EventKind

/-- All kinds of events, in the order in which their channels are subscribed to. -/
def all : List EventKind := [created, updated, deleted]

def word : EventKind → String
  | created => "created"
  | updated => "updated"
  | deleted => "deleted"

/-- The channel that carries events of a kind. -/
def channel (k : EventKind) : String := "user.event." ++ k.word

/-- The type that events of a kind name in their envelope. -/
def typeName (k : EventKind) : String := "user." ++ k.word

theorem mem_all (k : EventKind) : k ∈ all := by
  cases k <;> decide

end EventKind

end UserDirectory
