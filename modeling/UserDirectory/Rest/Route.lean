import UserDirectory.Rest.Message

/-!
# Routes

Where a path leads. Paths are compared character by character: a slash more or less leads
nowhere. The query plays no part, and neither does the host of an absolute target.
-/

namespace UserDirectory.Rest

/-- What a path may lead to. -/
inductive Route
  /-- all users -/
  | users
  /-- one user; the identifier is still as it stands in the path -/
  | user (segment : List Char)
  | health
  /-- the socket connections -/
  | socket
  /-- the description of this interface -/
  | description
  deriving DecidableEq, Repr

namespace Route

def usersPath : String := "/users"

def healthPath : String := "/health"

def socketPath : String := "/ws"

def descriptionPath : String := "/api-docs/openapi.json"

/-- Whether a character may stand in the scheme of an absolute target. -/
def isSchemeChar (c : Char) : Bool := c.isAlphanum || c == '+' || c == '-' || c == '.'

/-- What follows the scheme of an absolute target; none if the target has no scheme. -/
def afterScheme? (cs : List Char) : Option (List Char) :=
  match cs.dropWhile isSchemeChar with
  | ':' :: '/' :: '/' :: rest => some rest
  | _ => none

/-- Whether a character ends the name of a host. -/
def endsHost (c : Char) : Bool := c == '/' || c == '?' || c == '#'

/-- What a target says about the place on its host: all of it if it starts with a slash, what
follows the host if it is absolute, and nothing otherwise. -/
def onHost (cs : List Char) : List Char :=
  if cs.head? = some '/' then cs
  else ((afterScheme? cs).getD []).dropWhile (!endsHost ·)

/-- The path of a target, without its query. -/
def pathOf (target : String) : List Char :=
  (onHost target.toList).takeWhile fun c => c != '?' && c != '#'

/-- Where a target leads, if it leads anywhere. -/
def ofTarget? (target : String) : Option Route :=
  let path := pathOf target
  if path = usersPath.toList then some users
  else if path = healthPath.toList then some health
  else if path = socketPath.toList then some socket
  else if path = descriptionPath.toList then some description
  else
    let lead := usersPath.toList ++ ['/']
    let segment := path.drop lead.length
    if lead.isPrefixOf path && !segment.isEmpty && !segment.contains '/' then some (user segment)
    else none

/-- The methods that a route knows, in the order in which they are told. -/
def methods : Route → List Method
  | users => [.get, .head, .post]
  | user _ => [.get, .head, .patch, .delete]
  | health | socket | description => [.get, .head]

/-- The text that tells the methods of a route. -/
def allow (r : Route) : String := ",".intercalate (r.methods.map Method.name)

end Route

end UserDirectory.Rest
