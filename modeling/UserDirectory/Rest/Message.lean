import UserDirectory.Json.Codec

/-!
# Requests and responses over the web

Only what the gateway looks at is kept of a request, and only what it sets of a response.
-/

namespace UserDirectory.Rest

inductive Method
  | get
  | head
  | post
  | patch
  | delete
  | options
  | other (name : String)
  deriving DecidableEq, Repr

namespace Method

def ofName (name : String) : Method :=
  match name with
  | "GET" => get
  | "HEAD" => head
  | "POST" => post
  | "PATCH" => patch
  | "DELETE" => delete
  | "OPTIONS" => options
  | name => other name

def name : Method → String
  | get => "GET"
  | head => "HEAD"
  | post => "POST"
  | patch => "PATCH"
  | delete => "DELETE"
  | options => "OPTIONS"
  | other name => name

end Method

structure Request where
  method : Method
  /-- the path as it was sent, with the query behind it -/
  target : String
  contentType : Option String := none
  body : Octets := []
  deriving DecidableEq

structure Response where
  status : Nat
  contentType : Option String := none
  /-- the methods that the path knows, where they are told -/
  allow : Option String := none
  body : Octets := []
  deriving DecidableEq, Repr

namespace Response

/-- A response that carries a document. -/
def json {α : Type} [Json.ToTree α] (status : Nat) (document : α) : Response :=
  { status, contentType := some "application/json", body := Json.encode document }

/-- A response that carries a line of text. -/
def text (status : Nat) (line : String) : Response :=
  { status, contentType := some "text/plain; charset=utf-8", body := Octets.ofText line }

/-- The response as it is sent for a method: nobody who asks for the head gets the body. -/
def sentFor (r : Response) (m : Method) : Response :=
  if m = .head then { r with body := [] } else r

end Response

end UserDirectory.Rest
