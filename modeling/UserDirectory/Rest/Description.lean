import UserDirectory.Rest.Route
import UserDirectory.User

/-!
# The description of the interface

The document that tells what the interface over the web offers: its operations, with the shapes
of what goes in and comes out. The operations and shapes are plain data here (`operations`,
`schemas`); `document` writes them in the standard form for such descriptions.
-/

namespace UserDirectory.Rest.Description

open Json (Tree)

/-- The members of an object that is being written. -/
abbrev Members := List (Octets × Tree)

/-- The version of the gateway. -/
def version : String := "0.1.0"

/-! ## Shapes -/

/-- The shape of a value. -/
inductive Shape
  /-- a text, of a named format if one is given -/
  | text (format : Option String)
  /-- a whole number, of a named format if one is given, with a least value if there is one -/
  | integer (format : Option String) (least : Option Nat)
  /-- a shape that is described by name -/
  | named (name : String)
  /-- a list of values of a shape that is described by name -/
  | listOf (name : String)
  deriving DecidableEq, Repr

/-- The members of a reference to a shape that is described by name. -/
def reference (name : String) : Members :=
  Json.member "$ref" ("#/components/schemas/" ++ name)

/-- The members that say what kind a plain value is of, and whether it may be null. -/
def kind (name : String) (nullable : Bool) : Members :=
  if nullable then Json.member "type" [name, "null"] else Json.member "type" name

/-- The members of a shape with what is said about it. -/
def Shape.members (shape : Shape) (nullable : Bool) (about : Members) : Members :=
  match shape with
  | text format => kind "string" nullable ++ Json.optionalMember "format" format ++ about
  | integer format least =>
    kind "integer" nullable ++ Json.optionalMember "format" format ++ about ++
      Json.optionalMember "minimum" least
  | named name =>
    if nullable then
      Json.member "oneOf"
        [Tree.object (Json.member "type" "null"), Tree.object (reference name ++ about)]
    else reference name ++ about
  | listOf name =>
    kind "array" nullable ++ Json.member "items" (Tree.object (reference name)) ++ about

structure Field where
  name : String
  shape : Shape
  about : String
  /-- whether the field may be missing or null -/
  optional : Bool := false
  deriving DecidableEq, Repr

/-- The member that describes a field. -/
def Field.member (f : Field) : Members :=
  Json.member f.name (Tree.object (f.shape.members f.optional (Json.member "description" f.about)))

/-- What stands behind the name of a shape. -/
inductive Definition
  /-- one of some words -/
  | words (choices : List String)
  /-- a record with some fields -/
  | record (fields : List Field)
  deriving DecidableEq, Repr

/-- A shape with a name. -/
structure Schema where
  name : String
  about : String
  definition : Definition
  deriving DecidableEq, Repr

/-- The member that describes a shape with a name. -/
def Schema.member (s : Schema) : Members :=
  let about := Json.member "description" s.about
  let body : Members :=
    match s.definition with
    | .words choices => Json.member "type" "string" ++ about ++ Json.member "enum" choices
    | .record fields =>
      let required := (fields.filter (!·.optional)).map (·.name)
      Json.member "type" "object" ++ about ++
        (if required.isEmpty then [] else Json.member "required" required) ++
        Json.member "properties" (Tree.object (fields.flatMap Field.member))
  Json.member s.name (Tree.object body)

/-- A number of 32 bits. -/
def int32 : Shape := .integer (some "int32") none

def plain : Shape := .text none

def moment : Shape := .text (some "date-time")

/-- What is said of the shape of errors, with an example. -/
def errorShape : String := "\n".intercalate [
  "Structured JSON error response body.",
  "",
  "All error responses follow this shape:",
  "```json",
  "\x7b",
  "  \"error\": \x7b",
  "    \"code\": 2001,",
  "    \"message\": \"user not found\"",
  "  \x7d",
  "\x7d",
  "```"]

/-- All shapes with names. -/
def schemas : List Schema := [
  ⟨"User", "A persisted user as returned by every read or write command.", .record [
    { name := "userId", shape := .text (some "uuid"), about := "Store-assigned identifier." },
    { name := "firstName", shape := plain, about := "Given name." },
    { name := "lastName", shape := plain, about := "Family name." },
    { name := "email", shape := plain, about := "Unique e-mail address." },
    { name := "phone", shape := plain, about := "Optional phone number.", optional := true },
    { name := "age", shape := int32, about := "Optional age in years.", optional := true },
    { name := "status", shape := .named "UserStatus", about := "Account status." },
    { name := "createdAt", shape := moment, about := "Creation timestamp." },
    { name := "updatedAt", shape := moment, about := "Timestamp of the last update." }]⟩,
  ⟨"UserStatus", "Account status of a user.",
    .words [UserStatus.active.word, UserStatus.inactive.word]⟩,
  ⟨"CreateUserInput", "Payload of the `create` command.", .record [
    { name := "firstName", shape := plain, about := "Given name (2–50 characters)." },
    { name := "lastName", shape := plain, about := "Family name (2–50 characters)." },
    { name := "email", shape := plain, about := "E-mail address; must be unique across users." },
    { name := "phone", shape := plain,
      about := "Optional phone number. An empty string is treated as absent.", optional := true },
    { name := "age", shape := int32, about := "Optional age, strictly positive.",
      optional := true },
    { name := "status", shape := .named "UserStatus",
      about := "Initial status; defaults to [`UserStatus::Active`].", optional := true }]⟩,
  ⟨"UpdateUserInput", "Partial update. `None` leaves the stored value untouched.", .record [
    { name := "firstName", shape := plain, about := "New given name.", optional := true },
    { name := "lastName", shape := plain, about := "New family name.", optional := true },
    { name := "email", shape := plain, about := "New e-mail address.", optional := true },
    { name := "phone", shape := plain,
      about := "New phone number; `Some(\"\")` clears the stored phone.", optional := true },
    { name := "age", shape := int32, about := "New age.", optional := true },
    { name := "status", shape := .named "UserStatus", about := "New status.",
      optional := true }]⟩,
  ⟨"DeleteResult", "Reply data of a successful `delete`.", .record [
    { name := "message", shape := plain, about := "Confirmation text, `user deleted`." }]⟩,
  ⟨"ErrorResponse", errorShape, .record [
    { name := "error", shape := .named "ErrorBody", about := "Structured error payload." }]⟩,
  ⟨"ErrorBody", "Inner error body with numeric code and human-readable message.", .record [
    { name := "code", shape := .integer (some "int32") (some 0),
      about := "Numeric error code (see [`GatewayError`])." },
    { name := "message", shape := plain, about := "Human-readable error message." }]⟩,
  ⟨"HealthResponse", "Health check response.", .record [
    { name := "status", shape := plain,
      about := "Always `healthy` while the process serves requests." },
    { name := "timestamp", shape := plain, about := "Current server time, RFC 3339." },
    { name := "version", shape := plain, about := "Crate version." },
    { name := "connections", shape := .integer none (some 0),
      about := "Number of open WebSocket connections." }]⟩]

/-! ## Operations -/

structure Operation where
  path : String
  /-- the method in lower case -/
  method : String
  name : String
  tag : String
  summary : String
  about : String
  /-- whether the path holds an identifier -/
  takesId : Bool := false
  /-- the shape of the body -/
  body : Option String := none
  /-- the statuses, with what they mean and what comes with them -/
  responses : List (Nat × String × Shape)

/-- The member for a document of a given shape. -/
def content (shape : Shape) : Members :=
  Json.member "content" (Tree.object
    (Json.member "application/json" (Tree.object
      (Json.member "schema" (Tree.object (shape.members false []))))))

/-- The identifier in a path. -/
def idParameter : Tree :=
  .object (Json.member "name" "id" ++ Json.member "in" "path" ++
    Json.member "description" "User UUID" ++ Json.member "required" true ++
    Json.member "schema" (Tree.object (plain.members false [])))

/-- The member that describes an operation. -/
def Operation.member (o : Operation) : Members :=
  Json.member o.method (Tree.object
    (Json.member "tags" [o.tag] ++ Json.member "summary" o.summary ++
      Json.member "description" o.about ++ Json.member "operationId" o.name ++
      (if o.takesId then Json.member "parameters" [idParameter] else []) ++
      Json.optionalMember "requestBody" (o.body.map fun name =>
        Tree.object (content (.named name) ++ Json.member "required" true)) ++
      Json.member "responses" (Tree.object (o.responses.flatMap fun (status, about, shape) =>
        Json.member (Decimal.text status) (Tree.object
          (Json.member "description" about ++ content shape))))))

/-- The path of one user, with the place of the identifier. -/
def userPath : String := Route.usersPath ++ "/\x7bid\x7d"

def error (status : Nat) (about : String) : Nat × String × Shape :=
  (status, about, .named "ErrorResponse")

/-- What is said of an operation that has nothing to explain but when it fails. -/
def failsOn (causes : String) : String :=
  "# Errors\n\nReturns [`GatewayError`] " ++ causes ++ "."

def operations : List Operation := [
  { path := Route.usersPath, method := "get", name := "list_users", tag := "Users"
    summary := "List users", about := failsOn "if the user service fails"
    responses := [
      (200, "All users, oldest first", .listOf "User"), error 500 "User service failure"] },
  { path := Route.usersPath, method := "post", name := "create_user", tag := "Users"
    summary := "Create a user"
    about := "Validates the input and creates a user. " ++
      "Connected WebSocket clients receive a `user.created` event."
    body := some "CreateUserInput"
    responses := [
      (201, "User created", .named "User"),
      error 400 "Invalid input or e-mail already exists",
      error 500 "User service failure"] },
  { path := userPath, method := "get", name := "get_user", tag := "Users"
    summary := "Get a user", about := failsOn "on a malformed id or a missing user"
    takesId := true
    responses := [
      (200, "The user", .named "User"), error 400 "Malformed id", error 404 "User not found"] },
  { path := userPath, method := "delete", name := "delete_user", tag := "Users"
    summary := "Delete a user", about := failsOn "on a malformed id or a missing user"
    takesId := true
    responses := [
      (200, "User deleted", .named "DeleteResult"), error 400 "Malformed id",
      error 404 "User not found"] },
  { path := userPath, method := "patch", name := "update_user", tag := "Users"
    summary := "Update a user"
    about := "Changes only the fields present in the body; at least one is required. " ++
      "An empty `phone` clears it."
    takesId := true
    body := some "UpdateUserInput"
    responses := [
      (200, "The updated user", .named "User"), error 400 "Invalid input",
      error 404 "User not found"] },
  { path := Route.healthPath, method := "get", name := "health_handler", tag := "System"
    summary := "Health check"
    about := "Returns service health status, version, current timestamp and the number of open " ++
      "WebSocket connections."
    responses := [(200, "Service is healthy", .named "HealthResponse")] }]

/-! ## The document -/

/-- What the description says of the gateway as a whole. -/
def info : Tree :=
  .object (Json.member "title" "User Gateway API" ++
    Json.member "description" "REST and WebSocket gateway in front of the user command bus." ++
    Json.member "contact" (Tree.object
      (Json.member "name" "Joaquin Bejar" ++ Json.member "email" "jb@taunais.com")) ++
    Json.member "license" (Tree.object
      (Json.member "name" "MIT" ++ Json.member "identifier" "MIT")) ++
    Json.member "version" version)

/-- The paths with their operations. -/
def paths : Tree :=
  .object ([Route.usersPath, userPath, Route.healthPath].flatMap fun path =>
    Json.member path (Tree.object ((operations.filter (·.path == path)).flatMap Operation.member)))

def tags : List Tree :=
  [("Users", "User management"), ("System", "Service status")].map fun (name, about) =>
    .object (Json.member "name" name ++ Json.member "description" about)

/-- The description of the interface. -/
def document : Tree :=
  .object (Json.member "openapi" "3.1.0" ++ Json.member "info" info ++ Json.member "paths" paths ++
    Json.member "components" (Tree.object
      (Json.member "schemas" (Tree.object (schemas.flatMap Schema.member)))) ++
    Json.member "tags" tags)

end UserDirectory.Rest.Description
