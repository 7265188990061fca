/-!
# Media types

Whether the content type of a request announces a JSON document: `application/json`, or a type
with the suffix `+json`, with any parameters, in either case.
-/

namespace UserDirectory.Rest.MediaType

/-- Whether a character may stand in a token. -/
def isTokenChar (c : Char) : Bool :=
  c.isAlphanum || "!#$%&'*+-.^_`|~".toList.contains c

/-- Whether a character may stand in a quoted text. -/
def isQuotedChar (c : Char) : Bool := 32 ≤ c.toNat && c.toNat < 127

/-- What follows a quoted text, after its opening mark: one character of any kind, which may be a
quotation mark, then characters up to the next quotation mark. -/
def takeQuoted : List Char → Option (List Char)
  | [] => none
  | first :: more =>
    if isQuotedChar first && (more.takeWhile (· != '"')).all isQuotedChar then
      match more.dropWhile (· != '"') with
      | [] => none
      | _ :: rest => some rest
    else none

/-- What follows the value of a parameter, which is a token that may be empty at the end of the
text, or a quoted text. -/
def takeValue (cs : List Char) : Option (List Char) :=
  match cs with
  | '"' :: quoted =>
    (takeQuoted quoted).bind fun rest =>
      match rest.dropWhile (· == ' ') with
      | [] => some []
      | ';' :: rest => some rest
      | _ => none
  | cs =>
    match cs.dropWhile isTokenChar with
    | [] => some []
    | ';' :: rest => if (cs.takeWhile isTokenChar).isEmpty then none else some rest
    | _ => none

/-- Whether a text is a list of parameters, of at most `fuel` of them. -/
def areParameters : (fuel : Nat) → List Char → Bool
  | 0, cs => cs.isEmpty
  | fuel + 1, cs =>
    match cs.dropWhile (· == ' ') with
    | [] => true
    | cs =>
      let name := cs.takeWhile isTokenChar
      match cs.dropWhile isTokenChar with
      | '=' :: value =>
        if name.isEmpty then false
        else
          match takeValue value with
          | none => false
          | some rest => areParameters fuel rest
      | _ => false

/-- The part of a subtype before its last plus sign and the part after it; a plus sign in front
does not count. -/
def splitSuffix (subtype : List Char) : List Char × Option (List Char) :=
  let suffix := (subtype.reverse.takeWhile (· != '+')).reverse
  let rest := subtype.take (subtype.length - suffix.length - 1)
  if suffix.length = subtype.length || rest.isEmpty then (subtype, none) else (rest, some suffix)

/-- Whether a content type announces a JSON document. -/
def isJson (contentType : String) : Bool :=
  let cs := contentType.toList
  let type := cs.takeWhile isTokenChar
  match cs.dropWhile isTokenChar with
  | '/' :: rest =>
    let subtype := rest.takeWhile isTokenChar
    let parameters := rest.dropWhile isTokenChar
    let wellFormed :=
      !type.isEmpty &&
      (match parameters with
        | [] => true
        | ';' :: ps => !subtype.isEmpty && areParameters (ps.length + 1) ps
        | _ => false)
    let (main, suffix) := splitSuffix (subtype.map Char.toLower)
    wellFormed && type.map Char.toLower == "application".toList &&
      (main == "json".toList || suffix == some "json".toList)
  | _ => false

end UserDirectory.Rest.MediaType
