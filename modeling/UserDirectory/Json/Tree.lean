import UserDirectory.Json.Token

/-!
# Documents as trees

A tree is a document with its strings still escaped and its numbers still literals. Reading a
tree checks the grammar and nothing else: trees may be arbitrarily deep, keys may repeat, numbers
may be too large and strings may spell no text. Those are questions for whoever keeps a value.

`ofTokens?` is a reader with an explicit stack of open containers, so the depth of a document
costs no stack of its own; `tokens` writes a tree without blanks.
-/

namespace UserDirectory.Json

/-- A document whose strings are still escaped and whose numbers are still literals. -/
inductive Tree
  | null
  | bool (b : Bool)
  | number (x : Numeral)
  | string (raw : Octets)
  | array (items : List Tree)
  | object (members : List (Octets × Tree))
  deriving Repr, Inhabited

namespace Tree

/-! ## Writing -/

mutual

/-- The tokens of a tree. -/
def tokens : Tree → List Token
  | null => [.null]
  | bool b => [.bool b]
  | number x => [.number x]
  | string raw => [.string raw]
  | array items => .openBracket :: (itemTokens true items ++ [.closeBracket])
  | object members => .openBrace :: (memberTokens true members ++ [.closeBrace])

/-- The tokens of the items of an array, with a comma before each but the first. -/
def itemTokens (first : Bool) : List Tree → List Token
  | [] => []
  | t :: ts => (if first then [] else [.comma]) ++ (tokens t ++ itemTokens false ts)

/-- The tokens of the members of an object, with a comma before each but the first. -/
def memberTokens (first : Bool) : List (Octets × Tree) → List Token
  | [] => []
  | (key, t) :: ms =>
    (if first then [] else [.comma]) ++
      (.string key :: .colon :: (tokens t ++ memberTokens false ms))

end

def text (t : Tree) : Octets := t.tokens.flatMap Token.text

/-! ## Reading -/

/-- A container that is still open, with what it holds so far in reverse. -/
inductive Frame
  | array (items : List Tree)
  | object (members : List (Octets × Tree)) (key : Octets)
  deriving Repr

/-- What the reader may meet next. -/
inductive Awaiting
  | value
  /-- the first item of an array, or its end -/
  | firstItem
  /-- the first key of an object, or its end -/
  | firstKey
  | key (members : List (Octets × Tree))
  /-- the colon after a key -/
  | colon (members : List (Octets × Tree)) (key : Octets)
  /-- a comma or the end of the innermost container, whose last value is given -/
  | follow (last : Tree)
  deriving Repr

/-- The value of one token. -/
def leaf? : Token → Option Tree
  | .null => some null
  | .bool b => some (bool b)
  | .number x => some (number x)
  | .string raw => some (string raw)
  | _ => none

/-- Reads one token where a value may start. -/
def stepValue (open' : List Frame) : Token → Option (List Frame × Awaiting)
  | .openBracket => some (open', .firstItem)
  | .openBrace => some (open', .firstKey)
  | t => (leaf? t).map fun v => (open', .follow v)

/-- Reads one token. -/
def step (open' : List Frame) (awaiting : Awaiting) (t : Token) : Option (List Frame × Awaiting) :=
  match awaiting with
  | .value => stepValue open' t
  | .firstItem =>
    match t with
    | .closeBracket => some (open', .follow (array []))
    | t => stepValue (.array [] :: open') t
  | .firstKey =>
    match t with
    | .closeBrace => some (open', .follow (object []))
    | .string key => some (open', .colon [] key)
    | _ => none
  | .key members =>
    match t with
    | .string key => some (open', .colon members key)
    | _ => none
  | .colon members key =>
    match t with
    | .colon => some (.object members key :: open', .value)
    | _ => none
  | .follow last =>
    match open', t with
    | .array items :: outer, .comma => some (.array (last :: items) :: outer, .value)
    | .array items :: outer, .closeBracket =>
      some (outer, .follow (array (last :: items).reverse))
    | .object members key :: outer, .comma => some (outer, .key ((key, last) :: members))
    | .object members key :: outer, .closeBrace =>
      some (outer, .follow (object ((key, last) :: members).reverse))
    | _, _ => none

/-- Reads tokens from a state of the reader to the end of the document. -/
def run (open' : List Frame) (awaiting : Awaiting) : List Token → Option Tree
  | [] =>
    match open', awaiting with
    | [], .follow t => some t
    | _, _ => none
  | t :: ts =>
    match step open' awaiting t with
    | none => none
    | some (open', awaiting) => run open' awaiting ts

/-- The tree whose tokens these are. -/
def ofTokens? (ts : List Token) : Option Tree := run [] .value ts

/-- The tree that the octets spell, with blanks around and between its tokens. -/
def read? (s : Octets) : Option Tree := (Token.scan s).bind ofTokens?

end Tree

end UserDirectory.Json
