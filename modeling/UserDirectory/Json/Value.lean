import UserDirectory.Json.Tree

/-!
# Kept values

A `Value` is what is kept of a document of unknown shape: numbers are numbers, strings are texts,
and the members of an object are sorted by key, the last of those with one key winning.

Keeping a tree asks more than reading it: nesting is bounded by the room that is left, every
string and key must spell a text, and every number must be finite. `toTree` gives the tree that a
value is written as.
-/

namespace UserDirectory.Json

/-- A document of unknown shape. -/
inductive Value
  | null
  | bool (b : Bool)
  | number (x : Number)
  | string (s : String)
  | array (items : List Value)
  | object (members : List (String × Value))
  deriving Repr, Inhabited

/-- The levels of containers that a document of unknown shape may have. -/
def maxDepth : Nat := 127

namespace Value

/-- Puts a member into members sorted by key, in place of one with the same key. -/
def insert (key : String) (v : Value) : List (String × Value) → List (String × Value)
  | [] => [(key, v)]
  | (k, w) :: rest =>
    if key < k then (key, v) :: (k, w) :: rest
    else if key = k then (key, v) :: rest
    else (k, w) :: insert key v rest

/-- The value of a tree that may open `room` more levels of containers. -/
def ofTree? : (room : Nat) → Tree → Option Value
  | _, .null => some null
  | _, .bool b => some (bool b)
  | _, .number x => x.number?.map number
  | _, .string raw => (Quoted.text? raw).map string
  | 0, .array _ => none
  | 0, .object _ => none
  | room + 1, .array items => (items.mapM (ofTree? room)).map array
  | room + 1, .object members => do
    let read ← members.mapM fun (key, t) => do
      return (← Quoted.text? key, ← ofTree? room t)
    return object (read.foldl (fun kept (key, v) => insert key v kept) [])

mutual

/-- The tree that a value is written as. -/
def toTree : Value → Tree
  | null => .null
  | bool b => .bool b
  | number x => .number (Numeral.ofNumber x)
  | string s => .string (Quoted.escape s)
  | array items => .array (itemTrees items)
  | object members => .object (memberTrees members)

/-- The trees of the items of an array. -/
def itemTrees : List Value → List Tree
  | [] => []
  | v :: vs => toTree v :: itemTrees vs

/-- The trees of the members of an object. -/
def memberTrees : List (String × Value) → List (Octets × Tree)
  | [] => []
  | (key, v) :: ms => (Quoted.escape key, toTree v) :: memberTrees ms

end

end Value

/-- The value of a tree that stands alone. -/
def Tree.value? (t : Tree) : Option Value := Value.ofTree? maxDepth t

end UserDirectory.Json
