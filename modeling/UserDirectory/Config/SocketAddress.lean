import UserDirectory.Decimal.Digits
import UserDirectory.Text.Hex

/-!
# Socket addresses

An address of either internet protocol with a port, read from its text and written again. Octets
of a version 4 address have no leading zeros. A version 6 address may leave out one run of zero
groups as `::` and may end in a version 4 address; it is written with the longest run left out.
-/

namespace UserDirectory.Config

open Decimal (Digit)

/-- An address and a port. -/
inductive SocketAddress
  /-- four octets and a port -/
  | v4 (octets : List Nat) (port : Nat)
  /-- eight groups, a scope, and a port -/
  | v6 (groups : List Nat) (scope : Nat) (port : Nat)
  deriving DecidableEq, Repr

namespace SocketAddress

def port : SocketAddress → Nat
  | v4 _ port => port
  | v6 _ _ port => port

def isV6 : SocketAddress → Bool
  | v4 _ _ => false
  | v6 _ _ _ => true

/-! ## Reading -/

/-- The character `c` in front, and what follows. -/
def takeChar (c : Char) : List Char → Option (List Char)
  | [] => none
  | d :: rest => if d = c then some rest else none

/-- A separator in front of every element but the first. -/
def takeSeparator (c : Char) (index : Nat) (cs : List Char) : Option (List Char) :=
  if index = 0 then some cs else takeChar c cs

/-- A decimal number of at most three digits below 256, without leading zeros. -/
def takeOctet (cs : List Char) : Option (Nat × List Char) :=
  let ds := (cs.takeWhile fun c => (Decimal.digit? c).isSome).filterMap Decimal.digit?
  let n := Decimal.value ds
  if ds.isEmpty || ds.length > 3 || (ds.head? = some 0 && ds.length > 1) || n ≥ 256 then none
  else some (n, cs.drop ds.length)

/-- A decimal number below a bound, with any number of leading zeros. -/
def takeNumber (bound : Nat) (cs : List Char) : Option (Nat × List Char) :=
  let ds := (cs.takeWhile fun c => (Decimal.digit? c).isSome).filterMap Decimal.digit?
  let n := Decimal.value ds
  if ds.isEmpty || n ≥ bound then none else some (n, cs.drop ds.length)

/-- The four octets of a version 4 address. -/
def takeV4 (cs : List Char) : Option (List Nat × List Char) := do
  let (a, cs) ← takeOctet cs
  let (b, cs) ← takeOctet (← takeChar '.' cs)
  let (c, cs) ← takeOctet (← takeChar '.' cs)
  let (d, cs) ← takeOctet (← takeChar '.' cs)
  return ([a, b, c, d], cs)

/-- A group of one to four hexadecimal digits. -/
def takeGroup (cs : List Char) : Option (Nat × List Char) :=
  let ds := (cs.takeWhile fun c => (Text.hexValue? c).isSome).filterMap Text.hexValue?
  if ds.isEmpty || ds.length > 4 then none
  else some (ds.foldl (fun n d => 16 * n + d.val) 0, cs.drop ds.length)

/-- A version 4 address as two groups, behind a separator. -/
def takeEmbedded (index : Nat) (cs : List Char) : Option (List Nat × List Char) := do
  let (octets, cs) ← takeV4 (← takeSeparator ':' index cs)
  match octets with
  | [a, b, c, d] => return ([256 * a + b, 256 * c + d], cs)
  | _ => none

/-- As many groups as follow, at most `left` of them, of which `index` were read before; whether
they end in a version 4 address; and what follows. -/
def takeGroups : (left index : Nat) → List Char → List Nat × Bool × List Char
  | 0, _, cs => ([], false, cs)
  | left + 1, index, cs =>
    let embedded := if left = 0 then none else takeEmbedded index cs
    match embedded with
    | some (groups, rest) => (groups, true, rest)
    | none =>
      match (takeSeparator ':' index cs).bind takeGroup with
      | none => ([], false, cs)
      | some (group, rest) =>
        let (groups, ended, rest) := takeGroups left (index + 1) rest
        (group :: groups, ended, rest)

/-- The eight groups of a version 6 address. -/
def takeV6 (cs : List Char) : Option (List Nat × List Char) := do
  let (head, ended, cs) := takeGroups 8 0 cs
  if head.length = 8 then return (head, cs)
  if ended then none
  let cs ← takeChar ':' (← takeChar ':' cs)
  let (tail, _, cs) := takeGroups (7 - head.length) 0 cs
  return (head ++ List.replicate (8 - head.length - tail.length) 0 ++ tail, cs)

/-- The port after a colon. -/
def takePort (cs : List Char) : Option (Nat × List Char) := do takeNumber 65536 (← takeChar ':' cs)

/-- The scope after a percent sign, or zero. -/
def takeScope (cs : List Char) : Nat × List Char :=
  ((takeChar '%' cs).bind (takeNumber (Nat.pow 2 32))).getD (0, cs)

/-- A version 4 address with its port. -/
def readV4? (cs : List Char) : Option SocketAddress := do
  let (octets, cs) ← takeV4 cs
  let (port, cs) ← takePort cs
  if cs.isEmpty then return v4 octets port else none

/-- A bracketed version 6 address with its port. -/
def readV6? (cs : List Char) : Option SocketAddress := do
  let (groups, cs) ← takeV6 (← takeChar '[' cs)
  let (scope, cs) := takeScope cs
  let (port, cs) ← takePort (← takeChar ']' cs)
  if cs.isEmpty then return v6 groups scope port else none

/-- The address that a text gives. -/
def parse? (s : String) : Option SocketAddress := (readV4? s.toList).or (readV6? s.toList)

/-! ## Writing -/

/-- The hexadecimal digits of a number without leading zeros; zero has one digit. -/
def hexChars (n : Nat) : List Char :=
  if n < 16 then [Text.hexDigit (Fin.ofNat 16 n)]
  else hexChars (n / 16) ++ [Text.hexDigit (Fin.ofNat 16 n)]

def v4Text (octets : List Nat) : String := ".".intercalate (octets.map Decimal.text)

/-- The length of the run of zeros in front. -/
def zeroRun (groups : List Nat) : Nat := (groups.takeWhile (· == 0)).length

/-- The start and the length of the longest run of zeros, the first of several. -/
def longestZeroRun (groups : List Nat) : Nat × Nat :=
  (List.range groups.length).foldl
    (fun best i => if zeroRun (groups.drop i) > best.2 then (i, zeroRun (groups.drop i)) else best)
    (0, 0)

/-- Groups in hexadecimal with colons between them. -/
def groupsText (groups : List Nat) : String :=
  ":".intercalate (groups.map fun g => String.ofList (hexChars g))

def v6Text (groups : List Nat) : String :=
  match groups with
  | [0, 0, 0, 0, 0, 0xFFFF, a, b] => "::ffff:" ++ v4Text [a / 256, a % 256, b / 256, b % 256]
  | _ =>
    let (start, length) := longestZeroRun groups
    if length > 1 then
      groupsText (groups.take start) ++ "::" ++ groupsText (groups.drop (start + length))
    else groupsText groups

def text : SocketAddress → String
  | v4 octets port => v4Text octets ++ ":" ++ Decimal.text port
  | v6 groups scope port =>
    "[" ++ v6Text groups ++ (if scope = 0 then "" else "%" ++ Decimal.text scope) ++ "]:" ++
      Decimal.text port

end SocketAddress

end UserDirectory.Config
