import UserDirectory.Json.Numeral
import UserDirectory.Json.Quoted

/-!
# Tokens

A document is first cut into tokens. Strings keep their escaped form and numbers their digits, so
nothing is lost or judged here that only matters to whoever keeps the value.

`scan` reads tokens and `text` writes them; blanks between tokens are space, tab, line feed and
carriage return only.
-/

namespace UserDirectory.Json

open Decimal (Digit)

/-- The tokens of a document. -/
inductive Token
  | openBrace
  | closeBrace
  | openBracket
  | closeBracket
  | comma
  | colon
  | null
  | bool (b : Bool)
  | number (x : Numeral)
  | string (raw : Octets)
  deriving DecidableEq, Repr

namespace Token

/-! ## Writing -/

/-- The octet of a digit. -/
def digitOctet (d : Digit) : UInt8 := 0x30 + UInt8.ofNat d.val

/-- The octets of a number literal; an exponent always carries its sign. -/
def numeralText (x : Numeral) : Octets :=
  (if x.negative then [0x2D] else []) ++ x.whole.map digitOctet ++
  (match x.fraction with
    | none => []
    | some ds => 0x2E :: ds.map digitOctet) ++
  (match x.exponent with
    | none => []
    | some e => 0x65 :: (if e.negative then 0x2D else 0x2B) :: e.digits.map digitOctet)

/-- The octets of a token. -/
def text : Token → Octets
  | openBrace => [0x7B]
  | closeBrace => [0x7D]
  | openBracket => [0x5B]
  | closeBracket => [0x5D]
  | comma => [0x2C]
  | colon => [0x3A]
  | null => [0x6E, 0x75, 0x6C, 0x6C]
  | bool true => [0x74, 0x72, 0x75, 0x65]
  | bool false => [0x66, 0x61, 0x6C, 0x73, 0x65]
  | number x => numeralText x
  | string raw => 0x22 :: (raw ++ [0x22])

/-! ## Reading numbers -/

/-- The digit that an octet stands for. -/
def digit? (b : UInt8) : Option Digit :=
  if h : 48 ≤ b.toNat ∧ b.toNat < 58 then some ⟨b.toNat - 48, by omega⟩ else none

def isDigit (b : UInt8) : Bool := (digit? b).isSome

/-- The digits in front of the octets, and what follows them. -/
def takeDigits (s : Octets) : List Digit × Octets :=
  ((s.takeWhile isDigit).filterMap digit?, s.dropWhile isDigit)

theorem length_takeDigits_le (s : Octets) : (takeDigits s).2.length ≤ s.length :=
  (List.dropWhile_suffix isDigit).length_le

/-- The digits before the point: a single zero, or digits that start with no zero. -/
def takeWhole (s : Octets) : Option (List Digit × Octets) :=
  match s with
  | [] => none
  | b :: rest =>
    if b = 0x30 then some ([0], rest)
    else if isDigit b then some (takeDigits s)
    else none

/-- The fraction, if a point follows; a point must be followed by a digit. -/
def takeFraction (s : Octets) : Option (Option (List Digit) × Octets) :=
  match s with
  | [] => some (none, [])
  | b :: rest =>
    if b = 0x2E then
      let (ds, after) := takeDigits rest
      if ds.isEmpty then none else some (some ds, after)
    else some (none, s)

/-- An optional sign, and whether it is a minus. -/
def takeSign (s : Octets) : Bool × Octets :=
  match s with
  | [] => (false, [])
  | b :: rest =>
    if b = 0x2D then (true, rest) else if b = 0x2B then (false, rest) else (false, s)

/-- The exponent, if the letter `e` follows in either case; it must have a digit. -/
def takeExponent (s : Octets) : Option (Option Exponent × Octets) :=
  match s with
  | [] => some (none, [])
  | b :: rest =>
    if b = 0x65 || b = 0x45 then
      let (negative, digitsOn) := takeSign rest
      let (ds, after) := takeDigits digitsOn
      if ds.isEmpty then none else some (some ⟨negative, ds⟩, after)
    else some (none, s)

/-- The number literal in front of the octets, after its sign. -/
def takeUnsigned (negative : Bool) (s : Octets) : Option (Numeral × Octets) := do
  let (whole, s) ← takeWhole s
  let (fraction, s) ← takeFraction s
  let (exponent, s) ← takeExponent s
  return (⟨negative, whole, fraction, exponent⟩, s)

theorem length_takeWhole_le {s rest : Octets} {ds : List Digit}
    (h : takeWhole s = some (ds, rest)) : rest.length < s.length := by
  unfold takeWhole at h
  split at h
  · simp at h
  · rename_i b tail
    split at h
    · simp_all
    · split at h
      · rename_i hd
        have hlen : (takeDigits (b :: tail)).2.length ≤ tail.length := by
          simp only [takeDigits, List.dropWhile_cons, hd, if_true]
          exact (List.dropWhile_suffix isDigit).length_le
        have hrest : (takeDigits (b :: tail)).2 = rest :=
          congrArg Prod.snd (Option.some.inj h)
        rw [hrest] at hlen
        simp only [List.length_cons]
        omega
      · simp at h

theorem length_takeFraction_le {s rest : Octets} {ds : Option (List Digit)}
    (h : takeFraction s = some (ds, rest)) : rest.length ≤ s.length := by
  unfold takeFraction at h
  split at h
  · simp_all
  · rename_i b tail
    split at h
    · have hlen := length_takeDigits_le tail
      simp only at h
      split at h
      · simp at h
      · have hrest : (takeDigits tail).2 = rest :=
          congrArg Prod.snd (Option.some.inj h)
        rw [hrest] at hlen
        simp only [List.length_cons]
        omega
    · simp_all

theorem length_takeSign_le (s : Octets) : (takeSign s).2.length ≤ s.length := by
  unfold takeSign
  split
  · simp
  · split
    · simp
    · split <;> simp

theorem length_takeExponent_le {s rest : Octets} {e : Option Exponent}
    (h : takeExponent s = some (e, rest)) : rest.length ≤ s.length := by
  unfold takeExponent at h
  split at h
  · simp_all
  · rename_i b tail
    split at h
    · have h₁ := length_takeSign_le tail
      have hlen := length_takeDigits_le (takeSign tail).2
      simp only at h
      split at h
      · simp at h
      · have hrest : (takeDigits (takeSign tail).2).2 = rest :=
          congrArg Prod.snd (Option.some.inj h)
        rw [hrest] at hlen
        simp only [List.length_cons]
        omega
    · simp_all

theorem length_takeUnsigned_lt {negative : Bool} {s rest : Octets} {x : Numeral}
    (h : takeUnsigned negative s = some (x, rest)) : rest.length < s.length := by
  unfold takeUnsigned at h
  simp only [Option.bind_eq_bind, Option.bind_eq_some_iff, Prod.exists, Option.pure_def,
    Option.some.injEq, Prod.mk.injEq] at h
  obtain ⟨_, s₁, h₁, _, s₂, h₂, _, s₃, h₃, _, rfl⟩ := h
  have := length_takeWhole_le h₁
  have := length_takeFraction_le h₂
  have := length_takeExponent_le h₃
  omega

/-! ## Reading tokens -/

/-- Whether an octet may stand between tokens. -/
def isBlank (b : UInt8) : Bool := b = 0x20 || b = 0x09 || b = 0x0A || b = 0x0D

/-- The token of one octet. -/
def punctuation? (b : UInt8) : Option Token :=
  if b = 0x7B then some openBrace
  else if b = 0x7D then some closeBrace
  else if b = 0x5B then some openBracket
  else if b = 0x5D then some closeBracket
  else if b = 0x2C then some comma
  else if b = 0x3A then some colon
  else none

/-- What remains after a word, if the octets start with it. -/
def dropWord (word s : Octets) : Option Octets :=
  if word.isPrefixOf s then some (s.drop word.length) else none

/-- The token that starts with the octet `b`, and what follows it. -/
def next? (b : UInt8) (rest : Octets) : Option (Token × Octets) :=
  match punctuation? b with
  | some t => some (t, rest)
  | none =>
    if b = 0x22 then (Quoted.skip [] rest).map fun (raw, rest) => (string raw, rest)
    else if b = 0x2D then (takeUnsigned true rest).map fun (x, rest) => (number x, rest)
    else if isDigit b then (takeUnsigned false (b :: rest)).map fun (x, rest) => (number x, rest)
    else if b = 0x6E then (dropWord [0x75, 0x6C, 0x6C] rest).map fun rest => (null, rest)
    else if b = 0x74 then (dropWord [0x72, 0x75, 0x65] rest).map fun rest => (bool true, rest)
    else if b = 0x66 then
      (dropWord [0x61, 0x6C, 0x73, 0x65] rest).map fun rest => (bool false, rest)
    else none

theorem length_dropWord_le {word s rest : Octets} (h : dropWord word s = some rest) :
    rest.length ≤ s.length := by
  unfold dropWord at h
  split at h
  · obtain rfl := Option.some.inj h
    simp
  · simp at h

theorem length_next_le {b : UInt8} {rest after : Octets} {t : Token}
    (h : next? b rest = some (t, after)) : after.length ≤ rest.length := by
  unfold next? at h
  split at h
  · simp_all
  · repeat' split at h
    all_goals simp only [Option.map_eq_some_iff, Prod.mk.injEq, Prod.exists, reduceCtorEq] at h
    · obtain ⟨_, _, h, _, rfl⟩ := h
      exact Nat.le_of_lt (Quoted.length_lt_of_skip h)
    · obtain ⟨_, _, h, _, rfl⟩ := h
      exact Nat.le_of_lt (length_takeUnsigned_lt h)
    · obtain ⟨_, _, h, _, rfl⟩ := h
      exact Nat.le_of_lt_succ (length_takeUnsigned_lt h)
    all_goals
      obtain ⟨_, h, _, rfl⟩ := h
      exact length_dropWord_le h

/-- The tokens of the octets; the first argument holds those already read, in reverse. -/
def scanFrom (read : List Token) (s : Octets) : Option (List Token) :=
  match s with
  | [] => some read.reverse
  | b :: rest =>
    if isBlank b then scanFrom read rest
    else
      match h : next? b rest with
      | none => none
      | some (t, after) =>
        have : after.length ≤ rest.length := length_next_le h
        scanFrom (t :: read) after
termination_by s.length
decreasing_by all_goals simp only [List.length_cons]; omega

/-- The tokens of the octets. -/
def scan (s : Octets) : Option (List Token) := scanFrom [] s

end Token

end UserDirectory.Json
