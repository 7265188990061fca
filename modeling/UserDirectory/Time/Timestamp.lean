import UserDirectory.Decimal.Digits
import UserDirectory.Text.Blank
import UserDirectory.Time.Instant

/-!
# Timestamps

The two written forms of a moment.

* An *exact timestamp* has as many fraction digits as the moment needs, in groups of three, and
  ends in `Z`. It is read leniently: numbers may be short and have blanks in front, further
  fraction digits are dropped, and any offset of less than a day is converted.
* A *second stamp* stops at the second, in one fixed pattern.

Years outside 0 to 9999 carry a sign in both forms.
-/

namespace UserDirectory.Time

open Decimal (Digit paddedChars)

/-! ## Writing -/

/-- The characters of a year: four digits, with a sign and possibly more digits outside 0 to
9999. -/
def yearChars (year : Int) : List Char :=
  if 0 ≤ year ∧ year ≤ 9999 then paddedChars 4 year.natAbs
  else (if year < 0 then '-' else '+') :: paddedChars 4 year.natAbs

/-- The characters of the date and the time down to the second. -/
def secondChars (t : Instant) : List Char :=
  yearChars t.date.year ++ '-' :: paddedChars 2 t.date.month ++ '-' :: paddedChars 2 t.date.day ++
    'T' :: paddedChars 2 t.hour ++ ':' :: paddedChars 2 t.minute ++ ':' :: paddedChars 2 t.second

/-- The characters of a fraction of a second: none, three, six or nine digits after a point. -/
def fractionChars (nano : Nat) : List Char :=
  if nano = 0 then []
  else if nano % 1000000 = 0 then '.' :: paddedChars 3 (nano / 1000000)
  else if nano % 1000 = 0 then '.' :: paddedChars 6 (nano / 1000)
  else '.' :: paddedChars 9 nano

/-- The exact timestamp of a moment, with a given mark for universal time. -/
def exactWith (zone : String) (t : Instant) : String :=
  String.ofList (secondChars t ++ fractionChars t.nano) ++ zone

/-- The exact timestamp of a moment. -/
def exact (t : Instant) : String := exactWith "Z" t

/-- The second stamp of a moment. -/
def secondStamp (t : Instant) : String := String.ofList (secondChars t ++ ['Z'])

/-! ## Reading -/

def trimStart (cs : List Char) : List Char := cs.dropWhile Text.isBlank

def isDigit (c : Char) : Bool := (Decimal.digit? c).isSome

/-- The digits in front, at most `limit` of them and at least one, and what follows. -/
def takeDigits (limit : Nat) (cs : List Char) : Option (List Digit × List Char) :=
  let count := ((cs.take limit).takeWhile isDigit).length
  if count = 0 then none else some ((cs.take count).filterMap Decimal.digit?, cs.drop count)

/-- A number of one or two digits after optional blanks. -/
def takeTwo (cs : List Char) : Option (Nat × List Char) :=
  (takeDigits 2 (trimStart cs)).map fun (ds, rest) => (Decimal.value ds, rest)

/-- A year after optional blanks: up to four digits, or a sign and any number of digits. -/
def takeYear (cs : List Char) : Option (Int × List Char) :=
  match trimStart cs with
  | '-' :: rest =>
    (takeDigits rest.length rest).map fun (ds, rest) => (-(Decimal.value ds : Int), rest)
  | '+' :: rest =>
    (takeDigits rest.length rest).map fun (ds, rest) => ((Decimal.value ds : Int), rest)
  | cs => (takeDigits 4 cs).map fun (ds, rest) => ((Decimal.value ds : Int), rest)

/-- The character `c` in front, and what follows. -/
def takeChar (c : Char) : List Char → Option (List Char)
  | [] => none
  | d :: rest => if d = c then some rest else none

/-- The fields of a moment down to the second, as they were read. -/
structure Reading where
  year : Int
  month : Nat
  day : Nat
  hour : Nat
  minute : Nat
  second : Nat

/-- The moment that the fields name. -/
def Reading.instant? (r : Reading) (nano : Nat) : Option Instant := do
  let date ← Date.of? r.year r.month r.day
  if h : r.hour < 24 ∧ r.minute < 60 ∧ r.second < 61 ∧ nano < 1000000000 then
    return ⟨date, ⟨r.hour, h.1⟩, ⟨r.minute, h.2.1⟩, ⟨r.second, h.2.2.1⟩, ⟨nano, h.2.2.2⟩⟩
  else none

/-- Date, separator and time down to the second. `gap` says what may stand before a hyphen or a
colon, and `separator` takes what stands between date and time. -/
def takeReading (gap : List Char → List Char) (separator : List Char → Option (List Char))
    (cs : List Char) : Option (Reading × List Char) := do
  let (year, cs) ← takeYear cs
  let (month, cs) ← takeTwo (← takeChar '-' (gap cs))
  let (day, cs) ← takeTwo (← takeChar '-' (gap cs))
  let (hour, cs) ← takeTwo (← separator cs)
  let (minute, cs) ← takeTwo (← takeChar ':' (gap cs))
  let (second, cs) ← takeTwo (← takeChar ':' (gap cs))
  return (⟨year, month, day, hour, minute, second⟩, cs)

/-- The moment of a second stamp. -/
def ofSecondStamp? (s : String) : Option Instant := do
  let (reading, rest) ← takeReading id (takeChar 'T') s.toList
  if rest = ['Z'] then reading.instant? 0 else none

/-- What stands between the date and the time of an exact timestamp. -/
def takeSeparator : List Char → Option (List Char)
  | c :: rest => if c = 'T' || c = 't' || c = ' ' then some rest else none
  | [] => none

/-- A fraction of a second in nanoseconds, if a point follows; from the tenth digit on it is
dropped. -/
def takeFraction : List Char → Option (Nat × List Char)
  | '.' :: rest => do
    let (ds, after) ← takeDigits 9 rest
    return (Decimal.value ds * Nat.pow 10 (9 - ds.length), after.dropWhile isDigit)
  | cs => some (0, cs)

/-- An offset from universal time in minutes: `Z`, `UTC`, or a sign, two digits of hours and two of
minutes with colons and blanks between them. -/
def takeOffset : List Char → Option (Int × List Char)
  | 'Z' :: rest => some (0, rest)
  | 'z' :: rest => some (0, rest)
  | c :: rest =>
    if [c].map Char.toLower ++ (rest.take 2).map Char.toLower = ['u', 't', 'c'] then
      some (0, rest.drop 2)
    else if c = '+' || c = '-' || c = '−' then do
      let (h₁, rest) ← rest.head?.bind Decimal.digit? |>.map (·, rest.drop 1)
      let (h₂, rest) ← rest.head?.bind Decimal.digit? |>.map (·, rest.drop 1)
      let rest := rest.dropWhile fun d => d = ':' || Text.isBlank d
      let (m₁, rest) ← rest.head?.bind Decimal.digit? |>.map (·, rest.drop 1)
      let (m₂, rest) ← rest.head?.bind Decimal.digit? |>.map (·, rest.drop 1)
      let hours := Decimal.value [h₁, h₂]
      let minutes := Decimal.value [m₁, m₂]
      if hours < 24 ∧ minutes < 60 then
        let total : Int := hours * 60 + minutes
        return (if c = '+' then total else -total, rest)
      else none
    else none
  | [] => none

/-- The moment of an exact timestamp, in the lenient form. -/
def ofExact? (s : String) : Option Instant := do
  let (reading, cs) ← takeReading trimStart takeSeparator s.toList
  let (nano, cs) ← takeFraction cs
  let (offset, cs) ← takeOffset (trimStart cs)
  if (trimStart cs).isEmpty then (← reading.instant? nano).plusMinutes? (-offset) else none

end UserDirectory.Time
