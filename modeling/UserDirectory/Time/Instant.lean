/-!
# Instants

A moment of universal time by its calendar fields, down to the nanosecond. Second 60 is a leap
second. Fields are kept apart because reading and writing a moment then need no count of days:
moving by an offset of less than a day crosses at most one midnight (`Instant.plusMinutes?`).
-/

namespace UserDirectory.Time

/-- Whether a year of the Gregorian calendar has 29 days in February. -/
def isLeapYear (year : Int) : Bool := year % 4 = 0 && (year % 100 ≠ 0 || year % 400 = 0)

def daysInMonth (year : Int) (month : Nat) : Nat :=
  if month = 2 then if isLeapYear year then 29 else 28
  else if month = 4 || month = 6 || month = 9 || month = 11 then 30
  else 31

def minYear : Int := -262143

def maxYear : Int := 262142

/-- Whether the fields name a day of the calendar. -/
def isDate (year : Int) (month day : Nat) : Prop :=
  (minYear ≤ year ∧ year ≤ maxYear) ∧ (1 ≤ month ∧ month ≤ 12) ∧
    (1 ≤ day ∧ day ≤ daysInMonth year month)

instance (year : Int) (month day : Nat) : Decidable (isDate year month day) :=
  inferInstanceAs (Decidable (_ ∧ _ ∧ _))

/-- A day of the calendar. -/
structure Date where
  year : Int
  month : Nat
  day : Nat
  isDate : isDate year month day
  deriving DecidableEq

namespace Date

/-- The day that the fields name. -/
def of? (year : Int) (month day : Nat) : Option Date :=
  if h : Time.isDate year month day then some ⟨year, month, day, h⟩ else none

def next? (d : Date) : Option Date :=
  if d.day < daysInMonth d.year d.month then of? d.year d.month (d.day + 1)
  else if d.month < 12 then of? d.year (d.month + 1) 1
  else of? (d.year + 1) 1 1

def previous? (d : Date) : Option Date :=
  if 1 < d.day then of? d.year d.month (d.day - 1)
  else if 1 < d.month then of? d.year (d.month - 1) (daysInMonth d.year (d.month - 1))
  else of? (d.year - 1) 12 31

end Date

/-- A moment of universal time. -/
structure Instant where
  date : Date
  hour : Fin 24
  minute : Fin 60
  second : Fin 61
  nano : Fin 1000000000
  deriving DecidableEq

namespace Instant

/-- The fields of a moment, the most significant first. -/
def fields (t : Instant) : List Int :=
  [t.date.year, t.date.month, t.date.day, t.hour.val, t.minute.val, t.second.val, t.nano.val]

/-- Moments are ordered by their fields. -/
instance : LE Instant := ⟨fun s t => s.fields.le t.fields⟩

instance (s t : Instant) : Decidable (s ≤ t) := List.decidableLE s.fields t.fields

/-- The moment of a day after a number of nanoseconds, which wrap around at its end. -/
def onDay (date : Date) (nanos : Nat) : Instant where
  date
  hour := Fin.ofNat 24 (nanos / 3600000000000)
  minute := Fin.ofNat 60 (nanos / 60000000000)
  second := Fin.castLE (by decide) (Fin.ofNat 60 (nanos / 1000000000))
  nano := Fin.ofNat 1000000000 nanos

/-- The moment without its fraction of a second. -/
def wholeSecond (t : Instant) : Instant := { t with nano := 0 }

/-- The moment some minutes later, or earlier if there are fewer than none; less than a day. -/
def plusMinutes? (t : Instant) (minutes : Int) : Option Instant :=
  let total : Int := t.hour.val * 60 + t.minute.val + minutes
  let inDay := (total % 1440).toNat
  let hour : Fin 24 := Fin.ofNat 24 (inDay / 60)
  let minute : Fin 60 := Fin.ofNat 60 (inDay % 60)
  let date? :=
    if total < 0 then t.date.previous? else if total < 1440 then some t.date else t.date.next?
  date?.map fun date => { t with date, hour, minute }

theorem wholeSecond_eq_self {t : Instant} (h : t.nano = 0) : t.wholeSecond = t := by
  cases t
  simp_all [wholeSecond]

end Instant

end UserDirectory.Time
