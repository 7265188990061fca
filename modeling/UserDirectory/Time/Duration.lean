import UserDirectory.Decimal.Digits

/-!
# Durations

Lengths of time in nanoseconds. A duration is written in the largest unit that has a non-zero
whole part, with the fraction in full and no trailing zeros: `5s`, `1.5ms`, `100µs`.
-/

namespace UserDirectory.Time

structure Duration where
  nanos : Nat
  deriving DecidableEq, Repr

namespace Duration

def ofSeconds (n : Nat) : Duration := ⟨n * 1000000000⟩

def ofMillis (n : Nat) : Duration := ⟨n * 1000000⟩

def zero : Duration := ⟨0⟩

/-- The duration itself, or a default in place of no time at all. -/
def orDefault (d fallback : Duration) : Duration := if d.nanos = 0 then fallback else d

theorem orDefault_pos {d fallback : Duration} (h : 0 < fallback.nanos) :
    0 < (d.orDefault fallback).nanos := by
  unfold orDefault
  split <;> omega

/-- The units, largest first, with their length in nanoseconds and the digits of their fraction. -/
def units : List (String × Nat × Nat) :=
  [("s", 1000000000, 9), ("ms", 1000000, 6), ("µs", 1000, 3), ("ns", 1, 0)]

/-- The digits of a fraction after a point, without trailing zeros; nothing if there are none. -/
def fractionText (width fraction : Nat) : String :=
  let kept := ((Decimal.paddedChars width fraction).reverse.dropWhile (· == '0')).reverse
  if kept.isEmpty then "" else String.ofList ('.' :: kept)

def text (d : Duration) : String :=
  let (name, length, width) := (units.find? fun u => u.2.1 ≤ d.nanos).getD ("ns", 1, 0)
  Decimal.text (d.nanos / length) ++ fractionText width (d.nanos % length) ++ name

end Duration

end UserDirectory.Time
