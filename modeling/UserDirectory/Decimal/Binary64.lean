import UserDirectory.Decimal.Digits

/-!
# Numbers with a 53-bit significand

The finite binary floating-point numbers of 64 bits, as exact values: a magnitude is
`significand * 2 ^ exponent`. All arithmetic is done on natural numbers and rounded once, to the
nearest number and in a tie to the even significand, so nothing here depends on the machine.

`shortest` gives the fewest decimal digits that still lie in the interval of reals which round to
the number, and among those the ones nearest to it.
-/

namespace UserDirectory.Decimal

/-- The magnitude `significand * 2 ^ exponent`. -/
structure Magnitude where
  significand : Nat
  exponent : Int
  deriving DecidableEq, Repr

/-- A finite binary floating-point number of 64 bits. -/
structure Binary64 where
  negative : Bool
  magnitude : Magnitude
  deriving DecidableEq, Repr

namespace Magnitude

def zero : Magnitude := ⟨0, -1074⟩

def minExponent : Int := -1074

def maxExponent : Int := 971

/-- The fraction `num / den` divided by `2 ^ e`. -/
def scaled (num den : Nat) (e : Int) : Nat × Nat :=
  if e ≥ 0 then (num, den * Nat.pow 2 e.toNat) else (num * Nat.pow 2 (-e).toNat, den)

/-- A quotient rounded to the nearest natural number, in a tie to the even one. -/
def roundQuotient (num den : Nat) : Nat :=
  let q := num / den
  let r := num % den
  if 2 * r < den then q
  else if 2 * r > den then q + 1
  else if q % 2 = 0 then q else q + 1

/-- The exponent at which the fraction has a quotient of 53 bits, bounded below. -/
def exponentFor (num den : Nat) : Int :=
  let guess : Int := (Nat.log2 num : Int) - (Nat.log2 den : Int) - 52
  let (n, d) := scaled num den guess
  let e :=
    if n / d < Nat.pow 2 52 then guess - 1
    else if n / d ≥ Nat.pow 2 53 then guess + 1
    else guess
  max e minExponent

/-- The magnitude nearest to the fraction `num / den`, or none when it is beyond the largest. -/
def nearest? (num den : Nat) : Option Magnitude :=
  if num = 0 then some zero
  else
    let e := exponentFor num den
    let (n, d) := scaled num den e
    let m := roundQuotient n d
    let result : Magnitude := if m = Nat.pow 2 53 then ⟨Nat.pow 2 52, e + 1⟩ else ⟨m, e⟩
    if result.exponent > maxExponent then none else some result

def fraction (x : Magnitude) : Nat × Nat :=
  if x.exponent ≥ 0 then (x.significand * Nat.pow 2 x.exponent.toNat, 1)
  else (x.significand, Nat.pow 2 (-x.exponent).toNat)

def mul? (x y : Magnitude) : Option Magnitude :=
  nearest? (x.fraction.1 * y.fraction.1) (x.fraction.2 * y.fraction.2)

def div? (x y : Magnitude) : Option Magnitude :=
  nearest? (x.fraction.1 * y.fraction.2) (x.fraction.2 * y.fraction.1)

/-! ## The fewest digits that read back -/

/-- Decimal digits `digits` with the point after the first `point` of them. -/
structure Written where
  digits : List Digit
  point : Int
  deriving DecidableEq, Repr

/-- Whether `num / den` lies among the reals that round to the magnitude. -/
def covers (x : Magnitude) (num den : Nat) : Bool :=
  let m := x.significand
  -- four times the two ends of the interval, in units of `2 ^ exponent`
  let low := if m = Nat.pow 2 52 && x.exponent > minExponent then 4 * m - 1 else 4 * m - 2
  let high := 4 * m + 2
  let (n, d) := scaled (4 * num) den x.exponent
  if m % 2 = 0 then low * d ≤ n && n ≤ high * d else low * d < n && n < high * d

/-- The least `p` with `num / den < 10 ^ p`, searched upward from a lower bound. -/
def tenExponentFrom (num den : Nat) : Nat → Int → Int
  | 0, p => p
  | fuel + 1, p =>
    let below :=
      if p ≥ 0 then num < den * Nat.pow 10 p.toNat else num * Nat.pow 10 (-p).toNat < den
    if below then p else tenExponentFrom num den fuel (p + 1)

/-- The number of digits before the decimal point of a positive fraction, negative or zero when
zeros follow the point. -/
def tenExponent (num den : Nat) : Int :=
  let bits : Int := (Nat.log2 num : Int) - (Nat.log2 den : Int)
  tenExponentFrom num den 8 ((bits - 1) * 30103 / 100000 - 1)

/-- The two neighbours of the fraction on the grid of `count`-digit decimals with the given
point, as whole numbers of grid steps, and which of them the fraction is nearer to. -/
def gridCandidates (num den : Nat) (step : Int) : Nat × Nat × Bool :=
  let (n, d) :=
    if step ≥ 0 then (num, den * Nat.pow 10 step.toNat)
    else (num * Nat.pow 10 (-step).toNat, den)
  let q := n / d
  let r := n % d
  let nearerBelow := 2 * r < d || (2 * r = d && q % 2 = 0)
  (q, q + 1, nearerBelow)

/-- The fraction `q * 10 ^ step`. -/
def gridFraction (q : Nat) (step : Int) : Nat × Nat :=
  if step ≥ 0 then (q * Nat.pow 10 step.toNat, 1) else (q, Nat.pow 10 (-step).toNat)

/-- The nearest decimal of `count` digits that rounds to the magnitude, if there is one. -/
def decimalOf? (x : Magnitude) (point : Int) (count : Nat) : Option (Nat × Int) :=
  let (num, den) := x.fraction
  let step := point - count
  let (below, above, nearerBelow) := gridCandidates num den step
  let reads (q : Nat) : Bool := let (n, d) := gridFraction q step; x.covers n d
  let first := if nearerBelow then below else above
  let second := if nearerBelow then above else below
  if reads first then some (first, step) else if reads second then some (second, step) else none

/-- A number of digits without its trailing zeros. -/
def dropTrailingZeros (ds : List Digit) : List Digit :=
  match (ds.reverse.dropWhile (· == 0)).reverse with
  | [] => [0]
  | kept => kept

/-- The fewest digits that read back as a positive magnitude, and where the point stands. -/
def shortest (x : Magnitude) : Written :=
  let (num, den) := x.fraction
  let point := tenExponent num den
  match (List.range 17).findSome? fun k => decimalOf? x point (k + 1) with
  | some (q, step) =>
    let ds := digits q
    ⟨dropTrailingZeros ds, step + ds.length⟩
  | none => ⟨[0], 1⟩

end Magnitude

end UserDirectory.Decimal
