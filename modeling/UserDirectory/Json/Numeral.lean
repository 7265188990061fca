import UserDirectory.Decimal.Binary64

/-!
# Number literals and the numbers they stand for

A `Numeral` is the literal as written: sign, digits before the point, digits after it, exponent.
A `Number` is what a document keeps of it: a natural number below 2^64, a negative number down to
-2^63, or a finite floating-point number.

An integer literal that fits is kept exactly. Any other literal is read as a significand of at
most 64 bits, whose further digits are dropped, times a power of ten; the product is rounded
after the significand and after each multiplication or division.
-/

namespace UserDirectory.Json

open Decimal (Digit Magnitude Binary64)

structure Exponent where
  negative : Bool
  digits : List Digit
  deriving DecidableEq, Repr

structure Numeral where
  negative : Bool
  whole : List Digit
  fraction : Option (List Digit)
  exponent : Option Exponent
  deriving DecidableEq, Repr

/-- A number as a document keeps it. -/
inductive Number
  /-- a natural number below `2 ^ 64` -/
  | natural (n : Nat)
  /-- the negative number `-n`, with `n` from 1 to `2 ^ 63` -/
  | negative (n : Nat)
  /-- a finite floating-point number -/
  | real (x : Binary64)
  deriving DecidableEq, Repr

namespace Numeral

def ofInt (n : Int) : Numeral := ⟨decide (n < 0), Decimal.digits n.natAbs, none, none⟩

/-- The integer that the literal spells, if it has neither fraction nor exponent. A zero with a
sign is no integer. -/
def int? (x : Numeral) : Option Int :=
  match x.fraction, x.exponent with
  | none, none =>
    let n := Decimal.value x.whole
    if x.negative then if n = 0 then none else some (-(n : Int)) else some n
  | _, _ => none

/-! ## Significand and exponent -/

/-- The bound below which a significand stays. -/
def significandBound : Nat := Nat.pow 2 64

/-- Takes in the digits before the point: once a digit no longer fits, it and all that follow
only raise the exponent. Returns the significand and the number of digits dropped. -/
def takeWhole : List Digit → Nat → Nat × Nat
  | [], m => (m, 0)
  | d :: ds, m =>
    if 10 * m + d.val < significandBound then takeWhole ds (10 * m + d.val)
    else (m, ds.length + 1)

/-- Takes in the digits after the point until one no longer fits; the rest is dropped. Returns the
significand and the number of digits taken. -/
def takeFraction : List Digit → Nat → Nat → Nat × Nat
  | [], m, k => (m, k)
  | d :: ds, m, k =>
    if 10 * m + d.val < significandBound then takeFraction ds (10 * m + d.val) (k + 1)
    else (m, k)

/-- The largest written exponent that is read as a number; beyond it only its sign counts. -/
def exponentBound : Nat := Nat.pow 2 31

/-- The largest power of ten with a table entry. -/
def maxTableExponent : Nat := 308

/-- The rounded power of ten. -/
def tenPower (k : Nat) : Option Magnitude := Magnitude.nearest? (Nat.pow 10 k) 1

/-- A magnitude times a power of ten, in steps of at most `10 ^ 308` each of which is rounded. -/
def scaleByTen (x : Magnitude) (e : Int) : Nat → Option Magnitude
  | 0 => some x
  | steps + 1 =>
    if e.natAbs ≤ maxTableExponent then do
      let p ← tenPower e.natAbs
      if e ≥ 0 then x.mul? p else x.div? p
    else if x.significand = 0 then some x
    else if e ≥ 0 then none
    else do
      let p ← tenPower maxTableExponent
      let y ← x.div? p
      scaleByTen y (e + maxTableExponent) steps

/-- The floating-point magnitude of a significand times a power of ten. Three divisions by
`10 ^ 308` turn every significand into zero, so four steps are enough. -/
def magnitude? (significand : Nat) (e : Int) : Option Magnitude := do
  let x ← Magnitude.nearest? significand 1
  scaleByTen x e 4

/-- The floating-point number that the literal stands for; none when it is beyond the largest. -/
def real? (x : Numeral) : Option Binary64 := do
  let (whole, dropped) := takeWhole x.whole 0
  let (m, taken) := takeFraction (x.fraction.getD []) whole 0
  let start : Int := (dropped : Int) - (taken : Int)
  match x.exponent with
  | none => return ⟨x.negative, ← magnitude? m start⟩
  | some e =>
    let n := Decimal.value e.digits
    if n < exponentBound then
      let written : Int := if e.negative then -(n : Int) else n
      return ⟨x.negative, ← magnitude? m (start + written)⟩
    else if m ≠ 0 && !e.negative then none
    else return ⟨x.negative, Magnitude.zero⟩

/-- The number that a document keeps of the literal. -/
def number? (x : Numeral) : Option Number :=
  match x.int? with
  | some (.ofNat n) => if n < Nat.pow 2 64 then some (.natural n) else x.real?.map .real
  | some (.negSucc n) => if n < Nat.pow 2 63 then some (.negative (n + 1)) else x.real?.map .real
  | none => x.real?.map .real

/-! ## Writing -/

/-- The exponents below which, and from which on, a floating-point number is written positionally:
a point may stand after at most sixteen digits, and at most four zeros may follow it. -/
def positionalPoints : Int × Int := (-5, 16)

/-- The literal of a floating-point number: the fewest digits that read back, with `.0` after a
whole number, and with an exponent outside `positionalPoints`. -/
def ofReal (x : Binary64) : Numeral :=
  if x.magnitude.significand = 0 then ⟨x.negative, [0], some [0], none⟩
  else
    let d := x.magnitude.shortest
    let count : Int := d.digits.length
    if count ≤ d.point ∧ d.point ≤ positionalPoints.2 then
      ⟨x.negative, d.digits ++ List.replicate (d.point - count).toNat 0, some [0], none⟩
    else if 0 < d.point ∧ d.point ≤ positionalPoints.2 then
      ⟨x.negative, d.digits.take d.point.toNat, some (d.digits.drop d.point.toNat), none⟩
    else if positionalPoints.1 < d.point ∧ d.point ≤ 0 then
      ⟨x.negative, [0], some (List.replicate (-d.point).toNat 0 ++ d.digits), none⟩
    else
      let e := d.point - 1
      let tail := d.digits.drop 1
      ⟨x.negative, d.digits.take 1, if tail.isEmpty then none else some tail,
        some ⟨decide (e < 0), Decimal.digits e.natAbs⟩⟩

/-- The literal of a number. -/
def ofNumber : Number → Numeral
  | .natural n => ⟨false, Decimal.digits n, none, none⟩
  | .negative n => ⟨true, Decimal.digits n, none, none⟩
  | .real x => ofReal x

end Numeral

end UserDirectory.Json
