set_option autoImplicit false

/-!
Finite numbers of the IEEE 754 binary64 format. Each of them is a whole multiple of the least
positive one, 2^-1074, so a number is a sign and that multiple, and comparing numbers is comparing
integers. Results of arithmetic are exact quotients, rounded once to the nearest number, ties to
the even one.
-/

namespace ApiCodec

/-- A finite binary64 number: a sign, and its magnitude in units of 2^-1074. -/
structure Binary64 where
  negative : Bool
  units : Nat
  deriving DecidableEq, Repr, Inhabited

namespace Binary64

/-- One, in units of the least positive number. -/
def unitsPerOne : Nat := Nat.pow 2 1074

/-- The magnitudes from here on are infinite. -/
def unitsLimit : Nat := Nat.pow 2 (1074 + 1024)

/-- The quotient rounded to the nearest integer, a tie to the even one. -/
def roundDiv (num den : Nat) : Nat :=
  let quotient := num / den
  let twice := 2 * (num % den)
  if twice < den then quotient
  else if den < twice then quotient + 1
  else if quotient % 2 = 0 then quotient else quotient + 1

/-- How many binary digits of a magnitude lie below the 53 that a number keeps. -/
def excess (units : Nat) : Nat :=
  if units = 0 then 0 else units.log2 - 52

/-- The magnitude nearest to a quotient, in units; `none` if it is too large to be finite. -/
def roundUnits (num den : Nat) : Option Nat :=
  let scaled := num * unitsPerOne
  let shift := excess (scaled / den)
  let units := roundDiv scaled (den * Nat.pow 2 shift) * Nat.pow 2 shift
  if units < unitsLimit then some units else none

/-- The number nearest to `num / den`, with the given sign. -/
def ofQuotient? (negative : Bool) (num den : Nat) : Option Binary64 :=
  (roundUnits num den).map (Binary64.mk negative)

/-- The number nearest to an integer that has at most 64 binary digits, or more up to the range. -/
def ofInt? (n : Int) : Option Binary64 :=
  ofQuotient? (n < 0) n.natAbs 1

def ofDecimal? (negative : Bool) (digits : Nat) (exponent : Int) : Option Binary64 :=
  if 0 ≤ exponent then ofQuotient? negative (digits * Nat.pow 10 exponent.toNat) 1
  else ofQuotient? negative digits (Nat.pow 10 (-exponent).toNat)

/-- Magnitude times magnitude. -/
def mul? (a b : Binary64) : Option Binary64 :=
  ofQuotient? (a.negative != b.negative) (a.units * b.units) (unitsPerOne * unitsPerOne)

/-- Quotient by a number other than zero. -/
def div? (a b : Binary64) : Option Binary64 :=
  ofQuotient? (a.negative != b.negative) a.units b.units

/-- The signed value in units of the least positive number. -/
def toUnits (a : Binary64) : Int := if a.negative then -(a.units : Int) else a.units

/-- Comparison by value: the two zeros are one. -/
def le (a b : Binary64) : Bool := a.toUnits ≤ b.toUnits

/-- Strict comparison by value. -/
def lt (a b : Binary64) : Bool := a.toUnits < b.toUnits

/-- Equality by value: the two zeros are one. -/
def eqv (a b : Binary64) : Bool := a.toUnits == b.toUnits

/-- Whether the value is a whole number. -/
def isWhole (a : Binary64) : Bool := a.units % unitsPerOne == 0

/-- The whole part of the value. -/
def toInt (a : Binary64) : Int :=
  let whole := a.units / unitsPerOne
  if a.negative then -(whole : Int) else whole

/-- The numbers that round to a magnitude run from `low` to `high`, in quarters of a unit, the
ends included iff `closed`. -/
structure Interval where
  low : Nat
  high : Nat
  closed : Bool

def Interval.has (interval : Interval) (quarterUnits : Nat) (den : Nat) : Bool :=
  if interval.closed then
    interval.low * den ≤ quarterUnits && quarterUnits ≤ interval.high * den
  else interval.low * den < quarterUnits && quarterUnits < interval.high * den

/-- The numbers that round to a magnitude: half a step to each side, a quarter below a power of
two, where the steps below are half as wide. -/
def interval (units : Nat) : Interval :=
  let shift := excess units
  let step := Nat.pow 2 shift
  let mantissa := units / step
  let below := if mantissa = Nat.pow 2 52 ∧ 0 < shift then step else 2 * step
  { low := 4 * units - below, high := 4 * units + 2 * step, closed := mantissa % 2 = 0 }

end Binary64

end ApiCodec
