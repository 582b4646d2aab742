import ApiCodec.Number.Binary64

set_option autoImplicit false

namespace ApiCodec

/-- The magnitude `digits * 10 ^ exponent`. -/
structure Decimal where
  digits : Nat
  exponent : Int
  deriving Repr

namespace Decimal

def digitChars (n : Nat) : List Char := Nat.toDigits 10 n

/-- Removes the trailing zeros of the digits; `fuel` bounds how many. -/
def stripZeros : Nat → Nat → Int → Decimal
  | 0, digits, exponent => ⟨digits, exponent⟩
  | fuel + 1, digits, exponent =>
      if digits % 10 = 0 ∧ 0 < digits then stripZeros fuel (digits / 10) (exponent + 1)
      else ⟨digits, exponent⟩

/-- Whether `10 ^ e` is at most the magnitude, which is given in units. -/
def powerAtMost (e : Int) (units : Nat) : Bool :=
  if 0 ≤ e then Nat.pow 10 e.toNat * Binary64.unitsPerOne ≤ units
  else Binary64.unitsPerOne ≤ units * Nat.pow 10 (-e).toNat

/-- The greatest `e` with `10 ^ e` at most a positive magnitude. The binary logarithm gives it up
to one. -/
def leadingExponent (units : Nat) : Int :=
  let guess := ((units.log2 : Int) - 1074) * 30103 / 100000
  ([guess + 2, guess + 1, guess, guess - 1].find? (powerAtMost · units)).getD (guess - 2)

/-- The decimal on the grid `10 ^ exponent` that is nearest to a magnitude, if one of the
magnitude's two neighbours on the grid reads back as it. -/
def onGrid? (units : Nat) (exponent : Int) : Option Nat :=
  let interval := Binary64.interval units
  -- the magnitude is `num / den` steps of the grid
  let (num, den) :=
    if 0 ≤ exponent then (units, Nat.pow 10 exponent.toNat * Binary64.unitsPerOne)
    else (units * Nat.pow 10 (-exponent).toNat, Binary64.unitsPerOne)
  let readsBack (steps : Nat) : Bool :=
    if 0 ≤ exponent then
      interval.has (4 * steps * (Nat.pow 10 exponent.toNat * Binary64.unitsPerOne)) 1
    else interval.has (4 * steps * Binary64.unitsPerOne) (Nat.pow 10 (-exponent).toNat)
  let below := num / den
  let nearest := Binary64.roundDiv num den
  let other := if nearest = below then below + 1 else below
  if readsBack nearest then some nearest else if readsBack other then some other else none

/-- The shortest decimal of a positive magnitude, tried with one digit, two digits and so on. -/
def shortestFrom (units : Nat) (leading : Int) : Nat → Nat → Decimal
  | 0, count => ⟨units, leading - count⟩
  | fuel + 1, count =>
      match onGrid? units (leading - count) with
      | some steps => stripZeros 20 steps (leading - count)
      | none => shortestFrom units leading fuel (count + 1)

/-- The shortest decimal that reads back as a magnitude. Seventeen digits always do. -/
def shortest (units : Nat) : Decimal :=
  if units = 0 then ⟨0, 0⟩ else shortestFrom units (leadingExponent units) 17 0

/-- The exponent of the first digit. -/
def scientificExponent (d : Decimal) : Int :=
  d.exponent + ((digitChars d.digits).length : Int) - 1

/-- Whole digits, and fraction digits after the point if there are any. -/
def positional (d : Decimal) : List Char × List Char :=
  let chars := digitChars d.digits
  if 0 ≤ d.exponent then (chars ++ List.replicate d.exponent.toNat '0', [])
  else
    let places := (-d.exponent).toNat
    if places < chars.length then
      (chars.take (chars.length - places), chars.drop (chars.length - places))
    else (['0'], List.replicate (places - chars.length) '0' ++ chars)

/-- The first digit, and the digits after the point if there are any. -/
def scientific (d : Decimal) : List Char :=
  match digitChars d.digits with
  | [] => []
  | [c] => [c]
  | c :: rest => c :: '.' :: rest

end Decimal

namespace Binary64

/-- The sign of a number, written before its digits. -/
def signChars (x : Binary64) : List Char := if x.negative then ['-'] else []

/-- Positional text; a whole number has no point. -/
def plainText (x : Binary64) : String :=
  let (whole, fraction) := (Decimal.shortest x.units).positional
  String.ofList (x.signChars ++ whole ++ if fraction.isEmpty then [] else '.' :: fraction)

/-- Positional text in which a whole number keeps one zero after the point. -/
def pointedText (x : Binary64) : String :=
  let (whole, fraction) := (Decimal.shortest x.units).positional
  String.ofList
    (x.signChars ++ whole ++ '.' :: if fraction.isEmpty then ['0'] else fraction)

/-- The text of a number in a JSON document: positional with a point from 10^-5 up to 10^16, and
beyond it scientific with a signed exponent. -/
def jsonText (x : Binary64) : String :=
  let d := Decimal.shortest x.units
  let e := d.scientificExponent
  if x.units = 0 ∨ (-5 ≤ e ∧ e < 16) then x.pointedText
  else
    String.ofList (x.signChars ++ d.scientific ++ 'e' :: (if e < 0 then '-' else '+') ::
      Decimal.digitChars e.natAbs)

end Binary64

end ApiCodec
